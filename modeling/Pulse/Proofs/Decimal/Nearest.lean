import Pulse.Proofs.Decimal.Canonical

/-!
# Rounding to the nearest double

The doubles around a positive number `q` are the multiples of a power of two, `Grid q t`, and `q` is
rounded to the nearest one, of two equally near ones to the one with the even multiple
(`Rounds q s u`).  The model of doubles shifts bits out of a mantissa and remembers what they said
about the half (`Within`); `rounds_roundWithAccuracy` says that this is the same.

From then on only `Rounds` matters: there is one such double (`Rounds.unique`), a number that is a
double is rounded to itself (`rounds_canonical`), and rounding keeps the order (`Rounds.mono`).
-/

set_option autoImplicit false

namespace Pulse.Decimal

open Float.Model
open Float.Model.UnpackedFloat

/-! ## The nearest whole number -/

/-- `n` is the whole number nearest to `x`, the even one if two are equally near. -/
structure Nearest (x : ℚ) (n : Nat) : Prop where
  below : n - 1 / 2 ≤ x
  above : x ≤ n + 1 / 2
  even_below : x = n - 1 / 2 → n % 2 = 0
  even_above : x = n + 1 / 2 → n % 2 = 0

namespace Nearest

theorem mono {x y : ℚ} {n m : Nat} (hx : Nearest x n) (hy : Nearest y m) (h : x ≤ y) : n ≤ m := by
  by_contra hlt
  have hsucc : (m : ℚ) + 1 ≤ n := by exact_mod_cast Nat.lt_of_not_le hlt
  have hxn := hx.below
  have hym := hy.above
  -- Only a half between `m` and its successor is left, and one of them is odd.
  have hn : (n : ℚ) = m + 1 := by linarith
  have heven := hx.even_below (by linarith)
  have heven' := hy.even_above (by linarith)
  have : n = m + 1 := by exact_mod_cast hn
  omega

theorem unique {x : ℚ} {n m : Nat} (hn : Nearest x n) (hm : Nearest x m) : n = m :=
  le_antisymm (hn.mono hm le_rfl) (hm.mono hn le_rfl)

theorem natCast (n : Nat) : Nearest n n where
  below := by linarith
  above := by linarith
  even_below h := by linarith
  even_above h := by linarith

end Nearest

/-! ## Shifting bits out of a mantissa -/

/-- `x` stands to the whole number below it as the accuracy says. -/
def Within (x : ℚ) (m : Nat) : Accuracy → Prop
  | .exact => x = m
  | .inexact .lt => m < x ∧ x < m + 1 / 2
  | .inexact .eq => x = m + 1 / 2
  | .inexact .gt => m + 1 / 2 < x ∧ x < m + 1

namespace Within

variable {x : ℚ} {m : Nat} {accuracy : Accuracy}

theorem floor (h : Within x m accuracy) : m ≤ x ∧ x < m + 1 := by
  match accuracy, h with
  | .exact, h => exact ⟨h.ge, by rw [Within] at h; linarith⟩
  | .inexact .lt, h => exact ⟨h.1.le, by linarith [h.2]⟩
  | .inexact .eq, h => rw [Within] at h; constructor <;> linarith
  | .inexact .gt, h => exact ⟨by linarith [h.1], h.2⟩

theorem nearest (h : Within x m accuracy) : Nearest x (accuracy.roundToNearestEven m) := by
  match accuracy, h with
  | .exact, h =>
    rw [Within] at h
    exact h ▸ .natCast m
  | .inexact .lt, ⟨hlow, hhigh⟩ =>
    rw [Accuracy.roundToNearestEven]
    exact ⟨by linarith, by linarith, fun h => by linarith, fun h => by linarith⟩
  | .inexact .eq, h =>
    rw [Within] at h
    rw [Accuracy.roundToNearestEven]
    rcases Nat.mod_two_eq_zero_or_one m with hm | hm
    · rw [hm, Nat.add_zero]
      exact ⟨by linarith, by linarith, fun _ => hm, fun _ => hm⟩
    · have heven : (m + 1) % 2 = 0 := by omega
      rw [hm]
      exact ⟨by push_cast; linarith, by push_cast; linarith, fun _ => heven, fun _ => heven⟩
  | .inexact .gt, ⟨hlow, hhigh⟩ =>
    rw [Accuracy.roundToNearestEven]
    refine ⟨?_, ?_, fun h => ?_, fun h => ?_⟩ <;> push_cast at * <;> linarith

end Within

/-- `x` is where the residual bits of the mantissa say. -/
def WithinBits (x : ℚ) : ExtendedMantissa → Prop
  | ⟨m, bit, false⟩ => x = m + (bit.toNat : ℚ) / 2
  | ⟨m, bit, true⟩ =>
    m + (bit.toNat : ℚ) / 2 < x ∧ x < m + (bit.toNat : ℚ) / 2 + 1 / 2

namespace WithinBits

theorem of_accuracy {x : ℚ} {m : Nat} {accuracy : Accuracy} (h : Within x m accuracy) :
    WithinBits x (.ofMantissaAndAccuracy m accuracy) := by
  match accuracy, h with
  | .exact, h => simpa [ExtendedMantissa.ofMantissaAndAccuracy, WithinBits, Within] using h
  | .inexact .lt, h => simpa [ExtendedMantissa.ofMantissaAndAccuracy, WithinBits, Within] using h
  | .inexact .eq, h => simpa [ExtendedMantissa.ofMantissaAndAccuracy, WithinBits, Within] using h
  | .inexact .gt, ⟨hlow, hhigh⟩ =>
    rw [ExtendedMantissa.ofMantissaAndAccuracy, WithinBits, Bool.toNat_true, Nat.cast_one]
    exact ⟨hlow, by linarith⟩

theorem within {x : ℚ} {em : ExtendedMantissa} (h : WithinBits x em) :
    Within x em.mantissa em.accuracy := by
  match em, h with
  | ⟨m, false, false⟩, h => simpa [ExtendedMantissa.accuracy, WithinBits, Within] using h
  | ⟨m, true, false⟩, h => simpa [ExtendedMantissa.accuracy, WithinBits, Within] using h
  | ⟨m, false, true⟩, h => simpa [ExtendedMantissa.accuracy, WithinBits, Within] using h
  | ⟨m, true, true⟩, h =>
    rw [WithinBits, Bool.toNat_true, Nat.cast_one] at h
    exact ⟨h.1, by linarith [h.2]⟩

theorem shiftRightOne {x : ℚ} {em : ExtendedMantissa} (h : WithinBits x em) :
    WithinBits (x / 2) em.shiftRightOne := by
  obtain ⟨m, bit, sticky⟩ := em
  have hm : (m : ℚ) = 2 * (m / 2 : Nat) + (m % 2 : Nat) := by
    exact_mod_cast (Nat.div_add_mod m 2).symm
  have hbit : (m % 2 != 0).toNat = m % 2 := by
    rcases Nat.mod_two_eq_zero_or_one m with hmod | hmod <;> rw [hmod] <;> rfl
  rw [ExtendedMantissa.shiftRightOne]
  cases bit <;> cases sticky <;>
    simp only [WithinBits, Bool.or_false, Bool.or_true, hbit, Bool.toNat_true, Bool.toNat_false,
      Nat.cast_zero, Nat.cast_one] at h ⊢
  · linarith
  · constructor <;> linarith [h.1, h.2]
  · constructor <;> linarith
  · constructor <;> linarith [h.1, h.2]

theorem shiftRight {x : ℚ} {em : ExtendedMantissa} (h : WithinBits x em) (n : Nat) :
    WithinBits (x / 2 ^ n) (em >>> n) := by
  induction n with
  | zero =>
    rw [pow_zero, div_one]
    exact h
  | succ n ih =>
    rw [pow_succ, ← div_div]
    exact ih.shiftRightOne

end WithinBits

/-! ## The doubles around a number -/

theorem two_zpow_natCast_add (k : Nat) (t : Int) : (2 : ℚ) ^ (k + t) = 2 ^ k * 2 ^ t := by
  rw [zpow_add₀ two_ne_zero, zpow_natCast]

theorem two_zpow_ofNat_add (k : Nat) [k.AtLeastTwo] (t : Int) :
    (2 : ℚ) ^ (ofNat(k) + t) = 2 ^ (ofNat(k) : Nat) * 2 ^ t :=
  two_zpow_natCast_add k t

/-- Around `q` doubles are the multiples of `2 ^ t`. -/
structure Grid (q : ℚ) (t : Int) : Prop where
  least : -1074 ≤ t
  above : q < 2 ^ (53 + t)
  below : -1074 < t → 2 ^ (52 + t) ≤ q

namespace Grid

theorem mono {q r : ℚ} {t u : Int} (hq : Grid q t) (hr : Grid r u) (h : q ≤ r) : t ≤ u := by
  by_contra hlt
  have hpow : (2 : ℚ) ^ (53 + u) ≤ 2 ^ (52 + t) := zpow_le_zpow_right₀ one_le_two (by omega)
  have := hq.below (by have := hr.least; omega)
  linarith [hr.above]

theorem unique {q : ℚ} {t u : Int} (ht : Grid q t) (hu : Grid q u) : t = u :=
  le_antisymm (ht.mono hu le_rfl) (hu.mono ht le_rfl)

/-- A double is on the grid around it. -/
theorem of_canonical {m : Nat} {e : Int} (h : Canonical m e) : Grid (m * 2 ^ e) e where
  least := h.least
  above := by
    rw [two_zpow_ofNat_add]
    gcongr
    exact_mod_cast h.lt
  below he := by
    rw [two_zpow_ofNat_add]
    gcongr
    exact_mod_cast h.full he

end Grid

/-- The exponent to which the model of doubles shifts a mantissa. -/
theorem targetExponent_eq (m : Nat) (e : Int) :
    Format.binary64.targetExponent (totalExponent m e) = max ((m.log2 : Int) + e - 52) (-1074) := by
  show max ((m.log2 : Int) + 1 + e - (53 : Nat)) (-1074) = _
  omega

/-- A mantissa with enough bits is shifted to the grid. -/
theorem grid_targetExponent {x : ℚ} {m : Nat} {e : Int} (hlow : m ≤ x) (hhigh : x < m + 1)
    (he : e ≤ Format.binary64.targetExponent (totalExponent m e)) :
    Grid (x * 2 ^ e) (Format.binary64.targetExponent (totalExponent m e)) := by
  rw [targetExponent_eq] at he ⊢
  have hpow : (0 : ℚ) < 2 ^ e := by positivity
  have hbits : (m : ℚ) + 1 ≤ 2 ^ (m.log2 + 1) := by exact_mod_cast Nat.lt_log2_self
  refine ⟨le_max_right .., ?_, fun ht => ?_⟩
  · calc x * 2 ^ e < 2 ^ (m.log2 + 1) * 2 ^ e := by gcongr; linarith
      _ = 2 ^ ((m.log2 + 1 : Nat) + e) := (two_zpow_natCast_add ..).symm
      _ ≤ _ := zpow_le_zpow_right₀ one_le_two (by omega)
  · have hm : m ≠ 0 := by
      rintro rfl
      simp at ht he
      omega
    have hfirst : (2 : ℚ) ^ m.log2 ≤ m := by exact_mod_cast Nat.log2_self_le hm
    calc (2 : ℚ) ^ (52 + max ((m.log2 : Int) + e - 52) (-1074)) = 2 ^ ((m.log2 : Int) + e) := by
          congr 1
          omega
      _ = 2 ^ m.log2 * 2 ^ e := two_zpow_natCast_add ..
      _ ≤ x * 2 ^ e := by gcongr; linarith

/-! ## The nearest double -/

/-- The double `n * 2 ^ t`, for `n` up to `2 ^ 53`. -/
def multiple (s : Sign) (n : Nat) (t : Int) : UnpackedFloat :=
  if h : n = 0 then .zero s
  else if n < 2 ^ 53 then .finite s n t (Nat.pos_of_ne_zero h)
  else .finite s (2 ^ 52) (t + 1) (by decide)

/-- `u` is the double nearest to `q`, with the sign `s`. -/
def Rounds (q : ℚ) (s : Sign) (u : UnpackedFloat) : Prop :=
  ∃ t n, Grid q t ∧ Nearest (q / 2 ^ t) n ∧ u = multiple s n t

theorem Nearest.le_of_grid {q : ℚ} {t : Int} {n : Nat} (hn : Nearest (q / 2 ^ t) n)
    (ht : Grid q t) : n ≤ 2 ^ 53 := by
  have hlt : q / 2 ^ t < 2 ^ 53 := by
    rw [div_lt_iff₀ (by positivity)]
    exact two_zpow_ofNat_add 53 t ▸ ht.above
  exact hn.mono (m := 2 ^ 53) (by exact_mod_cast Nearest.natCast (2 ^ 53)) hlt.le

theorem shiftToTargetExponent_eq (m : Nat) (e : Int) (accuracy : Accuracy) {k : Nat}
    (hk : Format.binary64.targetExponent (totalExponent m e) - e ≤ k)
    (hk' : (k : Int) ≤ max (Format.binary64.targetExponent (totalExponent m e) - e) 0) :
    shiftToTargetExponent .binary64 m e accuracy =
      (ExtendedMantissa.ofMantissaAndAccuracy m accuracy >>> k, e + k) := by
  have hshift : (Format.binary64.targetExponent (totalExponent m e) - e).toNat = k := by omega
  rw [shiftToTargetExponent, shiftToExponent, hshift]

/-- Rounding may have made a mantissa one bit longer. -/
theorem shiftToTargetExponent_rounded {n : Nat} {t : Int} (hn : n ≤ 2 ^ 53) (ht : -1074 ≤ t) :
    ((shiftToTargetExponent .binary64 n t .exact).1.mantissa,
      (shiftToTargetExponent .binary64 n t .exact).2) =
        if n < 2 ^ 53 then (n, t) else (2 ^ 52, t + 1) := by
  split_ifs with hlt
  · have hlog : n.log2 ≤ 52 := by
      rcases Nat.eq_zero_or_pos n with rfl | hpos
      · simp
      · exact Nat.le_of_lt_succ ((Nat.log2_lt hpos.ne').2 hlt)
    rw [shiftToTargetExponent_eq n t .exact (k := 0) (by rw [targetExponent_eq]; omega) (by simp)]
    exact congrArg (Prod.mk n) (add_zero t)
  · obtain rfl : n = 2 ^ 53 := by omega
    have htarget := targetExponent_eq (2 ^ 53) t
    rw [Nat.log2_two_pow] at htarget
    rw [shiftToTargetExponent_eq (2 ^ 53) t .exact (k := 1) (by omega) (by omega)]
    rfl

theorem multiple_eq (s : Sign) {n m : Nat} {t e : Int}
    (h : (m, e) = if n < 2 ^ 53 then (n, t) else (2 ^ 52, t + 1)) :
    (if h : m = 0 then .zero s else .finite s m e (Nat.pos_of_ne_zero h)) = multiple s n t := by
  rw [multiple]
  split_ifs at h with hlt
  · cases h
    split_ifs <;> rfl
  · cases h
    have hn : n ≠ 0 := by
      rintro rfl
      exact hlt (by decide)
    rw [dif_neg (by decide), dif_neg hn, if_neg hlt]

/-- **The model of doubles rounds to the nearest one**, if the mantissa has enough bits. -/
theorem rounds_roundWithAccuracy {x : ℚ} {m : Nat} {e : Int} {accuracy : Accuracy}
    (h : Within x m accuracy) (he : e ≤ Format.binary64.targetExponent (totalExponent m e))
    (s : Sign) : Rounds (x * 2 ^ e) s (roundWithAccuracy .binary64 s m e accuracy) := by
  have hgrid := grid_targetExponent h.floor.1 h.floor.2 he
  obtain ⟨k, hk⟩ := Int.eq_ofNat_of_zero_le (Int.sub_nonneg.2 he)
  have hfirst := shiftToTargetExponent_eq m e accuracy (k := k) hk.le (by omega)
  obtain ⟨t, ht⟩ : ∃ t, Format.binary64.targetExponent (totalExponent m e) = t := ⟨_, rfl⟩
  rw [ht] at hk hgrid
  have hx : x * 2 ^ e / 2 ^ t = x / 2 ^ k := by
    rw [show t = k + e by omega, two_zpow_natCast_add]
    field_simp
  have hnearest := ((WithinBits.of_accuracy h).shiftRight k).within.nearest
  rw [← hx] at hnearest
  refine ⟨t, _, hgrid, hnearest, ?_⟩
  have hfinal := shiftToTargetExponent_rounded (hnearest.le_of_grid hgrid) hgrid.least
  have hk' : e + (k : Int) = t := by omega
  simp only [roundWithAccuracy, hfirst, hk', ExtendedMantissa.roundedMantissa]
  exact multiple_eq s hfinal

/-! ## What rounding does -/

/-- The size of a finite double. -/
def size : UnpackedFloat → ℚ
  | .notANumber | .infinity _ | .zero _ => 0
  | .finite _ m e _ => m * 2 ^ e

theorem size_multiple (s : Sign) {n : Nat} (h : n ≤ 2 ^ 53) (t : Int) :
    size (multiple s n t) = n * 2 ^ t := by
  rw [multiple]
  split_ifs with hzero hlt
  · simp [size, hzero]
  · rfl
  · obtain rfl : n = 2 ^ 53 := by omega
    rw [size, zpow_add₀ two_ne_zero]
    push_cast
    ring

namespace Rounds

variable {q r : ℚ} {s : Sign} {u v : UnpackedFloat}

theorem unique (hu : Rounds q s u) (hv : Rounds q s v) : u = v := by
  obtain ⟨t, n, ht, hn, rfl⟩ := hu
  obtain ⟨t', n', ht', hn', rfl⟩ := hv
  obtain rfl := ht.unique ht'
  obtain rfl := hn.unique hn'
  rfl

/-- Rounding keeps the order. -/
theorem mono (hu : Rounds q s u) (hv : Rounds r s v) (h : q ≤ r) : size u ≤ size v := by
  obtain ⟨t, n, ht, hn, rfl⟩ := hu
  obtain ⟨t', n', ht', hn', rfl⟩ := hv
  rw [size_multiple s (hn.le_of_grid ht), size_multiple s (hn'.le_of_grid ht')]
  rcases (ht.mono ht' h).eq_or_lt with rfl | hlt
  · have hle : q / 2 ^ t ≤ r / 2 ^ t := by gcongr
    have := hn.mono hn' hle
    gcongr
  · -- On a coarser grid everything is at least as great as what is left of the finer one.
    have hfull : (2 ^ 52 : ℕ) ≤ r / 2 ^ t' := by
      rw [le_div_iff₀ (by positivity)]
      exact_mod_cast two_zpow_ofNat_add 52 t' ▸ ht'.below (ht.least.trans_lt hlt)
    have hge : 2 ^ 52 ≤ n' := (Nearest.natCast (2 ^ 52)).mono hn' hfull
    have hle := hn.le_of_grid ht
    calc (n : ℚ) * 2 ^ t ≤ 2 ^ 53 * 2 ^ t := by gcongr; exact_mod_cast hle
      _ = 2 ^ (53 + t) := (two_zpow_ofNat_add 53 t).symm
      _ ≤ 2 ^ (52 + t') := zpow_le_zpow_right₀ one_le_two (by omega)
      _ = 2 ^ 52 * 2 ^ t' := two_zpow_ofNat_add 52 t'
      _ ≤ n' * 2 ^ t' := by gcongr; exact_mod_cast hge

/-- A number of up to 53 bits that is no finer than the finest doubles is a double. -/
theorem size_eq {k : Nat} {j : Int} (hu : Rounds (k * 2 ^ j) s u) (hk : k ≤ 2 ^ 53)
    (hj : -1074 ≤ j) : size u = k * 2 ^ j := by
  obtain ⟨t, n, ht, hn, rfl⟩ := hu
  rw [size_multiple s (hn.le_of_grid ht)]
  have hwhole : ∃ i : Nat, (k : ℚ) * 2 ^ j / 2 ^ t = i := by
    rcases le_or_gt t j with htj | hjt
    · obtain ⟨d, hd⟩ := Int.eq_ofNat_of_zero_le (Int.sub_nonneg.2 htj)
      refine ⟨k * 2 ^ d, ?_⟩
      rw [show j = d + t by omega, two_zpow_natCast_add]
      push_cast
      field_simp
    · refine ⟨2 ^ 52, ?_⟩
      -- The grid is as coarse as that only from the greatest such number on.
      have hbelow := ht.below (hj.trans_lt hjt)
      have habove : (k : ℚ) * 2 ^ j ≤ 2 ^ (52 + t) := calc
        (k : ℚ) * 2 ^ j ≤ 2 ^ 53 * 2 ^ j := by gcongr; exact_mod_cast hk
        _ = 2 ^ (53 + j) := (two_zpow_ofNat_add 53 j).symm
        _ ≤ 2 ^ (52 + t) := zpow_le_zpow_right₀ one_le_two (by omega)
      rw [le_antisymm habove hbelow, two_zpow_ofNat_add]
      field_simp
      norm_num
  obtain ⟨i, hi⟩ := hwhole
  obtain rfl := (hi ▸ hn).unique (.natCast i)
  rw [← hi]
  field_simp

/-- A double is rounded to itself. -/
theorem of_canonical {m : Nat} {e : Int} (h : Canonical m e) (s : Sign) :
    Rounds (m * 2 ^ e) s (.finite s m e h.pos) := by
  refine ⟨e, m, .of_canonical h, ?_, ?_⟩
  · rw [mul_div_cancel_right₀ _ (by positivity)]
    exact .natCast m
  · rw [multiple, dif_neg h.pos.ne', if_pos h.lt]

/-- What is rounded has the form of a double. -/
theorem canonical (hu : Rounds q s u) :
    u = .zero s ∨ ∃ m e, ∃ h : Canonical m e, u = .finite s m e h.pos := by
  obtain ⟨t, n, ht, hn, rfl⟩ := hu
  have hle := hn.le_of_grid ht
  rw [multiple]
  split_ifs with hzero hlt
  · exact .inl rfl
  · refine .inr ⟨n, t, ⟨Nat.pos_of_ne_zero hzero, hlt, ht.least, fun hfine => ?_⟩, rfl⟩
    have hfull : (2 ^ 52 : ℕ) ≤ q / 2 ^ t := by
      rw [le_div_iff₀ (by positivity)]
      exact_mod_cast two_zpow_ofNat_add 52 t ▸ ht.below hfine
    exact (Nearest.natCast (2 ^ 52)).mono hn hfull
  · have hleast := ht.least
    exact .inr ⟨2 ^ 52, t + 1, ⟨by decide, by decide, by omega, fun _ => le_rfl⟩, rfl⟩

/-- A size below `2 ^ 1024` is packed without loss. -/
theorem unpack_pack (hu : Rounds q s u) (h : size u < 2 ^ (1024 : Int)) :
    (Float.Model.pack u).unpack = u := by
  rcases hu.canonical with rfl | ⟨m, e, hm, rfl⟩
  · exact unpack_pack_zero s
  · refine Decimal.unpack_pack s hm.pos hm ?_
    by_contra hgreat
    have hfull : (2 : ℚ) ^ 52 ≤ m := by exact_mod_cast hm.full (by omega)
    have hsize : (2 : ℚ) ^ (1024 : Int) ≤ m * 2 ^ e := calc
      (2 : ℚ) ^ (1024 : Int) ≤ 2 ^ (52 + e) := zpow_le_zpow_right₀ one_le_two (by omega)
      _ = 2 ^ 52 * 2 ^ e := two_zpow_ofNat_add 52 e
      _ ≤ m * 2 ^ e := by gcongr
    exact absurd h (not_lt.2 hsize)

/-- A size from `2 ^ 1024` on is packed as infinity. -/
theorem unpack_pack_of_great (hu : Rounds q s u) (h : 2 ^ (1024 : Int) ≤ size u) :
    (Float.Model.pack u).unpack = .infinity s := by
  rcases hu.canonical with rfl | ⟨m, e, hm, rfl⟩
  · exact absurd h (not_le.2 (by rw [size]; positivity))
  · refine Decimal.unpack_pack_of_great s hm.pos ?_
    by_contra hsmall
    have hsize : (m : ℚ) * 2 ^ e < 2 ^ (1024 : Int) := calc
      (m : ℚ) * 2 ^ e < 2 ^ 53 * 2 ^ e := by gcongr; exact_mod_cast hm.lt
      _ = 2 ^ (53 + e) := (two_zpow_ofNat_add 53 e).symm
      _ ≤ 2 ^ (1024 : Int) := zpow_le_zpow_right₀ one_le_two (by omega)
    exact absurd h (not_le.2 hsize)

end Rounds

end Pulse.Decimal
