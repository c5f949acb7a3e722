import Pulse.Json.Number
import Pulse.Proofs.Decimal.Nearest

/-!
# Operations that round to the nearest double

Conversions, products and quotients of positive doubles are the nearest doubles to what they stand
for.
-/

set_option autoImplicit false

namespace Pulse.Decimal

open Float.Model
open Float.Model.UnpackedFloat

/-! ## Unpacked doubles -/

theorem le_log2_of_le {k n : Nat} (h : 2 ^ k ≤ n) : k ≤ n.log2 :=
  (Nat.le_log2 (Nat.ne_of_gt ((Nat.two_pow_pos k).trans_le h))).2 h

theorem rounds_mul {m₁ m₂ : Nat} {e₁ e₂ : Int} (h₁ : Canonical m₁ e₁) (h₂ : Canonical m₂ e₂)
    (s₁ s₂ : Sign) :
    Rounds (m₁ * 2 ^ e₁ * (m₂ * 2 ^ e₂)) (s₁ * s₂)
      (mul .binary64 (.finite s₁ m₁ e₁ h₁.pos) (.finite s₂ m₂ e₂ h₂.pos)) := by
  have hbits : e₁ + e₂ ≤ Format.binary64.targetExponent (totalExponent (m₁ * m₂) (e₁ + e₂)) := by
    have hleast₁ := h₁.least
    have hleast₂ := h₂.least
    rw [targetExponent_eq]
    by_cases hfull : -1074 < e₁ ∨ -1074 < e₂
    · have hlog : 52 ≤ (m₁ * m₂).log2 := by
        refine le_log2_of_le ?_
        rcases hfull with hfull | hfull
        · exact (h₁.full hfull).trans (Nat.le_mul_of_pos_right _ h₂.pos)
        · exact (h₂.full hfull).trans (Nat.le_mul_of_pos_left _ h₁.pos)
      omega
    · omega
  have hexact : Within ((m₁ : ℚ) * m₂) (m₁ * m₂) .exact := (Nat.cast_mul ..).symm
  have hvalue : (m₁ * 2 ^ e₁ * (m₂ * 2 ^ e₂) : ℚ) = m₁ * m₂ * 2 ^ (e₁ + e₂) := by
    rw [zpow_add₀ two_ne_zero]
    ring
  rw [hvalue]
  exact rounds_roundWithAccuracy hexact hbits (s₁ * s₂)

theorem within_div (m : Nat) {d : Nat} (hd : 0 < d) :
    Within ((m : ℚ) / d) (m / d) (accuracyOfFraction (m % d) d) := by
  have hd' : (0 : ℚ) < d := by exact_mod_cast hd
  have hm : (m : ℚ) = d * (m / d : Nat) + (m % d : Nat) := by
    exact_mod_cast (Nat.div_add_mod m d).symm
  have hx : (m : ℚ) / d = (m / d : Nat) + (m % d : Nat) / d := by
    rw [hm]
    field_simp
  have hone : ((m % d : Nat) : ℚ) / d < 1 := by
    rw [div_lt_one hd']
    exact_mod_cast Nat.mod_lt m hd
  rw [accuracyOfFraction]
  split_ifs with hzero
  · rw [Within, hx, hzero, Nat.cast_zero, zero_div, add_zero]
  · have hpos : (0 : ℚ) < (m % d : Nat) / d := by
      have : 0 < m % d := Nat.pos_of_ne_zero hzero
      positivity
    rw [hx]
    rcases hcmp : compare (2 * (m % d)) d with _ | _ | _
    · have hlt : (2 * (m % d : Nat) : ℚ) < d := by exact_mod_cast Nat.compare_eq_lt.1 hcmp
      have hhalf : ((m % d : Nat) : ℚ) / d < 1 / 2 := by
        rw [div_lt_iff₀ hd']
        linarith
      exact ⟨by linarith, by linarith⟩
    · have heq : (2 * (m % d : Nat) : ℚ) = d := by exact_mod_cast Nat.compare_eq_eq.1 hcmp
      have hhalf : ((m % d : Nat) : ℚ) / d = 1 / 2 := by
        rw [div_eq_iff hd'.ne']
        linarith
      rw [Within, hhalf]
    · have hgt : (d : ℚ) < 2 * (m % d : Nat) := by exact_mod_cast Nat.compare_eq_gt.1 hcmp
      have hhalf : 1 / 2 < ((m % d : Nat) : ℚ) / d := by
        rw [lt_div_iff₀ hd']
        linarith
      exact ⟨by linarith, by linarith⟩

/-- A quotient is computed with enough bits. -/
theorem le_targetExponent_divCore {m₁ m₂ : Nat} (h₁ : 0 < m₁) (h₂ : 0 < m₂) {e₁ e₂ t : Int}
    (ht : t = min (e₁ - e₂) (Format.binary64.targetExponent
      (totalExponent m₁ e₁ - totalExponent m₂ e₂))) :
    t ≤ Format.binary64.targetExponent
      (totalExponent (m₁ <<< (e₁ - e₂ - t).toNat / m₂) t) := by
  have htarget : Format.binary64.targetExponent (totalExponent m₁ e₁ - totalExponent m₂ e₂) =
      max ((m₁.log2 : Int) + e₁ - (m₂.log2 + e₂) - 53) (-1074) := by
    show max (((m₁.log2 : Int) + 1 + e₁ - (m₂.log2 + 1 + e₂)) - (53 : Nat)) (-1074) = _
    omega
  rw [htarget] at ht
  rw [targetExponent_eq]
  by_cases hfine : t ≤ -1074
  · omega
  · have hquotient : 52 ≤ (m₁ <<< (e₁ - e₂ - t).toNat / m₂).log2 := by
      refine le_log2_of_le ((Nat.le_div_iff_mul_le h₂).2 ?_)
      obtain ⟨k, hk⟩ : ∃ k, (e₁ - e₂ - t).toNat = k := ⟨_, rfl⟩
      have hlog : 52 + (m₂.log2 + 1) ≤ m₁.log2 + k := by omega
      rw [hk, Nat.shiftLeft_eq]
      calc 2 ^ 52 * m₂ ≤ 2 ^ 52 * 2 ^ (m₂.log2 + 1) := by gcongr; exact Nat.lt_log2_self.le
        _ = 2 ^ (52 + (m₂.log2 + 1)) := (pow_add ..).symm
        _ ≤ 2 ^ (m₁.log2 + k) := Nat.pow_le_pow_right (by decide) hlog
        _ = 2 ^ m₁.log2 * 2 ^ k := pow_add ..
        _ ≤ m₁ * 2 ^ k := by gcongr; exact Nat.log2_self_le h₁.ne'
    omega

theorem rounds_div {m₁ m₂ : Nat} {e₁ e₂ : Int} (h₁ : 0 < m₁) (h₂ : 0 < m₂) (s₁ s₂ : Sign) :
    Rounds (m₁ * 2 ^ e₁ / (m₂ * 2 ^ e₂)) (s₁ / s₂)
      (div .binary64 (.finite s₁ m₁ e₁ h₁) (.finite s₂ m₂ e₂ h₂)) := by
  obtain ⟨t, ht⟩ : ∃ t, t = min (e₁ - e₂) (Format.binary64.targetExponent
      (totalExponent m₁ e₁ - totalExponent m₂ e₂)) := ⟨_, rfl⟩
  have hbits := le_targetExponent_divCore h₁ h₂ ht
  obtain ⟨k, hk⟩ : ∃ k : Nat, e₁ - e₂ - t = k := Int.eq_ofNat_of_zero_le (by omega)
  have hvalue : (m₁ * 2 ^ e₁ / (m₂ * 2 ^ e₂) : ℚ) =
      (m₁ <<< (e₁ - e₂ - t).toNat : Nat) / m₂ * 2 ^ t := by
    have he₁ : e₁ = k + e₂ + t := by omega
    rw [hk, Int.toNat_natCast, Nat.shiftLeft_eq, he₁, zpow_add₀ two_ne_zero, zpow_add₀ two_ne_zero,
      zpow_natCast]
    push_cast
    field_simp
  rw [hvalue, UnpackedFloat.div, divCore, ← ht]
  exact rounds_roundWithAccuracy (within_div (m₁ <<< (e₁ - e₂ - t).toNat) h₂) hbits (s₁ / s₂)

theorem log2_shiftLeft {n : Nat} (h : 0 < n) (k : Nat) : (n <<< k).log2 = n.log2 + k := by
  have hlow := Nat.log2_self_le h.ne'
  have hhigh := Nat.lt_log2_self (n := n)
  rw [Nat.shiftLeft_eq, Nat.log2_eq_iff (by positivity)]
  constructor
  · rw [pow_add]
    gcongr
  · rw [Nat.add_right_comm, pow_add]
    gcongr

/-- A whole number is converted to the nearest double. -/
theorem rounds_ofNat {n : Nat} (h : 0 < n) : Rounds n .positive (.ofNat .binary64 n) := by
  have htarget := targetExponent_eq n 0
  obtain ⟨t, ht⟩ : ∃ t, Format.binary64.targetExponent (totalExponent n 0) = t := ⟨_, rfl⟩
  rw [ht] at htarget
  obtain ⟨k, hk⟩ : ∃ k, (0 - t).toNat = k := ⟨_, rfl⟩
  have hbits : (0 - k : Int) ≤
      Format.binary64.targetExponent (totalExponent (n <<< k) (0 - k : Int)) := by
    rw [targetExponent_eq, log2_shiftLeft h]
    omega
  have hexact : Within ((n <<< k : Nat) : ℚ) (n <<< k) .exact := rfl
  have hvalue : (n : ℚ) = (n <<< k : Nat) * 2 ^ (0 - k : Int) := by
    rw [Nat.shiftLeft_eq, zero_sub, zpow_neg, zpow_natCast]
    push_cast
    field_simp
  rw [hvalue, UnpackedFloat.ofNat, UnpackedFloat.ofInt, UnpackedFloat.normalize]
  rw [Int.compare_eq_gt.2 (by omega)]
  simp only [UnpackedFloat.round, Int.toNat_natCast, ht, decreaseExponent, hk]
  exact rounds_roundWithAccuracy hexact hbits .positive

/-- A whole number times a power of ten is converted to the nearest double. -/
theorem rounds_ofScientific {n e : Nat} (h : 0 < n) (he : e ≤ 2048) :
    Rounds (n * 10 ^ e) .positive (.ofScientific .binary64 n e) := by
  have hbits : (-53 + 0 : Int) ≤ Format.binary64.targetExponent
      (totalExponent (n <<< 53 * 10 ^ e) (-53 + 0)) := by
    have hlog : 53 ≤ (n <<< 53 * 10 ^ e).log2 := by
      refine le_log2_of_le ?_
      rw [Nat.shiftLeft_eq]
      exact (Nat.le_mul_of_pos_left _ h).trans (Nat.le_mul_of_pos_right _ (by positivity))
    rw [targetExponent_eq]
    omega
  have hexact : Within ((n <<< 53 * 10 ^ e : Nat) : ℚ) (n <<< 53 * 10 ^ e) .exact := rfl
  have hvalue : (n * 10 ^ e : ℚ) = (n <<< 53 * 10 ^ e : Nat) * 2 ^ (-53 + 0 : Int) := by
    rw [Nat.shiftLeft_eq, add_zero, zpow_neg]
    push_cast
    norm_num
    ring
  rw [hvalue, UnpackedFloat.ofScientific, dif_neg h.ne', if_neg (by norm_num; omega),
    if_neg (by norm_num; omega), if_pos (by omega)]
  exact rounds_roundWithAccuracy hexact hbits .positive

/-! ## Doubles -/

/-- The size of a double. -/
def value (x : Float) : ℚ :=
  size x.toModel.unpack

/-- `x` is the double nearest to `q`, and not negative. -/
def IsNearest (x : Float) (q : ℚ) : Prop :=
  Rounds q .positive x.toModel.unpack

/-- The greatest double. -/
def greatest : ℚ :=
  (2 ^ 53 - 1 : Nat) * 2 ^ (971 : Int)

theorem greatest_lt : greatest < 2 ^ (1024 : Int) := calc
  greatest < 2 ^ 53 * 2 ^ (971 : Int) := by
    rw [greatest]
    gcongr
    norm_num
  _ = 2 ^ (1024 : Int) := (two_zpow_ofNat_add 53 971).symm

theorem Rounds.size_le_greatest {q : ℚ} {s : Sign} {u : UnpackedFloat} (h : Rounds q s u)
    (hq : q ≤ greatest) : size u ≤ greatest :=
  h.mono (.of_canonical ⟨by decide, by decide, by decide, fun _ => by decide⟩ s) hq

theorem value_le_greatest (x : Float) : value x ≤ greatest := by
  rw [value]
  cases h : x.toModel.unpack with
  | finite s m e hpos =>
    obtain ⟨hm, he⟩ := canonical_unpack h
    rw [size, greatest]
    gcongr
    · exact Nat.le_sub_one_of_lt hm.lt
    · exact one_le_two
  | _ =>
    rw [size, greatest]
    positivity

/-- A double that holds what was rounded, if that is not too great. -/
theorem isNearest_ofModel {q : ℚ} {u : UnpackedFloat} (h : Rounds q .positive u)
    (hlt : size u < 2 ^ (1024 : Int)) : IsNearest (.ofModel (Float.Model.pack u)) q := by
  rw [IsNearest]
  exact (h.unpack_pack hlt).symm ▸ h

theorem isInf_ofModel_iff {q : ℚ} {s : Sign} {u : UnpackedFloat} (h : Rounds q s u) :
    (Float.ofModel (Float.Model.pack u)).isInf = true ↔ 2 ^ (1024 : Int) ≤ size u := by
  show (Float.Model.pack u).unpack.isInf = true ↔ _
  rcases lt_or_ge (size u) (2 ^ (1024 : Int)) with hlt | hge
  · rw [h.unpack_pack hlt]
    rcases h.canonical with rfl | ⟨m, e, hm, rfl⟩
    · exact iff_of_false Bool.false_ne_true (not_le.2 hlt)
    · exact iff_of_false Bool.false_ne_true (not_le.2 hlt)
  · rw [h.unpack_pack_of_great hge]
    exact iff_of_true rfl hge

namespace IsNearest

variable {x y : Float} {q r : ℚ}

theorem exists_finite (h : IsNearest x q) (hpos : 0 < value x) :
    ∃ m e, ∃ hm : Canonical m e, x.toModel.unpack = .finite .positive m e hm.pos := by
  rcases h.canonical with hzero | hfinite
  · rw [value, hzero, size] at hpos
    exact absurd hpos (lt_irrefl 0)
  · exact hfinite

/-- The product before it is packed. -/
theorem rounds_mul (hx : IsNearest x q) (hy : IsNearest y r) (hxpos : 0 < value x)
    (hypos : 0 < value y) :
    Rounds (value x * value y) .positive
      (mul .binary64 x.toModel.unpack y.toModel.unpack) := by
  obtain ⟨m, e, hm, hxu⟩ := hx.exists_finite hxpos
  obtain ⟨n, f, hn, hyu⟩ := hy.exists_finite hypos
  rw [value, value, hxu, hyu]
  exact Decimal.rounds_mul hm hn .positive .positive

/-- **The product of doubles** is the nearest one, if it is not too great. -/
theorem mul (hx : IsNearest x q) (hy : IsNearest y r) (hxpos : 0 < value x) (hypos : 0 < value y)
    (hlt : ¬ (x * y).isInf = true) : IsNearest (x * y) (value x * value y) :=
  have hrounds := hx.rounds_mul hy hxpos hypos
  isNearest_ofModel hrounds (not_le.1 fun hge => hlt ((isInf_ofModel_iff hrounds).2 hge))

/-- A product is no infinity if a product of greater doubles is none. -/
theorem isInf_mul_of_le {x' y' : Float} {q' r' : ℚ} (hx : IsNearest x q) (hx' : IsNearest x' q')
    (hy : IsNearest y r) (hy' : IsNearest y' r') (hxpos : 0 < value x) (hypos : 0 < value y)
    (hxle : value x ≤ value x') (hyle : value y ≤ value y') (hfinite : ¬ (x' * y').isInf = true) :
    ¬ (x * y).isInf = true := by
  have hrounds := hx.rounds_mul hy hxpos hypos
  have hrounds' := hx'.rounds_mul hy' (hxpos.trans_le hxle) (hypos.trans_le hyle)
  have hmono := hrounds.mono hrounds' (mul_le_mul hxle hyle hypos.le (hxpos.le.trans hxle))
  exact fun hinf => hfinite ((isInf_ofModel_iff hrounds').2
    (((isInf_ofModel_iff hrounds).1 hinf).trans hmono))

/-- **The quotient of doubles** is the nearest one, if it is no greater than the dividend. -/
theorem div (hx : IsNearest x q) (hy : IsNearest y r) (hxpos : 0 < value x) (hone : 1 ≤ value y) :
    IsNearest (x / y) (value x / value y) := by
  obtain ⟨m, e, hm, hxu⟩ := hx.exists_finite hxpos
  obtain ⟨n, f, hn, hyu⟩ := hy.exists_finite (one_pos.trans_le hone)
  have hrounds : Rounds (value x / value y) .positive
      (UnpackedFloat.div .binary64 x.toModel.unpack y.toModel.unpack) := by
    rw [value, value, hxu, hyu]
    exact Decimal.rounds_div hm.pos hn.pos .positive .positive
  have hle : value x / value y ≤ value x := div_le_self hxpos.le hone
  refine isNearest_ofModel hrounds ?_
  exact (hrounds.size_le_greatest (hle.trans (value_le_greatest x))).trans_lt greatest_lt

end IsNearest

/-! ## Conversions -/

theorem isNearest_one : IsNearest Float.exactlyRepresentablePowersOfTen[0] 1 := by
  have hunpack : Float.exactlyRepresentablePowersOfTen[0].toModel.unpack =
      .finite .positive (2 ^ 52) (-52) (by decide) := by
    rfl
  have := Rounds.of_canonical (m := 2 ^ 52) (e := -52)
    ⟨by decide, by decide, by decide, fun _ => by decide⟩ .positive
  rw [IsNearest, hunpack]
  convert this using 1
  norm_num

/-- Whole numbers of up to 53 bits are doubles. -/
theorem IsNearest.value_eq {x : Float} {k : Nat} (h : IsNearest x k) (hk : k ≤ 2 ^ 53) :
    value x = k := by
  have hscaled : Rounds (k * 2 ^ (0 : Int)) .positive x.toModel.unpack := by
    rw [zpow_zero, mul_one]
    exact h
  rw [value, hscaled.size_eq hk (by decide), zpow_zero, mul_one]

theorem value_one : value Float.exactlyRepresentablePowersOfTen[0] = 1 := by
  have hone : IsNearest Float.exactlyRepresentablePowersOfTen[0] (1 : Nat) := by
    rw [Nat.cast_one]
    exact isNearest_one
  rw [hone.value_eq (by decide), Nat.cast_one]

/-- What is nearest to a number from one on is no less than one. -/
theorem IsNearest.one_le {x : Float} {q : ℚ} (h : IsNearest x q) (hq : 1 ≤ q) : 1 ≤ value x :=
  value_one ▸ isNearest_one.mono h hq

/-- Small powers of ten are read from a table, with the same result. -/
theorem powerOfTen_eq (e : Nat) :
    Json.powerOfTen e = .ofModel (Float.Model.ofScientific 1 e) := by
  rcases lt_or_ge e 23 with hlt | hge
  · have hall : ∀ e < 23, Json.powerOfTen e = .ofModel (Float.Model.ofScientific 1 e) := by
      decide +kernel
    exact hall e hlt
  · rw [Json.powerOfTen, Float.ofScientific, dif_neg (by omega)]
    rfl

/-- A power of ten within the doubles is converted to the nearest one. -/
theorem isNearest_powerOfTen {e : Nat} (he : e ≤ 308) : IsNearest (Json.powerOfTen e) (10 ^ e) := by
  have hrounds := rounds_ofScientific one_pos (e := e) (by omega)
  rw [Nat.cast_one, one_mul] at hrounds
  have hle : (10 ^ e : ℚ) ≤ greatest := by
    have hnat : 10 ^ 308 ≤ (2 ^ 53 - 1) * 2 ^ 971 := by decide +kernel
    calc (10 ^ e : ℚ) ≤ 10 ^ 308 := pow_le_pow_right₀ (by norm_num) he
      _ ≤ ((2 ^ 53 - 1 : Nat) * 2 ^ 971 : ℚ) := by exact_mod_cast hnat
      _ = greatest := rfl
  rw [powerOfTen_eq]
  exact isNearest_ofModel hrounds ((hrounds.size_le_greatest hle).trans_lt greatest_lt)

/-- A power of ten that is a double is converted to itself. -/
theorem value_powerOfTen {e : Nat} (he : e ≤ 22) : value (Json.powerOfTen e) = 10 ^ e := by
  have hpow : (10 ^ e : ℚ) = (5 ^ e : Nat) * 2 ^ (e : Int) := by
    rw [zpow_natCast]
    push_cast
    rw [← mul_pow]
    norm_num
  have hnearest := isNearest_powerOfTen (e := e) (by omega)
  rw [IsNearest, hpow] at hnearest
  have hfive : 5 ^ e ≤ 2 ^ 53 := (Nat.pow_le_pow_right (by decide) he).trans (by decide)
  rw [value, hnearest.size_eq hfive (by omega), ← hpow]

/-- A whole number of 64 bits is converted to the nearest double. -/
theorem isNearest_ofWhole {n : Nat} (h : 0 < n) (hn : n ≤ Json.wordMax) :
    IsNearest (Json.ofWhole n) n := by
  have hone : (1 : ℚ) ≤ n := by exact_mod_cast h
  have hle : (n : ℚ) ≤ greatest := by
    have hmax : Json.wordMax ≤ (2 ^ 53 - 1) * 2 ^ 971 := by decide +kernel
    calc (n : ℚ) ≤ ((2 ^ 53 - 1 : Nat) * 2 ^ 971 : ℚ) := by exact_mod_cast hn.trans hmax
      _ = greatest := rfl
  rw [Json.ofWhole, Float.ofScientific]
  by_cases hsmall : n < 2 ^ 53 ∧ 0 ≤ 22
  · -- A small number is converted without loss and multiplied by one.
    have hrounds := rounds_ofNat h
    have hword : n.toUInt64.toNat = n := by
      show n % 2 ^ 64 = n
      omega
    have hconvert : IsNearest n.toUInt64.toFloat n := by
      show IsNearest (.ofModel (Float.Model.pack (.ofNat .binary64 n.toUInt64.toNat))) n
      rw [hword]
      exact isNearest_ofModel hrounds ((hrounds.size_le_greatest hle).trans_lt greatest_lt)
    have hvalue := hconvert.value_eq hsmall.1.le
    have hpos : 0 < value n.toUInt64.toFloat := by
      rw [hvalue]
      linarith
    rw [dif_pos hsmall, if_neg Bool.false_ne_true]
    have hproduct := hconvert.rounds_mul isNearest_one hpos (by rw [value_one]; exact one_pos)
    rw [hvalue, value_one, mul_one] at hproduct
    exact isNearest_ofModel hproduct ((hproduct.size_le_greatest hle).trans_lt greatest_lt)
  · have hrounds := rounds_ofScientific h (e := 0) (by decide)
    rw [pow_zero, mul_one] at hrounds
    rw [dif_neg hsmall, if_neg Bool.false_ne_true]
    exact isNearest_ofModel hrounds ((hrounds.size_le_greatest hle).trans_lt greatest_lt)

end Pulse.Decimal
