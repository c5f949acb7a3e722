import Pulse.Proofs.Decimal.Nearest

/-!
# The shortest name reads back

A decimal that `readsAs` a double rounds to it (`Binary.Holds.rounds`).  The search finds one with
at most seventeen digits, because on that grid the next decimal above or below the double is nearer
than half the way to the next double (`Binary.onGrid_isSome`), so that `Binary.shortest` always
reads back: `Binary.holds_shortest`.
-/

set_option autoImplicit false

namespace Pulse.Decimal

open Float.Model
open Float.Model.UnpackedFloat

/-! ## Exact values -/

/-- The number that the digits name. -/
def Digits.value (d : Digits) : ℚ :=
  d.coefficient * 10 ^ d.exponent

/-- The size of the double. -/
def Binary.value (b : Binary) : ℚ :=
  b.mantissa * 2 ^ b.exponent

/-- The form in which the size of a double is read off its bits. -/
structure Binary.IsDouble (b : Binary) : Prop where
  canonical : Canonical b.mantissa b.exponent
  exponent_le : b.exponent ≤ 971
  narrow : b.narrowBelow = (b.mantissa = 2 ^ 52 && -1074 < b.exponent)

/-- The sign of a double. -/
def signBit (x : Float) : Sign :=
  if isNegative x then .negative else .positive

theorem signOf_unpack (x : Float) : signOf x.toModel.unpack = signBit x := by
  rw [signBit]
  split_ifs with hneg
  · cases h : signOf x.toModel.unpack with
    | negative => rfl
    | positive => exact absurd (isNegative_eq_false_iff.2 h) (by simp [hneg])
  · exact isNegative_eq_false_iff.1 (Bool.not_eq_true _ ▸ hneg)

theorem unpack_of_magnitude {x : Float} {b : Binary} (h : magnitude x = .finite b) :
    b.IsDouble ∧ ∃ hpos, x.toModel.unpack = .finite (signBit x) b.mantissa b.exponent hpos := by
  rw [magnitude_eq] at h
  have hsign := signOf_unpack x
  cases hx : x.toModel.unpack with
  | finite s m e hpos =>
    obtain ⟨hm, he⟩ := canonical_unpack hx
    rw [hx] at h hsign
    cases h
    exact ⟨⟨hm, he, rfl⟩, hpos, by rw [← hsign]; rfl⟩
  | _ =>
    rw [hx] at h
    cases h

/-! ## Comparisons -/

theorem zpow_mul_pow_toNat {a : ℚ} (ha : a ≠ 0) (g : Int) :
    a ^ g * a ^ (-g).toNat = a ^ g.toNat := by
  rw [← zpow_natCast, ← zpow_natCast, ← zpow_add₀ ha]
  congr 1
  omega

theorem compareScaled_eq (c : Nat) (g : Int) (n : Nat) (j : Int) :
    compareScaled c g n j = compare ((c : ℚ) * 10 ^ g) (n * 2 ^ j) := by
  obtain ⟨k, hk⟩ : ∃ k : ℚ, k = 10 ^ (-g).toNat * 2 ^ (-j).toNat := ⟨_, rfl⟩
  have hpos : 0 < k := by
    rw [hk]
    positivity
  have hleft : ((c * Nat.pow 10 g.toNat * Nat.pow 2 (-j).toNat : Nat) : ℚ) = c * 10 ^ g * k := by
    rw [hk, Nat.pow_eq, Nat.pow_eq]
    push_cast
    rw [← zpow_mul_pow_toNat (by norm_num) g]
    ring
  have hright : ((n * Nat.pow 2 j.toNat * Nat.pow 10 (-g).toNat : Nat) : ℚ) = n * 2 ^ j * k := by
    rw [hk, Nat.pow_eq, Nat.pow_eq]
    push_cast
    rw [← zpow_mul_pow_toNat (by norm_num) j]
    ring
  rw [compareScaled]
  rcases lt_trichotomy ((c : ℚ) * 10 ^ g) (n * 2 ^ j) with hlt | heq | hgt
  · rw [compare_lt_iff_lt.2 hlt, compare_lt_iff_lt, ← Nat.cast_lt (α := ℚ), hleft, hright]
    gcongr
  · rw [compare_eq_iff_eq.2 heq, compare_eq_iff_eq, ← Nat.cast_inj (R := ℚ), hleft, hright, heq]
  · rw [compare_gt_iff_gt.2 hgt, compare_gt_iff_gt, ← Nat.cast_lt (α := ℚ), hleft, hright]
    gcongr

/-! ## The numbers that round to a double -/

namespace Binary

/-- Half way to the double below. -/
def lower (b : Binary) : ℚ :=
  (b.mantissa - if b.narrowBelow then 1 / 4 else 1 / 2) * 2 ^ b.exponent

/-- Half way to the double above. -/
def upper (b : Binary) : ℚ :=
  (b.mantissa + 1 / 2) * 2 ^ b.exponent

/-- `q` is among the numbers that round to `b`. -/
structure Holds (b : Binary) (q : ℚ) : Prop where
  below : b.lower ≤ q
  above : q ≤ b.upper
  even_below : q = b.lower → b.mantissa % 2 = 0
  even_above : q = b.upper → b.mantissa % 2 = 0

theorem lower_lt_value (b : Binary) : b.lower < b.value := by
  rw [lower, value]
  gcongr
  split_ifs <;> linarith

theorem value_lt_upper (b : Binary) : b.value < b.upper := by
  rw [upper, value]
  gcongr
  linarith

theorem two_zpow_sub_two (e : Int) : (2 : ℚ) ^ (e - 2) = 2 ^ e / 4 := by
  rw [zpow_sub₀ two_ne_zero]
  norm_num

/-- The lower bound in quarters of a step. -/
theorem lower_quarters {b : Binary} (hpos : 0 < b.mantissa) :
    (((if b.narrowBelow then 4 * b.mantissa - 1 else 4 * b.mantissa - 2 : Nat)) : ℚ) *
      2 ^ (b.exponent - 2) = b.lower := by
  rw [two_zpow_sub_two, lower]
  split_ifs
  · rw [Nat.cast_sub (by omega)]
    push_cast
    ring
  · rw [Nat.cast_sub (by omega)]
    push_cast
    ring

theorem upper_quarters (b : Binary) :
    ((4 * b.mantissa + 2 : Nat) : ℚ) * 2 ^ (b.exponent - 2) = b.upper := by
  rw [two_zpow_sub_two, upper]
  push_cast
  ring

theorem readsAs_iff {b : Binary} (hpos : 0 < b.mantissa) (d : Digits) :
    b.readsAs d = true ↔ b.Holds d.value := by
  rw [readsAs]
  simp only [compareScaled_eq, lower_quarters hpos, upper_quarters]
  rw [← Digits.value]
  have hlt := b.lower_lt_value.trans b.value_lt_upper
  rcases lt_trichotomy d.value b.lower with hlow | hlow | hlow
  · rw [compare_lt_iff_lt.2 hlow]
    exact iff_of_false (by simp) fun h => absurd h.below (not_le.2 hlow)
  · rw [compare_eq_iff_eq.2 hlow, compare_lt_iff_lt.2 (hlow ▸ hlt)]
    simp only [Bool.and_true, decide_eq_true_eq]
    exact ⟨fun heven => ⟨hlow.ge, (hlow.trans_lt hlt).le, fun _ => heven, fun _ => heven⟩,
      fun h => h.even_below hlow⟩
  · rw [compare_gt_iff_gt.2 hlow, Bool.true_and]
    rcases lt_trichotomy d.value b.upper with hhigh | hhigh | hhigh
    · rw [compare_lt_iff_lt.2 hhigh]
      exact iff_of_true rfl
        ⟨hlow.le, hhigh.le, fun h => absurd h hlow.ne', fun h => absurd h hhigh.ne⟩
    · rw [compare_eq_iff_eq.2 hhigh]
      simp only [decide_eq_true_eq]
      exact ⟨fun heven => ⟨hlow.le, hhigh.le, fun _ => heven, fun _ => heven⟩,
        fun h => h.even_above hhigh⟩
    · rw [compare_gt_iff_gt.2 hhigh]
      exact iff_of_false (by simp) fun h => absurd h.above (not_le.2 hhigh)

/-- The numbers that round to a double are at most half a step of its grid below it. -/
theorem sub_half_le_lower (b : Binary) : ((b.mantissa : ℚ) - 1 / 2) * 2 ^ b.exponent ≤ b.lower := by
  rw [lower]
  gcongr
  split_ifs <;> norm_num

/-- What reads as a double and lies on its grid rounds to it. -/
theorem Holds.rounds_of_grid {b : Binary} (hb : b.IsDouble) {q : ℚ} (h : b.Holds q)
    (hgrid : -1074 < b.exponent → 2 ^ (52 + b.exponent) ≤ q) (s : Sign) :
    Rounds q s (.finite s b.mantissa b.exponent hb.canonical.pos) := by
  have hc := hb.canonical
  have hpow : (0 : ℚ) < 2 ^ b.exponent := by positivity
  have hmax : (b.mantissa : ℚ) + 1 ≤ 2 ^ 53 := by exact_mod_cast hc.lt
  refine ⟨b.exponent, b.mantissa, ⟨hc.least, ?_, hgrid⟩, ⟨?_, ?_, fun heq => ?_, fun heq => ?_⟩, ?_⟩
  · refine h.above.trans_lt ?_
    rw [upper, two_zpow_ofNat_add]
    exact mul_lt_mul_of_pos_right (by linarith) hpow
  · rw [le_div_iff₀ hpow]
    exact b.sub_half_le_lower.trans h.below
  · rw [div_le_iff₀ hpow]
    exact h.above
  · refine h.even_below (le_antisymm ?_ h.below)
    rw [(div_eq_iff hpow.ne').1 heq]
    exact b.sub_half_le_lower
  · exact h.even_above ((div_eq_iff hpow.ne').1 heq)
  · rw [multiple, dif_neg hc.pos.ne', if_pos hc.lt]

/-- What reads as a double and lies below its grid is next to a power of two. -/
theorem Holds.mantissa_eq {b : Binary} (hb : b.IsDouble) {q : ℚ} (h : b.Holds q)
    (hfine : -1074 < b.exponent) (hlt : q < 2 ^ (52 + b.exponent)) : b.mantissa = 2 ^ 52 := by
  have hlow := (b.sub_half_le_lower.trans h.below).trans_lt hlt
  rw [two_zpow_ofNat_add] at hlow
  have hlow := lt_of_mul_lt_mul_right hlow (by positivity)
  have hsucc : (b.mantissa : ℚ) < (2 ^ 52 + 1 : Nat) := by
    push_cast
    linarith
  have := Nat.cast_lt.1 hsucc
  have := hb.canonical.full hfine
  omega

/-- What reads as a double and lies below its grid rounds to it on the finer grid. -/
theorem Holds.rounds_of_lt {b : Binary} (hb : b.IsDouble) {q : ℚ} (h : b.Holds q)
    (hfine : -1074 < b.exponent) (hlt : q < 2 ^ (52 + b.exponent)) (s : Sign) :
    Rounds q s (.finite s b.mantissa b.exponent hb.canonical.pos) := by
  have hhalf : (0 : ℚ) < 2 ^ (b.exponent - 1) := by positivity
  have hdouble : (2 : ℚ) ^ b.exponent = 2 * 2 ^ (b.exponent - 1) := by
    rw [zpow_sub₀ two_ne_zero]
    norm_num
    ring
  have hcoarse : (2 : ℚ) ^ (52 + b.exponent) = 2 ^ 53 * 2 ^ (b.exponent - 1) := by
    rw [two_zpow_ofNat_add, hdouble]
    norm_num
    ring
  have hleast := h.mantissa_eq hb hfine hlt
  have hlower : b.lower = (2 ^ 53 - 1 / 2) * 2 ^ (b.exponent - 1) := by
    rw [lower, hb.narrow, hleast, hdouble]
    simp only [hfine, decide_true, Bool.and_self, if_true]
    push_cast
    ring
  have hbelow := h.below
  rw [hlower] at hbelow
  rw [hcoarse] at hlt
  refine ⟨b.exponent - 1, 2 ^ 53, ⟨by omega, ?_, fun _ => ?_⟩,
    ⟨?_, ?_, fun _ => rfl, fun _ => rfl⟩, ?_⟩
  · rwa [two_zpow_ofNat_add]
  · rw [two_zpow_ofNat_add]
    refine le_trans ?_ hbelow
    gcongr
    norm_num
  · rw [le_div_iff₀ hhalf]
    exact_mod_cast hbelow
  · rw [div_le_iff₀ hhalf]
    refine hlt.le.trans ?_
    gcongr
    norm_num
  · rw [multiple, dif_neg (by decide), if_neg (lt_irrefl _)]
    exact finite_congr s hleast (by omega)

/-- **What reads as a double rounds to it.** -/
theorem Holds.rounds {b : Binary} (hb : b.IsDouble) {q : ℚ} (h : b.Holds q) (s : Sign) :
    Rounds q s (.finite s b.mantissa b.exponent hb.canonical.pos) := by
  by_cases hgrid : -1074 < b.exponent → 2 ^ (52 + b.exponent) ≤ q
  · exact h.rounds_of_grid hb hgrid s
  · obtain ⟨hfine, hlt⟩ := Classical.not_imp.1 hgrid
    exact h.rounds_of_lt hb hfine (not_le.1 hlt) s

end Binary

/-! ## Where the first digit stands -/

theorem countDigits_zero (fuel : Nat) : countDigits fuel 0 = 0 := by
  cases fuel <;> rfl

theorem countDigits_spec {fuel n : Nat} (h : n < 2 ^ fuel) (hpos : 0 < n) :
    ∃ k, countDigits fuel n = k + 1 ∧ 10 ^ k ≤ n ∧ n < 10 ^ (k + 1) := by
  induction fuel generalizing n with
  | zero => simp at h; omega
  | succ fuel ih =>
    rw [countDigits, if_neg hpos.ne']
    rcases Nat.eq_zero_or_pos (n / 10) with hlast | hmore
    · rw [hlast, countDigits_zero]
      exact ⟨0, rfl, hpos, by omega⟩
    · obtain ⟨k, hk, hlow, hhigh⟩ := ih (by rw [pow_succ] at h; omega) hmore
      refine ⟨k + 1, by rw [hk], ?_, ?_⟩
      · rw [pow_succ]
        omega
      · rw [pow_succ]
        omega

/-- The number of digits is the least power of ten that is greater. -/
theorem width_spec {n : Nat} (h : 0 < n) :
    ∃ k, width n = k + 1 ∧ 10 ^ k ≤ n ∧ n < 10 ^ (k + 1) :=
  countDigits_spec Nat.lt_log2_self h

namespace Binary

/-- The numerator of the size. -/
def num (b : Binary) : Nat :=
  b.mantissa * 2 ^ b.exponent.toNat

/-- The denominator of the size. -/
def den (b : Binary) : Nat :=
  2 ^ (-b.exponent).toNat

theorem den_pos (b : Binary) : 0 < b.den :=
  Nat.two_pow_pos _

theorem value_eq_div (b : Binary) : b.value = b.num / b.den := by
  rw [value, num, den, eq_div_iff (by positivity)]
  push_cast
  rw [mul_assoc, zpow_mul_pow_toNat two_ne_zero]

/-- The scale is the number of digits before the point, or minus the number of zeros behind it. -/
theorem scale_spec {b : Binary} (h : 0 < b.mantissa) :
    (10 : ℚ) ^ (b.scale - 1) ≤ b.value ∧ b.value < 10 ^ b.scale := by
  have hnum : 0 < b.num := Nat.mul_pos h (Nat.two_pow_pos _)
  have hden := b.den_pos
  have hscale : b.scale = if b.den ≤ b.num then (width (b.num / b.den) : Int)
      else 1 - (width ((b.den - 1) / b.num) : Int) := rfl
  rw [hscale, value_eq_div]
  have hden' : (0 : ℚ) < b.den := by exact_mod_cast hden
  have hnum' : (0 : ℚ) < b.num := by exact_mod_cast hnum
  split_ifs with hle
  · obtain ⟨k, hk, hlow, hhigh⟩ := width_spec (Nat.div_pos hle hden)
    rw [Nat.le_div_iff_mul_le hden] at hlow
    rw [Nat.div_lt_iff_lt_mul hden] at hhigh
    rw [hk, Nat.cast_succ, add_sub_cancel_right, ← Nat.cast_succ, zpow_natCast, zpow_natCast,
      le_div_iff₀ hden', div_lt_iff₀ hden']
    exact ⟨by exact_mod_cast hlow, by exact_mod_cast hhigh⟩
  · obtain ⟨k, hk, hlow, hhigh⟩ := width_spec (Nat.div_pos (by omega : b.num ≤ b.den - 1) hnum)
    rw [Nat.le_div_iff_mul_le hnum] at hlow
    rw [Nat.div_lt_iff_lt_mul hnum] at hhigh
    have hlow' : b.num * 10 ^ k < 1 * b.den := by
      rw [mul_comm]
      omega
    have hhigh' : 1 * b.den ≤ b.num * 10 ^ (k + 1) := by
      rw [mul_comm b.num]
      omega
    rw [hk, show (1 : Int) - (k + 1 : Nat) - 1 = -(k + 1 : Nat) by omega,
      show (1 : Int) - (k + 1 : Nat) = -(k : Nat) by omega, zpow_neg, zpow_neg, zpow_natCast,
      zpow_natCast, ← one_div, ← one_div, div_le_div_iff₀ (by positivity) hden',
      div_lt_div_iff₀ hden' (by positivity)]
    exact ⟨by exact_mod_cast hhigh', by exact_mod_cast hlow'⟩

/-! ## The grids -/

/-- The greatest decimal on a grid that is not above the double. -/
theorem floorOn_spec (b : Binary) (g : Int) :
    b.floorOn g * 10 ^ g ≤ b.value ∧ b.value < (b.floorOn g + 1) * 10 ^ g := by
  have hfloor : b.floorOn g = b.num * 10 ^ (-g).toNat / (b.den * 10 ^ g.toNat) := rfl
  have hden : 0 < b.den * 10 ^ g.toNat := Nat.mul_pos b.den_pos (Nat.pow_pos (by decide))
  have hden' : (0 : ℚ) < b.den := by exact_mod_cast b.den_pos
  have hvalue : b.value = b.num * 10 ^ (-g).toNat / (b.den * 10 ^ g.toNat) * 10 ^ g := by
    rw [value_eq_div, ← zpow_mul_pow_toNat (by norm_num) g]
    field_simp
  have hlow : ((b.num * 10 ^ (-g).toNat / (b.den * 10 ^ g.toNat) : Nat) : ℚ) ≤
      b.num * 10 ^ (-g).toNat / (b.den * 10 ^ g.toNat) := by
    exact_mod_cast Nat.cast_div_le
  have hhigh : (b.num * 10 ^ (-g).toNat / (b.den * 10 ^ g.toNat) : ℚ) <
      ((b.num * 10 ^ (-g).toNat / (b.den * 10 ^ g.toNat) : Nat) : ℚ) + 1 := by
    rw [div_lt_iff₀ (by positivity)]
    exact_mod_cast Nat.lt_mul_of_div_lt (Nat.lt_succ_self _) hden
  rw [hvalue, hfloor]
  constructor <;> gcongr

theorem nearer_spec (b : Binary) (tie : Tie) (c : Nat) (g : Int) :
    b.nearer tie c g = c ∨ b.nearer tie c g = c + 1 := by
  unfold nearer
  split
  · exact .inr rfl
  · exact .inl rfl
  · cases tie with
    | upwards => exact .inr rfl
    | toEven => exact ite_eq_or_eq _ c (c + 1)

/-- On a grid only the neighbours of the double are tried. -/
theorem onGrid_spec {b : Binary} {tie : Tie} {g : Int} {d : Digits} (h : b.onGrid tie g = some d) :
    b.readsAs d = true ∧ d.exponent = g ∧ d.coefficient ≤ b.floorOn g + 1 := by
  unfold onGrid at h
  dsimp only at h
  split at h
  · next hlow hhigh =>
    cases h
    rcases b.nearer_spec tie (b.floorOn g) g with hnearer | hnearer
    · rw [hnearer]
      exact ⟨hlow, rfl, Nat.le_succ _⟩
    · rw [hnearer]
      exact ⟨hhigh, rfl, le_rfl⟩
  · next hlow _ =>
    cases h
    exact ⟨hlow, rfl, Nat.le_succ _⟩
  · next _ hhigh =>
    cases h
    exact ⟨hhigh, rfl, le_rfl⟩
  · cases h

/-- A grid that is finer than the steps between doubles holds a decimal that reads as the double. -/
theorem onGrid_isSome {b : Binary} (hb : b.IsDouble) (tie : Tie) {g : Int}
    (hg : (10 : ℚ) ^ g < b.upper - b.lower) : (b.onGrid tie g).isSome = true := by
  have hpos := hb.canonical.pos
  obtain ⟨hlow, hhigh⟩ := b.floorOn_spec g
  have hreads : b.readsAs ⟨b.floorOn g, g⟩ = true ∨ b.readsAs ⟨b.floorOn g + 1, g⟩ = true := by
    rw [readsAs_iff hpos, readsAs_iff hpos, Digits.value, Digits.value]
    push_cast
    have hlower := b.lower_lt_value
    have hupper := b.value_lt_upper
    rcases lt_or_ge b.lower (b.floorOn g * 10 ^ g) with hin | hout
    · exact .inl ⟨hin.le, by linarith, fun h => by linarith, fun h => by linarith⟩
    · refine .inr ⟨by linarith, by linarith, fun h => ?_, fun h => ?_⟩ <;> linarith
  unfold onGrid
  dsimp only
  rcases hreads with h | h
  · rw [h]
    cases b.readsAs ⟨b.floorOn g + 1, g⟩ <;> rfl
  · rw [h]
    cases b.readsAs ⟨b.floorOn g, g⟩ <;> rfl

/-- **Seventeen digits are enough.** -/
theorem onGrid_seventeen_isSome {b : Binary} (hb : b.IsDouble) (tie : Tie) :
    (b.onGrid tie (b.scale - 1 - Int.ofNat 16)).isSome = true := by
  refine onGrid_isSome hb tie ?_
  obtain ⟨hlow, -⟩ := scale_spec hb.canonical.pos
  have hmax : (b.mantissa : ℚ) < 2 ^ 53 := by exact_mod_cast hb.canonical.lt
  have hpow : (0 : ℚ) < 2 ^ b.exponent := by positivity
  have hgrid : (10 : ℚ) ^ (b.scale - 1 - Int.ofNat 16) = 10 ^ (b.scale - 1) / 10 ^ 16 := by
    rw [zpow_sub₀ (by norm_num)]
    rfl
  have hstep : b.upper - b.lower = (if b.narrowBelow then 3 / 4 else 1) * 2 ^ b.exponent := by
    rw [upper, lower]
    split_ifs <;> ring
  rw [hgrid, hstep, div_lt_iff₀ (by norm_num)]
  refine hlow.trans_lt ?_
  rw [value, mul_right_comm]
  refine mul_lt_mul_of_pos_right ?_ hpow
  split_ifs with hnarrow
  · have hleast : b.mantissa = 2 ^ 52 := by
      rw [hb.narrow, Bool.and_eq_true, decide_eq_true_eq] at hnarrow
      exact hnarrow.1
    rw [hleast]
    norm_num
  · linarith

theorem value_pos {b : Binary} (hb : b.IsDouble) : 0 < b.value := by
  have hpos : (0 : ℚ) < b.mantissa := by exact_mod_cast hb.canonical.pos
  rw [value]
  positivity

/-- The search finds a decimal that reads as the double and has at most seventeen digits. -/
theorem found_spec {b : Binary} (hb : b.IsDouble) (tie : Tie) :
    ∃ d, ((List.range 17).findSome? fun n => b.onGrid tie (b.scale - 1 - Int.ofNat n)) = some d ∧
      b.readsAs d = true ∧ d.coefficient ≤ 10 ^ 17 := by
  have hsome : ((List.range 17).findSome? fun n =>
      b.onGrid tie (b.scale - 1 - Int.ofNat n)).isSome = true := by
    rw [List.findSome?_isSome_iff]
    exact ⟨16, by decide, onGrid_seventeen_isSome hb tie⟩
  obtain ⟨d, hd⟩ := Option.isSome_iff_exists.1 hsome
  obtain ⟨n, hn, hgrid⟩ := List.exists_of_findSome?_eq_some hd
  obtain ⟨hreads, -, hle⟩ := onGrid_spec hgrid
  refine ⟨d, hd, hreads, hle.trans ?_⟩
  obtain ⟨hfloor, -⟩ := b.floorOn_spec (b.scale - 1 - Int.ofNat n)
  obtain ⟨-, hscale⟩ := scale_spec hb.canonical.pos
  have hlt := hfloor.trans_lt hscale
  have hn := List.mem_range.1 hn
  have hpow : (10 : ℚ) ^ b.scale = 10 ^ (n + 1) * 10 ^ (b.scale - 1 - Int.ofNat n) := by
    rw [← zpow_natCast, ← zpow_add₀ (by norm_num)]
    congr 1
    push_cast
    rw [Int.ofNat_eq_natCast]
    ring
  rw [hpow] at hlt
  have hfloor := lt_of_mul_lt_mul_right hlt (by positivity)
  have hnat : b.floorOn (b.scale - 1 - Int.ofNat n) < 10 ^ (n + 1) := by exact_mod_cast hfloor
  exact hnat.trans_le (Nat.pow_le_pow_right (by decide) (by omega))

end Binary

/-! ## The shortest name -/

theorem Digits.dropZeros_spec (fuel : Nat) (d : Digits) :
    (d.dropZeros fuel).value = d.value ∧ (d.dropZeros fuel).coefficient ≤ d.coefficient := by
  induction fuel generalizing d with
  | zero => exact ⟨rfl, le_rfl⟩
  | succ fuel ih =>
    rw [dropZeros]
    split_ifs with hzero
    · obtain ⟨hvalue, hle⟩ := ih ⟨d.coefficient / 10, d.exponent + 1⟩
      refine ⟨hvalue.trans ?_, hle.trans (Nat.div_le_self ..)⟩
      have hten : (d.coefficient : ℚ) = (d.coefficient / 10 : Nat) * 10 := by
        exact_mod_cast (Nat.div_mul_cancel (Nat.dvd_of_mod_eq_zero hzero.2)).symm
      rw [value, value, hten, zpow_add₀ (by norm_num)]
      ring
    · exact ⟨rfl, le_rfl⟩

namespace Binary

/-- **The shortest name reads back**, and it has at most seventeen digits. -/
theorem holds_shortest {b : Binary} (hb : b.IsDouble) (tie : Tie) :
    b.Holds (b.shortest tie).value ∧ (b.shortest tie).coefficient ≤ 10 ^ 17 := by
  obtain ⟨d, hd, hreads, hle⟩ := found_spec hb tie
  obtain ⟨hvalue, hcoefficient⟩ := d.dropZeros_spec 20
  have hshortest : b.shortest tie = d.dropZeros 20 := by
    rw [shortest, hd]
    rfl
  rw [hshortest, hvalue]
  exact ⟨(readsAs_iff hb.canonical.pos d).1 hreads, hcoefficient.trans hle⟩

theorem Holds.pos {b : Binary} (hb : b.IsDouble) {q : ℚ} (h : b.Holds q) : 0 < q := by
  have hone : (1 : ℚ) ≤ b.mantissa := by exact_mod_cast hb.canonical.pos
  refine lt_of_lt_of_le ?_ (b.sub_half_le_lower.trans h.below)
  have : (0 : ℚ) < b.mantissa - 1 / 2 := by linarith
  positivity

end Binary

end Pulse.Decimal
