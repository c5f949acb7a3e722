import Pulse.Proofs.Json.Reread

/-!
# How far a double is off when it is read back

Each operation of the cheap rule is off by a part in `2 ^ 53`, and there are at most five of them,
so that a double is read back up to a part in `2 ^ 49` (`abs_value_reread_sub_le`); below the normal
doubles a few of the least steps come on top.
-/

set_option autoImplicit false

namespace Pulse

open Decimal

namespace Decimal

/-- The relative error of rounding to the nearest double. -/
def unit : ℚ :=
  1 / 2 ^ 53

/-- The absolute error of rounding to the nearest double below the normal ones. -/
def least : ℚ :=
  2 ^ (-1075 : Int)

/-- Rounding is off by half a step of the grid. -/
theorem IsNearest.error {x : Float} {q : ℚ} (h : IsNearest x q) :
    |value x - q| ≤ unit * q ∨ |value x - q| ≤ least := by
  obtain ⟨t, n, ht, hn, hx⟩ := h
  have hpow : (0 : ℚ) < 2 ^ t := by positivity
  have hhalf : |value x - q| ≤ 1 / 2 * 2 ^ t := by
    have hbelow := (le_div_iff₀ hpow).1 hn.below
    have habove := (div_le_iff₀ hpow).1 hn.above
    rw [value, hx, size_multiple _ (hn.le_of_grid ht), abs_le]
    constructor <;> linarith
  rcases ht.least.eq_or_lt with rfl | hfine
  · right
    refine hhalf.trans_eq ?_
    rw [least, show (-1075 : Int) = -1 + -1074 by norm_num, zpow_add₀ two_ne_zero, zpow_neg_one,
      one_div]
  · left
    have hbelow := ht.below hfine
    rw [two_zpow_ofNat_add] at hbelow
    refine hhalf.trans ?_
    rw [unit]
    linarith

/-- A normal number is rounded with the relative error. -/
theorem IsNearest.error_of_normal {x : Float} {q : ℚ} (h : IsNearest x q)
    (hq : 2 ^ (-1022 : Int) ≤ q) : |value x - q| ≤ unit * q := by
  rcases h.error with herror | herror
  · exact herror
  · refine herror.trans ?_
    have : least = unit * 2 ^ (-1022 : Int) := by
      rw [least, unit, show (-1075 : Int) = -53 + -1022 by norm_num, zpow_add₀ two_ne_zero,
        zpow_neg, one_div]
      rfl
    rw [this]
    exact mul_le_mul_of_nonneg_left hq (by norm_num [unit])

/-! ## Relative errors -/

theorem unit_pos : 0 < unit := by
  norm_num [unit]

/-- `a` is off `q` by at most `k` units. -/
structure OffBy (k : Nat) (a q : ℚ) : Prop where
  below : (1 - k * unit) * q ≤ a
  above : a ≤ (1 + k * unit) * q

namespace OffBy

variable {j k : Nat} {a b q r : ℚ}

theorem of_error (h : |a - q| ≤ k * unit * q) : OffBy k a q := by
  obtain ⟨hlow, hhigh⟩ := abs_le.1 h
  constructor <;> linarith

theorem of_le (h : OffBy j a q) (hjk : j ≤ k) (hq : 0 < q) : OffBy k a q := by
  have hle : j * unit * q ≤ k * unit * q := by
    have := unit_pos
    gcongr
  have hbelow := h.below
  have habove := h.above
  constructor <;> linarith

/-- Two small numbers of units multiply to less than one. -/
theorem mul_unit_le (hj : j ≤ 16) (hk : k ≤ 16) : (j * unit) * (k * unit) ≤ unit := by
  have hj' : (j : ℚ) ≤ 16 := by exact_mod_cast hj
  have hk' : (k : ℚ) ≤ 16 := by exact_mod_cast hk
  have hle : (j : ℚ) * k ≤ 16 * 16 := mul_le_mul hj' hk' (by positivity) (by norm_num)
  calc (j * unit) * (k * unit) = (j * k) * unit * unit := by ring
    _ ≤ (16 * 16) * unit * unit := by
      have := unit_pos
      gcongr
    _ ≤ unit := by norm_num [unit]

theorem mul_unit_lt_one (hk : k ≤ 16) : k * unit < 1 := by
  have hk' : (k : ℚ) ≤ 16 := by exact_mod_cast hk
  calc k * unit ≤ 16 * unit := mul_le_mul_of_nonneg_right hk' unit_pos.le
    _ < 1 := by norm_num [unit]

theorem pos (h : OffBy k a q) (hk : k ≤ 16) (hq : 0 < q) : 0 < a :=
  (mul_pos (by linarith [mul_unit_lt_one hk]) hq).trans_le h.below

theorem mul (ha : OffBy j a q) (hb : OffBy k b r) (hj : j ≤ 16) (hk : k ≤ 16) (hq : 0 < q)
    (hr : 0 < r) : OffBy (j + k + 1) (a * b) (q * r) := by
  have hju := mul_unit_lt_one hj
  have hku := mul_unit_lt_one hk
  have hcross := mul_unit_le hj hk
  have hju' : 0 ≤ j * unit := mul_nonneg (Nat.cast_nonneg j) unit_pos.le
  have hku' : 0 ≤ k * unit := mul_nonneg (Nat.cast_nonneg k) unit_pos.le
  have hcross' : 0 ≤ (j * unit) * (k * unit) := mul_nonneg hju' hku'
  have hunit := unit_pos
  have hqr := mul_pos hq hr
  constructor
  · calc (1 - ((j + k + 1 : Nat) : ℚ) * unit) * (q * r)
        ≤ (1 - j * unit) * (1 - k * unit) * (q * r) := by
          gcongr
          push_cast
          linarith
      _ = (1 - j * unit) * q * ((1 - k * unit) * r) := by ring
      _ ≤ a * b := mul_le_mul ha.below hb.below
          (mul_nonneg (by linarith) hr.le) (ha.pos hj hq).le
  · calc a * b ≤ (1 + j * unit) * q * ((1 + k * unit) * r) :=
          mul_le_mul ha.above hb.above (hb.pos hk hr).le (by positivity)
      _ = (1 + j * unit) * (1 + k * unit) * (q * r) := by ring
      _ ≤ (1 + ((j + k + 1 : Nat) : ℚ) * unit) * (q * r) := by
          gcongr
          push_cast
          linarith

theorem trans (hab : OffBy j a b) (hbq : OffBy k b q) (hj : j ≤ 16) (hk : k ≤ 16) (hq : 0 < q) :
    OffBy (j + k + 1) a q := by
  have hb := hbq.pos hk hq
  have hone : OffBy j (a / b) 1 :=
    ⟨by rw [mul_one, le_div_iff₀ hb]; exact hab.below,
      by rw [mul_one, div_le_iff₀ hb]; exact hab.above⟩
  have := hone.mul hbq hj hk one_pos hq
  rwa [div_mul_cancel₀ a hb.ne', one_mul] at this

theorem inv (hb : OffBy k b r) (hk : k < 16) (hr : 0 < r) : OffBy (k + 1) b⁻¹ r⁻¹ := by
  have hpos := hb.pos hk.le hr
  have hcross := mul_unit_le hk.le (Nat.succ_le_of_lt hk)
  have hcross' : 0 ≤ (k * unit) * ((k + 1 : Nat) * unit) := by
    have := unit_pos
    positivity
  have hlt := mul_unit_lt_one (Nat.succ_le_of_lt hk)
  push_cast at hcross hcross' hlt
  constructor
  · rw [← div_eq_mul_inv, ← one_div, div_le_div_iff₀ hr hpos, one_mul]
    calc (1 - ((k + 1 : Nat) : ℚ) * unit) * b
        ≤ (1 - ((k + 1 : Nat) : ℚ) * unit) * ((1 + k * unit) * r) := by
          refine mul_le_mul_of_nonneg_left hb.above ?_
          push_cast
          linarith
      _ = (1 - unit - (k * unit) * ((k + 1) * unit)) * r := by
          push_cast
          ring
      _ ≤ r := by
          have := unit_pos
          exact mul_le_of_le_one_left hr.le (by linarith)
  · rw [← div_eq_mul_inv, ← one_div, div_le_div_iff₀ hpos hr, one_mul]
    calc r ≤ (1 + unit - (k * unit) * ((k + 1) * unit)) * r :=
          le_mul_of_one_le_left hr.le (by linarith)
      _ = (1 + ((k + 1 : Nat) : ℚ) * unit) * ((1 - k * unit) * r) := by
          push_cast
          ring
      _ ≤ (1 + ((k + 1 : Nat) : ℚ) * unit) * b := by
          refine mul_le_mul_of_nonneg_left hb.below ?_
          have := unit_pos
          positivity

theorem div (ha : OffBy j a q) (hb : OffBy k b r) (hj : j ≤ 16) (hk : k < 16) (hq : 0 < q)
    (hr : 0 < r) : OffBy (j + k + 2) (a / b) (q / r) := by
  rw [div_eq_mul_inv, div_eq_mul_inv]
  exact ha.mul (hb.inv hk hr) hj hk hq (inv_pos.2 hr)

end OffBy

end Decimal

namespace Json

/-! ## The operations of a reader -/

theorem two_zpow_le_one : (2 : ℚ) ^ (-1022 : Int) ≤ 1 :=
  zpow_le_one_of_nonpos₀ one_le_two (by decide)

theorem offBy_ofWhole {n : Nat} (h : 0 < n) (hn : n ≤ wordMax) :
    OffBy 1 (value (ofWhole n)) n := by
  have hone : (1 : ℚ) ≤ n := by exact_mod_cast h
  have := (isNearest_ofWhole h hn).error_of_normal (two_zpow_le_one.trans hone)
  exact .of_error (by rwa [Nat.cast_one, one_mul])

theorem offBy_powerOfTen {e : Nat} (he : e ≤ 308) :
    OffBy 1 (value (powerOfTen e)) (10 ^ e) := by
  have hone : (1 : ℚ) ≤ 10 ^ e := one_le_pow₀ (by norm_num)
  have := (isNearest_powerOfTen he).error_of_normal (two_zpow_le_one.trans hone)
  exact .of_error (by rwa [Nat.cast_one, one_mul])

theorem one_le_powerOfTen {e : Nat} (he : e ≤ 308) : 1 ≤ value (powerOfTen e) :=
  (isNearest_powerOfTen he).one_le (one_le_pow₀ (by norm_num))

/-- The first of two quotients is a normal number, or hardly less. -/
theorem offBy_quotient {x p : Float} {q r : ℚ} (hx : IsNearest x q) (hp : IsNearest p r)
    (hxone : 1 ≤ value x) (hpone : 1 ≤ value p) :
    IsNearest (x / p) (value x / value p) ∧
      OffBy 4 (value (x / p)) (value x / value p) := by
  have hnearest := hx.div hp (one_pos.trans_le hxone) hpone
  refine ⟨hnearest, .of_error ?_⟩
  have hunit := unit_pos
  have hlarge : (2 : ℚ) ^ (-1024 : Int) ≤ value x / value p := by
    rw [zpow_neg, le_div_iff₀ (one_pos.trans_le hpone), inv_mul_le_iff₀ (by positivity)]
    have := (value_le_greatest p).trans greatest_lt.le
    exact this.trans (le_mul_of_one_le_right (by positivity) hxone)
  rcases hnearest.error with herror | herror
  · refine herror.trans ?_
    have hpos := (by positivity : (0 : ℚ) < 2 ^ (-1024 : Int)).trans_le hlarge
    exact mul_le_mul_of_nonneg_right (by push_cast; linarith) hpos.le
  · refine herror.trans ?_
    have hscale : (2 : ℚ) ^ (-51 : Int) = (4 : Nat) * unit := by norm_num [unit]
    have hleast : least = (4 : Nat) * unit * 2 ^ (-1024 : Int) := by
      rw [least, show (-1075 : Int) = -51 + -1024 by norm_num, zpow_add₀ two_ne_zero, hscale]
    rw [hleast]
    exact mul_le_mul_of_nonneg_left hlarge (by positivity)

/-- What is computed before the last rounding is close to the number that is written. -/
theorem exists_offBy_of_scaledAs {n : Nat} {e : Int} {y : Float} (h : 0 < n) (hn : n ≤ wordMax)
    (he : -616 ≤ e) (hy : ScaledAs n e y) : ∃ t, IsNearest y t ∧ OffBy 12 t (n * 10 ^ e) := by
  have hx := isNearest_ofWhole h hn
  have hxoff := offBy_ofWhole h hn
  have hn' : (0 : ℚ) < n := by exact_mod_cast h
  have hxone := hx.one_le (by exact_mod_cast h)
  have hxpos := one_pos.trans_le hxone
  cases hy with
  | @product e he' hfinite =>
    have hp := isNearest_powerOfTen he'
    refine ⟨_, hx.mul hp hxpos (one_pos.trans_le (one_le_powerOfTen he')) hfinite, ?_⟩
    rw [zpow_natCast]
    exact (hxoff.mul (offBy_powerOfTen he') (by decide) (by decide) hn' (by positivity)).of_le
      (by decide) (by positivity)
  | @quotient e he' =>
    have hp := isNearest_powerOfTen he'
    refine ⟨_, hx.div hp hxpos (one_le_powerOfTen he'), ?_⟩
    rw [zpow_neg, zpow_natCast, ← div_eq_mul_inv]
    exact (hxoff.div (offBy_powerOfTen he') (by decide) (by decide) hn' (by positivity)).of_le
      (by decide) (by positivity)
  | @twice e he' =>
    have hp := isNearest_powerOfTen le_rfl
    have hp' := isNearest_powerOfTen he'
    obtain ⟨hz, hzoff⟩ := offBy_quotient hx hp hxone (one_le_powerOfTen le_rfl)
    have hfirst := hxoff.div (offBy_powerOfTen le_rfl) (by decide) (by decide) hn' (by positivity)
    have hsecond := hzoff.trans hfirst (by decide) (by decide) (by positivity)
    have hzpos := hsecond.pos (by decide) (by positivity)
    refine ⟨_, hz.div hp' hzpos (one_le_powerOfTen he'), ?_⟩
    have hlast := hsecond.div (offBy_powerOfTen he') (by decide) (by decide) (by positivity)
      (by positivity)
    have hpow : (10 : ℚ) ^ (-(308 + e) : Int) = (10 ^ 308)⁻¹ * (10 ^ e)⁻¹ := by
      rw [neg_add, zpow_add₀ (by norm_num), zpow_neg, zpow_neg, zpow_natCast]
      rfl
    rwa [hpow, ← mul_assoc, ← div_eq_mul_inv, ← div_eq_mul_inv]
  | vanishing => omega

/-! ## The error as a whole -/

/-- A decimal that reads as a double is off it by half a step. -/
theorem error_of_holds {b : Binary} (hb : b.IsDouble) {q : ℚ} (h : b.Holds q) :
    |q - b.value| ≤ unit * b.value ∨ |q - b.value| ≤ least := by
  have hhalf : |q - b.value| ≤ 1 / 2 * 2 ^ b.exponent := by
    have hbelow := b.sub_half_le_lower.trans h.below
    have habove := h.above
    rw [Binary.upper] at habove
    rw [Binary.value, abs_le]
    constructor <;> linarith
  rcases hb.canonical.least.eq_or_lt with heq | hfine
  · right
    refine hhalf.trans_eq ?_
    rw [← heq, least, show (-1075 : Int) = -1 + -1074 by norm_num, zpow_add₀ two_ne_zero,
      zpow_neg_one, one_div]
  · left
    refine hhalf.trans ?_
    have hfull : (2 : ℚ) ^ 52 ≤ b.mantissa := by exact_mod_cast hb.canonical.full hfine
    rw [Binary.value, ← mul_assoc]
    refine mul_le_mul_of_nonneg_right ?_ (by positivity)
    rw [unit]
    linarith

/-- The digits are not multiplied by a power of ten that makes them vanish. -/
theorem exponent_written_ge {b : Binary} (hb : b.IsDouble) {d : Digits}
    (hc : d.written.coefficient ≤ 10 ^ 17) (h : b.Holds d.value) : -616 ≤ d.written.exponent := by
  by_contra hsmall
  have hone : (1 : ℚ) ≤ b.mantissa := by exact_mod_cast hb.canonical.pos
  have hleast := hb.canonical.least
  have hc' : (d.written.coefficient : ℚ) ≤ 10 ^ 17 := by exact_mod_cast hc
  have hnat : 2 * 2 ^ 1074 * 10 ^ 17 < 10 ^ 617 := by decide +kernel
  have hvalue : d.value ≤ 10 ^ 17 * (10 ^ 617)⁻¹ := by
    rw [← Digits.value_written, Digits.value]
    refine mul_le_mul hc' ?_ (by positivity) (by positivity)
    rw [← zpow_natCast, ← zpow_neg]
    exact zpow_le_zpow_right₀ (by norm_num) (by push_cast; omega)
  have hlower : 1 / 2 * (2 ^ 1074)⁻¹ ≤ d.value := by
    refine le_trans ?_ (b.sub_half_le_lower.trans h.below)
    refine mul_le_mul (by linarith) ?_ (by positivity) (by linarith)
    rw [← zpow_natCast, ← zpow_neg]
    exact zpow_le_zpow_right₀ one_le_two (by push_cast; omega)
  have hle := hlower.trans hvalue
  rw [one_div, ← mul_inv, ← div_eq_mul_inv, inv_eq_one_div,
    div_le_div_iff₀ (by positivity) (by positivity), one_mul, mul_comm] at hle
  exact absurd (by exact_mod_cast hle) (not_le.2 hnat)

/-- The errors of the digits, of the operations and of the last rounding together. -/
theorem error_of_steps {v d t y : ℚ} (hv : 0 ≤ v) (hd : 0 < d)
    (hdigits : |d - v| ≤ unit * v ∨ |d - v| ≤ least) (hoperations : OffBy 12 t d)
    (hrounding : |y - t| ≤ unit * t ∨ |y - t| ≤ least) :
    |y - v| ≤ v / 2 ^ 49 + 2 ^ (-1073 : Int) := by
  have ht := hoperations.pos (by decide) hd
  have hunit := unit_pos
  have hleast : 0 < least := by
    rw [least]
    positivity
  have hfour : (2 : ℚ) ^ (-1073 : Int) = 4 * least := by
    rw [least, show (-1073 : Int) = 2 + -1075 by norm_num, two_zpow_ofNat_add]
    norm_num
  have hdigits' : |d - v| ≤ unit * v + least :=
    hdigits.elim (fun h => by linarith) fun h => h.trans (le_add_of_nonneg_left (by positivity))
  have hrounding' : |y - t| ≤ unit * t + least :=
    hrounding.elim (fun h => by linarith) fun h => h.trans (le_add_of_nonneg_left (by positivity))
  obtain ⟨hdlow, hdhigh⟩ := abs_le.1 hdigits'
  obtain ⟨hylow, hyhigh⟩ := abs_le.1 hrounding'
  obtain ⟨htlow, hthigh⟩ := hoperations
  rw [hfour, abs_le]
  simp only [unit, Nat.cast_ofNat] at hdlow hdhigh hylow hyhigh htlow hthigh
  constructor <;> linarith

theorem value_nonneg (x : Float) : 0 ≤ value x := by
  rw [value]
  cases x.toModel.unpack with
  | finite s m e hpos =>
    rw [size]
    positivity
  | _ => exact le_rfl

/-- The sign does not change the size. -/
theorem value_signed (x : Float) {y : Float} {t : ℚ} (h : IsNearest y t) :
    value (if isNegative x then -y else y) = value y := by
  split_ifs
  · show size (Float.Model.pack y.toModel.unpack.neg).unpack = size y.toModel.unpack
    rcases h.canonical with hzero | ⟨m, e, hm, hfinite⟩
    · have := congrArg size (unpack_pack_zero .negative)
      rw [hzero]
      exact this
    · have := congrArg size (unpack_pack .negative hm.pos hm (canonical_unpack hfinite).2)
      rw [hfinite]
      exact this
  · rfl

/-- The double that is read is the nearest one to a number close to the double that was written. -/
theorem exists_isNearest_reread {x : Float} {b : Binary} (h : magnitude x = .finite b) :
    ∃ y t, IsNearest y t ∧ (reread x = if isNegative x then -y else y) ∧
      |value y - value x| ≤ value x / 2 ^ 49 + 2 ^ (-1073 : Int) := by
  obtain ⟨hb, hpos, hunpack⟩ := unpack_of_magnitude h
  obtain ⟨y, hy, hreread⟩ := reread_of_finite h
  obtain ⟨hholds, hc⟩ := Binary.holds_shortest hb .toEven
  have hcpos := Digits.coefficient_written_pos (coefficient_shortest_pos hb .toEven)
  have hc' := Digits.coefficient_written_le hc
  obtain ⟨t, ht, htoff⟩ := exists_offBy_of_scaledAs hcpos (hc'.trans (by decide))
    (exponent_written_ge hb hc' hholds) (scaledAs_of_scaled hcpos.ne' hy)
  rw [← Digits.value, Digits.value_written] at htoff
  have hvalue : value x = b.value := by
    rw [value, hunpack]
    rfl
  refine ⟨y, t, ht, hreread, ?_⟩
  rw [hvalue]
  exact error_of_steps (Binary.value_pos hb).le (hholds.pos hb) (error_of_holds hb hholds) htoff
    ht.error

/-- **A double is read back** up to a part in `2 ^ 49`, or a few of the least steps. -/
theorem abs_value_reread_sub_le (x : Float) :
    |value (reread x) - value x| ≤ value x / 2 ^ 49 + 2 ^ (-1073 : Int) := by
  have hnonneg := value_nonneg x
  have hsame (h : reread x = x) :
      |value (reread x) - value x| ≤ value x / 2 ^ 49 + 2 ^ (-1073 : Int) := by
    rw [h, sub_self, abs_zero]
    positivity
  cases hx : magnitude x with
  | finite b =>
    obtain ⟨y, t, ht, hreread, herror⟩ := exists_isNearest_reread hx
    rw [hreread, value_signed x ht]
    exact herror
  | zero => exact hsame (reread_of_zero hx)
  | infinite => exact hsame (by rw [reread, hx])
  | notANumber => exact hsame (by rw [reread, hx])

end Json

end Pulse
