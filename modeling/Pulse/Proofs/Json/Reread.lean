import Pulse.Proofs.Decimal.Operations
import Pulse.Proofs.Decimal.Shortest
import Pulse.Proofs.Json.Layouts

/-!
# Doubles that are read back

The text of a double is read as the double `reread x`, which the cheap rule of `scaled` makes of its
shortest name.  Reading never fails (`scaled_shortest`), although the name of the greatest double is
hardly within the doubles, and it gives the double back where one rounding is all that happens
(`reread_eq`).
-/

set_option autoImplicit false

namespace Pulse

open Decimal
open Text (digitsValue)
open Float.Model.UnpackedFloat

namespace Decimal

/-! ## The digits of the text -/

theorem Digits.value_written (d : Digits) : d.written.value = d.value := by
  rw [written]
  split_ifs with hwhole
  · obtain ⟨n, hn⟩ := Int.eq_ofNat_of_zero_le hwhole.1
    rw [value, value, hn, Int.toNat_natCast]
    push_cast
    rw [pow_succ, zpow_natCast, zpow_neg_one]
    field_simp
  · rfl

theorem Digits.written_of_nonneg {d : Digits} (h : 0 ≤ d.written.exponent) : d.written = d := by
  rw [written] at h ⊢
  split_ifs at h ⊢
  · exact absurd h (show ¬ (0 : Int) ≤ -1 by decide)
  · rfl

theorem Digits.coefficient_written_le {d : Digits} (h : d.coefficient ≤ 10 ^ 17) :
    d.written.coefficient ≤ 10 ^ 17 := by
  rw [written]
  split_ifs with hwhole
  · obtain ⟨hexponent, hpower⟩ := hwhole
    rw [power] at hpower
    have hpos := Nat.length_toDigits_pos (b := 10) (n := d.coefficient)
    have hlt := (Nat.length_toDigits_le_iff (b := 10) (by decide) hpos).1 le_rfl
    calc d.coefficient * 10 ^ (d.exponent.toNat + 1)
        ≤ 10 ^ (Nat.toDigits 10 d.coefficient).length * 10 ^ (d.exponent.toNat + 1) := by gcongr
      _ = 10 ^ ((Nat.toDigits 10 d.coefficient).length + (d.exponent.toNat + 1)) :=
        (pow_add ..).symm
      _ ≤ 10 ^ 17 := Nat.pow_le_pow_right (by decide) (by omega)
  · exact h

theorem Digits.coefficient_written_pos {d : Digits} (h : 0 < d.coefficient) :
    0 < d.written.coefficient := by
  rw [written]
  split_ifs
  · exact Nat.mul_pos h (Nat.pow_pos (by decide))
  · exact h

/-- The power of ten of the first digit. -/
theorem Digits.power_spec {d : Digits} (h : 0 < d.coefficient) :
    (10 : ℚ) ^ d.power ≤ d.value ∧ d.value < 10 ^ (d.power + 1) := by
  have hpos := Nat.length_toDigits_pos (b := 10) (n := d.coefficient)
  obtain ⟨k, hk⟩ : ∃ k, (Nat.toDigits 10 d.coefficient).length = k + 1 :=
    ⟨_, (Nat.succ_pred_eq_of_pos hpos).symm⟩
  have hlt : d.coefficient < 10 ^ (k + 1) :=
    (Nat.length_toDigits_le_iff (b := 10) (by decide) k.succ_pos).1 hk.le
  have hle : 10 ^ k ≤ d.coefficient := by
    rcases Nat.eq_zero_or_pos k with rfl | hk'
    · exact h
    · by_contra hsmall
      have := (Nat.length_toDigits_le_iff (b := 10) (by decide) hk').2 (not_le.1 hsmall)
      omega
  have hpower : d.power = (k : Nat) + d.exponent := by
    rw [power, hk]
    omega
  have hpower' : d.power + 1 = (k + 1 : Nat) + d.exponent := by omega
  rw [hpower', hpower, zpow_add₀ (by norm_num), zpow_add₀ (by norm_num), zpow_natCast, zpow_natCast,
    value]
  constructor
  · gcongr
    exact_mod_cast hle
  · gcongr
    exact_mod_cast hlt

theorem Digits.exponent_layout_le {d : Digits} {e : Bool × List Char}
    (h : e ∈ d.layout.exponent) : digitsValue e.2 ≤ d.power.natAbs := by
  rw [layout] at h
  split_ifs at h
  · rw [positionalLayout] at h
    split_ifs at h <;> cases h
  · cases h
    exact (Text.digitsValue_toDigits _).le

end Decimal

namespace Json

/-- The power of ten of a double fits where exponents are computed with. -/
theorem natAbs_power_le {b : Binary} (hb : b.IsDouble) {d : Digits} (hpos : 0 < d.coefficient)
    (h : b.Holds d.value) : d.power.natAbs ≤ exponentMax := by
  obtain ⟨hlow, hhigh⟩ := Digits.power_spec hpos
  have hone : (1 : ℚ) ≤ b.mantissa := by exact_mod_cast hb.canonical.pos
  have hmax : (b.mantissa : ℚ) + 1 ≤ 2 ^ 53 := by exact_mod_cast hb.canonical.lt
  have hleast := hb.canonical.least
  have hle := hb.exponent_le
  have hupper : b.upper ≤ 10 ^ (1024 : Int) := calc
    b.upper ≤ 2 ^ 53 * 2 ^ (971 : Int) :=
      mul_le_mul (by linarith) (zpow_le_zpow_right₀ one_le_two hle) (by positivity) (by norm_num)
    _ = 2 ^ (1024 : Int) := (two_zpow_ofNat_add 53 971).symm
    _ ≤ 10 ^ (1024 : Int) := zpow_le_zpow_left₀ (by decide) (by norm_num) (by norm_num)
  have hlower : 10 ^ (-1075 : Int) ≤ b.lower := calc
    (10 : ℚ) ^ (-1075 : Int) ≤ 2 ^ (-1075 : Int) := by
      rw [zpow_neg, zpow_neg]
      refine inv_anti₀ (by positivity) ?_
      exact zpow_le_zpow_left₀ (by decide) (by norm_num) (by norm_num)
    _ = 1 / 2 * 2 ^ (-1074 : Int) := by
      rw [show (-1075 : Int) = -1 + -1074 by norm_num, zpow_add₀ two_ne_zero, zpow_neg_one, one_div]
    _ ≤ (b.mantissa - 1 / 2) * 2 ^ b.exponent :=
      mul_le_mul (by linarith) (zpow_le_zpow_right₀ one_le_two hleast) (by positivity)
        (by linarith)
    _ ≤ b.lower := b.sub_half_le_lower
  have hpower := (zpow_le_zpow_iff_right₀ (by norm_num)).1 ((hlow.trans h.above).trans hupper)
  have hpower' := (zpow_lt_zpow_iff_right₀ (by norm_num)).1 ((hlower.trans h.below).trans_lt hhigh)
  rw [exponentMax]
  omega

/-! ## Reading never fails -/

theorem scaled_of_neg (n : Nat) {e : Int} (h : e < 0) : ∃ y, scaled n e = some y := by
  simp only [scaled]
  split_ifs
  · exact ⟨_, rfl⟩
  · omega
  · omega
  · omega
  · exact ⟨_, rfl⟩
  · exact ⟨_, rfl⟩
  · exact ⟨_, rfl⟩

theorem scaled_of_nonneg {n : Nat} (hn : n ≠ 0) {e : Nat} (he : e ≤ 308)
    (hfinite : ¬ (ofWhole n * powerOfTen e).isInf = true) :
    scaled n e = some (ofWhole n * powerOfTen e) := by
  rw [scaled]
  simp only [hn, if_false, Int.toNat_natCast]
  rw [if_neg (by omega), if_pos (by omega), if_neg hfinite]

/-- A number up to which no digits read as the greatest double. -/
def nearGreatest : Nat :=
  (2 ^ 54 - 3) * 2 ^ 970

theorem nearGreatest_lt : nearGreatest < 10 ^ 309 := by
  decide +kernel

/-- The greatest whole number up to `10 ^ 17` that, times `10 ^ e`, is up to `nearGreatest`. -/
def bound (e : Nat) : Nat :=
  min (nearGreatest / 10 ^ e) (10 ^ 17)

theorem bound_mul_finite {e : Nat} (he : 291 ≤ e) (he' : e ≤ 308) :
    0 < bound e ∧ ¬ (ofWhole (bound e) * powerOfTen e).isInf = true := by
  have hall : ∀ k < 18, 0 < bound (291 + k) ∧
      ¬ (ofWhole (bound (291 + k)) * powerOfTen (291 + k)).isInf = true := by
    decide +kernel
  have := hall (e - 291) (by omega)
  rwa [Nat.add_sub_cancel' he] at this

/-- The product of what is up to `nearGreatest` is within the doubles. -/
theorem mul_finite {c e : Nat} (hpos : 0 < c) (hc : c ≤ 10 ^ 17) (h : c * 10 ^ e ≤ nearGreatest) :
    e ≤ 308 ∧ ¬ (ofWhole c * powerOfTen e).isInf = true := by
  have he : e ≤ 308 := by
    have hlt : 10 ^ e < 10 ^ 309 := calc
      10 ^ e ≤ c * 10 ^ e := Nat.le_mul_of_pos_left _ hpos
      _ ≤ nearGreatest := h
      _ < 10 ^ 309 := nearGreatest_lt
    have := (Nat.pow_lt_pow_iff_right (by decide)).1 hlt
    omega
  obtain ⟨k, hk⟩ : ∃ k, k = max 291 e := ⟨_, rfl⟩
  obtain ⟨hbound, hfinite⟩ := bound_mul_finite (e := k) (by omega) (by omega)
  have hle : c ≤ bound k := by
    rcases le_or_gt e 291 with hsmall | hgreat
    · have hbound : 10 ^ 17 ≤ bound 291 := by decide +kernel
      rw [hk, max_eq_left hsmall]
      exact hc.trans hbound
    · rw [hk, max_eq_right hgreat.le]
      exact le_min ((Nat.le_div_iff_mul_le (by positivity)).2 h) hc
  have hword : bound k ≤ wordMax := (min_le_right ..).trans (by decide)
  have hx := isNearest_ofWhole hpos (hle.trans hword)
  have hx' := isNearest_ofWhole hbound hword
  have hy := isNearest_powerOfTen he
  have hy' := isNearest_powerOfTen (e := k) (by omega)
  refine ⟨he, hx.isInf_mul_of_le hx' hy hy' ?_ ?_ ?_ ?_ hfinite⟩
  · exact one_pos.trans_le (hx.one_le (by exact_mod_cast hpos))
  · exact one_pos.trans_le (hy.one_le (one_le_pow₀ (by norm_num)))
  · exact hx.mono hx' (by exact_mod_cast hle)
  · exact hy.mono hy' (pow_le_pow_right₀ (by norm_num) (by omega))

/-- Digits up to `nearGreatest` are not refused. -/
theorem scaled_of_le {d : Digits} (hpos : 0 < d.coefficient) (hc : d.coefficient ≤ 10 ^ 17)
    (h : d.value ≤ nearGreatest) :
    ∃ y, scaled d.written.coefficient d.written.exponent = some y := by
  by_cases hneg : d.written.exponent < 0
  · exact scaled_of_neg _ hneg
  · have hwritten := Digits.written_of_nonneg (not_lt.1 hneg)
    rw [hwritten] at hneg ⊢
    obtain ⟨e, he⟩ := Int.eq_ofNat_of_zero_le (not_lt.1 hneg)
    rw [Digits.value, he, zpow_natCast] at h
    obtain ⟨hexponent, hfinite⟩ := mul_finite hpos hc (by exact_mod_cast h)
    rw [he]
    exact ⟨_, scaled_of_nonneg hpos.ne' hexponent hfinite⟩

theorem upper_le {b : Binary} (hb : b.IsDouble)
    (hgreatest : ¬ (b.mantissa = 2 ^ 53 - 1 ∧ b.exponent = 971)) : b.upper ≤ nearGreatest := by
  have hlt := hb.canonical.lt
  have hle := hb.exponent_le
  have hcast : (nearGreatest : ℚ) = (2 ^ 54 - 3) * 2 ^ (970 : Int) := by
    have hleft : ((2 ^ 54 - 3 : Nat) : ℚ) = 2 ^ 54 - 3 := by norm_num
    rw [nearGreatest, Nat.cast_mul, hleft, Nat.cast_pow, Nat.cast_ofNat]
    rfl
  have hdouble : (2 : ℚ) ^ (971 : Int) = 2 * 2 ^ (970 : Int) := two_zpow_natCast_add 1 970
  rw [hcast, Binary.upper]
  by_cases hlast : b.exponent = 971
  · have hm : (b.mantissa : ℚ) + 2 ≤ 2 ^ 53 := by
      exact_mod_cast (by omega : b.mantissa + 2 ≤ 2 ^ 53)
    rw [hlast, hdouble, ← mul_assoc]
    gcongr
    linarith
  · have hm : (b.mantissa : ℚ) + 1 ≤ 2 ^ 53 := by exact_mod_cast hlt
    have hpow : (2 : ℚ) ^ b.exponent ≤ 2 ^ (970 : Int) := zpow_le_zpow_right₀ one_le_two (by omega)
    exact mul_le_mul (by linarith) hpow (by positivity) (by linarith)

theorem scaled_shortest_greatest :
    (scaled ((⟨2 ^ 53 - 1, 971, false⟩ : Binary).shortest .toEven).written.coefficient
      ((⟨2 ^ 53 - 1, 971, false⟩ : Binary).shortest .toEven).written.exponent).isSome = true := by
  decide +kernel

/-- The digits of a double other than zero are not all zeros. -/
theorem coefficient_shortest_pos {b : Binary} (hb : b.IsDouble) (tie : Tie) :
    0 < (b.shortest tie).coefficient := by
  have hpos := (Binary.holds_shortest hb tie).1.pos hb
  refine Nat.pos_of_ne_zero fun hzero => ?_
  rw [Digits.value, hzero, Nat.cast_zero, zero_mul] at hpos
  exact absurd hpos (lt_irrefl 0)

/-- **A written double is never refused as too great.** -/
theorem scaled_shortest {b : Binary} (hb : b.IsDouble) :
    ∃ y, scaled (b.shortest .toEven).written.coefficient (b.shortest .toEven).written.exponent =
      some y := by
  by_cases hgreatest : b.mantissa = 2 ^ 53 - 1 ∧ b.exponent = 971
  · obtain ⟨m, e, narrow⟩ := b
    obtain ⟨rfl, rfl⟩ := hgreatest
    obtain rfl : narrow = false := hb.narrow
    exact Option.isSome_iff_exists.1 scaled_shortest_greatest
  · obtain ⟨hholds, hc⟩ := Binary.holds_shortest hb .toEven
    have hupper := hholds.above.trans (upper_le hb hgreatest)
    exact scaled_of_le (coefficient_shortest_pos hb _) hc hupper

/-! ## Reading a written double -/

/-- The double as which the text of a double is read. -/
def reread (x : Float) : Float :=
  match magnitude x with
  | .finite b =>
    let d := (b.shortest .toEven).written
    let y := (scaled d.coefficient d.exponent).getD x
    if isNegative x then -y else y
  | .zero | .infinite | .notANumber => x

theorem reread_of_finite {x : Float} {b : Binary} (h : magnitude x = .finite b) :
    ∃ y, scaled (b.shortest .toEven).written.coefficient (b.shortest .toEven).written.exponent =
      some y ∧ reread x = if isNegative x then -y else y := by
  obtain ⟨y, hy⟩ := scaled_shortest (unpack_of_magnitude h).1
  refine ⟨y, hy, ?_⟩
  rw [reread, h]
  simp only [hy, Option.getD_some]

theorem reread_of_zero {x : Float} (h : magnitude x = .zero) : reread x = x := by
  rw [reread, h]

theorem unpack_of_zero {x : Float} (h : magnitude x = .zero) :
    x.toModel.unpack = .zero (signBit x) := by
  rw [magnitude_eq] at h
  have hsign := signOf_unpack x
  cases hx : x.toModel.unpack with
  | zero s =>
    rw [hx] at hsign
    rw [← hsign]
    rfl
  | _ =>
    rw [hx] at h
    cases h

/-- Zero is read as zero, with its sign. -/
theorem zero_eq {x : Float} (h : magnitude x = .zero) :
    (if isNegative x then -ofWhole 0 else ofWhole 0) = x := by
  have hpos : (ofWhole 0).toModel.unpack = .zero .positive := by rfl
  have hneg : (-ofWhole 0).toModel.unpack = .zero .negative := by rfl
  refine unpack_injective ?_
  rw [unpack_of_zero h, signBit]
  split_ifs
  · exact hneg
  · exact hpos

theorem chars_signed (x : Float) (s : String) :
    (signed x s).toList = (if isNegative x then ['-'] else []) ++ s.toList := by
  rw [signed]
  split_ifs
  · rw [String.toList_append]
    rfl
  · rfl

/-- A numeral behind the sign of a double is read as a double. -/
theorem readAs_numeral {x y : Float} {w : Written} (hw : w.Proper)
    (hwrite : (Value.float x).write = (if isNegative x then ['-'] else []) ++ w.chars)
    (hdigits : w.decimal.coefficient ≤ wordMax)
    (hexponent : ∀ e ∈ w.exponent, digitsValue e.2 ≤ exponentMax)
    (hscaled : scaled w.decimal.coefficient w.decimal.exponent = some y) :
    ReadAs (.float x) (.scalar (.ok (.number (.real (if isNegative x then -y else y))))) := by
  intro fuel depth rest hrest
  have hread := w.real?_numeral (isNegative x) hdigits hexponent
  rw [show scaled (digitsValue w.digits) w.power = some y from hscaled] at hread
  rw [hwrite, readValue_written hw (isNegative x) fuel depth hrest, hread]
  rfl

/-- **A finite double is read back** as `reread` says. -/
theorem readAs_float {x : Float} (h : magnitude x = .zero ∨ ∃ b, magnitude x = .finite b) :
    ReadAs (.float x) (.scalar (.ok (.number (.real (reread x))))) := by
  have hwrite : (Value.float x).write = ((jsonText x).getD "null").toList := rfl
  rcases h with h | ⟨b, h⟩
  · have hzero : (⟨['0'], some ['0'], none⟩ : Written).Proper := {
      whole := allDigits_replicate 1
      whole_ne := List.cons_ne_nil _ _
      whole_zero := fun _ => rfl
      fraction := by
        rintro f ⟨⟩
        exact ⟨allDigits_replicate 1, List.cons_ne_nil _ _⟩
      exponent := nofun
      isReal := rfl }
    rw [reread_of_zero h]
    have := readAs_numeral (x := x) (y := ofWhole 0) hzero ?_ (by decide) nofun rfl
    · rwa [zero_eq h] at this
    · rw [hwrite, jsonText, h]
      exact chars_signed x "0.0"
  · obtain ⟨hb, -⟩ := unpack_of_magnitude h
    obtain ⟨y, hy, hreread⟩ := reread_of_finite h
    obtain ⟨hholds, hc⟩ := Binary.holds_shortest hb .toEven
    obtain ⟨d, hd⟩ : ∃ d, d = b.shortest .toEven := ⟨_, rfl⟩
    have hpos := coefficient_shortest_pos hb .toEven
    rw [← hd] at hy hholds hc hpos
    rw [← d.decimal_layout] at hy
    rw [hreread]
    refine readAs_numeral (Digits.proper_layout hpos) ?_ ?_ ?_ hy
    · rw [hwrite, jsonText, h, ← Digits.toList_jsonText, hd]
      exact chars_signed x _
    · rw [d.decimal_layout]
      exact (Digits.coefficient_written_le hc).trans (by decide)
    · intro e he
      exact (Digits.exponent_layout_le he).trans (natAbs_power_le hb hpos hholds)

/-! ## Doubles that survive -/

/-- How a whole number is multiplied by a power of ten. -/
inductive ScaledAs (n : Nat) : Int → Float → Prop
  | product {e : Nat} (he : e ≤ 308) (hfinite : ¬ (ofWhole n * powerOfTen e).isInf = true) :
    ScaledAs n e (ofWhole n * powerOfTen e)
  | quotient {e : Nat} (he : e ≤ 308) : ScaledAs n (-e) (ofWhole n / powerOfTen e)
  | twice {e : Nat} (he : e ≤ 308) :
    ScaledAs n (-(308 + e)) (ofWhole n / powerOfTen 308 / powerOfTen e)
  | vanishing {e : Int} (he : e < -616) : ScaledAs n e 0.0

theorem scaledAs_of_scaled {n : Nat} {e : Int} {y : Float} (hn : n ≠ 0)
    (h : scaled n e = some y) : ScaledAs n e y := by
  simp only [scaled, hn, if_false] at h
  split_ifs at h with hgreat hnonneg hinf hquotient htwice
  · obtain ⟨k, rfl⟩ := Int.eq_ofNat_of_zero_le hnonneg
    cases h
    exact .product (by omega) hinf
  · obtain ⟨k, hk⟩ := Int.eq_ofNat_of_zero_le (by omega : 0 ≤ -e)
    obtain rfl : e = -k := by omega
    cases h
    rw [hk, Int.toNat_natCast]
    exact .quotient (by omega)
  · obtain ⟨k, hk⟩ := Int.eq_ofNat_of_zero_le (by omega : 0 ≤ -e - 308)
    obtain rfl : e = -(308 + k) := by omega
    cases h
    rw [hk, Int.toNat_natCast]
    exact .twice (by omega)
  · cases h
    exact .vanishing (by omega)

/-- A double is *plain* if its text gives a whole number of up to 53 bits and a power of ten that is
a double itself. -/
def IsPlain (x : Float) : Prop :=
  ∀ b, magnitude x = .finite b →
    (b.shortest .toEven).written.coefficient ≤ 2 ^ 53 ∧
      (b.shortest .toEven).written.exponent.natAbs ≤ 22

/-- One operation on exact operands rounds once. -/
theorem isNearest_of_scaledAs {n : Nat} {e : Int} {y : Float} (hpos : 0 < n) (hn : n ≤ 2 ^ 53)
    (he : e.natAbs ≤ 22) (h : ScaledAs n e y) : IsNearest y (n * 10 ^ e) := by
  have hx := isNearest_ofWhole hpos (hn.trans (by decide))
  have hone : (1 : ℚ) ≤ n := by exact_mod_cast hpos
  have hvalue := hx.value_eq hn
  cases h with
  | @product e he' hfinite =>
    have hpower := value_powerOfTen (e := e) (by omega)
    have hy := isNearest_powerOfTen he'
    have := hx.mul hy (by rw [hvalue]; linarith) (by rw [hpower]; positivity) hfinite
    rwa [hvalue, hpower] at this
  | @quotient e he' =>
    have hpower := value_powerOfTen (e := e) (by omega)
    have hy := isNearest_powerOfTen he'
    have := hx.div hy (by rw [hvalue]; linarith) (hy.one_le (one_le_pow₀ (by norm_num)))
    rwa [hvalue, hpower, div_eq_mul_inv, ← zpow_natCast, ← zpow_neg] at this
  | twice => omega
  | vanishing => omega

/-- The double with the size of `y` and the sign of `x`. -/
theorem unpack_signed (x : Float) {y : Float} {m : Nat} {e : Int} {hpos : 0 < m}
    (h : y.toModel.unpack = .finite .positive m e hpos) :
    (if isNegative x then -y else y).toModel.unpack = .finite (signBit x) m e hpos := by
  obtain ⟨hm, he⟩ := canonical_unpack h
  rw [signBit]
  split_ifs
  · show (Float.Model.pack y.toModel.unpack.neg).unpack = _
    rw [h]
    exact unpack_pack .negative hpos hm he
  · exact h

/-- **Plain doubles survive.** -/
theorem reread_eq {x : Float} (h : IsPlain x) : reread x = x := by
  cases hx : magnitude x with
  | finite b =>
    obtain ⟨hb, hpos, hunpack⟩ := unpack_of_magnitude hx
    obtain ⟨y, hy, hreread⟩ := reread_of_finite hx
    obtain ⟨hc, he⟩ := h b hx
    obtain ⟨hholds, -⟩ := Binary.holds_shortest hb .toEven
    have hcpos := Digits.coefficient_written_pos (coefficient_shortest_pos hb .toEven)
    have hnearest := isNearest_of_scaledAs hcpos hc he (scaledAs_of_scaled hcpos.ne' hy)
    rw [← Digits.value, Digits.value_written] at hnearest
    have hyu := hnearest.unique (hholds.rounds hb .positive)
    rw [hreread]
    exact unpack_injective ((unpack_signed x hyu).trans hunpack.symm)
  | zero => exact reread_of_zero hx
  | infinite => rw [reread, hx]
  | notANumber => rw [reread, hx]

end Json

end Pulse
