import Mathlib
import Pulse.Decimal.Rounding

/-!
# The sign of a double

No product of doubles whose sign bit is clear has it set, and such a double is no negative integer
when it is rounded: `isNegative_mul`, `toInteger_nonneg`.  What is not a number counts as positive,
since its only form here has a clear sign bit.
-/

set_option autoImplicit false

namespace Pulse.Decimal

open Float.Model
open Float.Model.UnpackedFloat

/-- The sign with which a double is packed. -/
def signOf : UnpackedFloat → Sign
  | .notANumber => .positive
  | .infinity s | .zero s | .finite s .. => s

theorem unpackSign_pack (spec : Format) (u : UnpackedFloat) :
    unpackSign (u.pack spec) = (signOf u).toBitVec := by
  cases u with
  | notANumber => exact unpackSign_packComponents ..
  | infinity s => exact unpackSign_packComponents ..
  | zero s => exact unpackSign_packComponents ..
  | finite s mantissa exponent =>
    rw [UnpackedFloat.pack]
    split_ifs
    · exact unpackSign_packComponents ..
    · exact unpackSign_packComponents ..
    · exact unpackSign_packComponents ..

/-- The sign bit is the sign. -/
theorem unpackSign_toBits (x : Float.Model) :
    @unpackSign .binary64 x.toBits.toBitVec = (signOf x.unpack).toBitVec := by
  rw [← unpackSign_pack .binary64, Float.Model.unpack, pack_unpack_of_valid x.valid]

theorem isNegative_eq_false_iff {x : Float} :
    isNegative x = false ↔ signOf x.toModel.unpack = .positive := by
  have hbit : (x.toBits >>> 63).toNat = ((signOf x.toModel.unpack).toBitVec).toNat := by
    rw [← unpackSign_toBits, unpackSign_def]
    have hlt : x.toBits.toNat < 18446744073709551616 := x.toBits.toNat_lt
    rw [UInt64.toNat_shiftRight, BitVec.extractLsb'_toNat]
    show x.toBits.toNat >>> 63 = x.toBits.toNat >>> 63 % 2
    rw [Nat.shiftRight_eq_div_pow]
    omega
  rw [isNegative, beq_eq_false_iff_ne, ne_eq, ← UInt64.toNat_inj, hbit]
  cases signOf x.toModel.unpack <;> simp [Sign.toBitVec]

theorem toBitVec_injective {s s' : Sign} (h : s.toBitVec = s'.toBitVec) : s = s' := by
  have := congrArg Sign.ofBitVec h
  rwa [Sign.ofBitVec_toBitVec, Sign.ofBitVec_toBitVec] at this

theorem signOf_unpack_pack (u : UnpackedFloat) :
    signOf (Float.Model.pack u).unpack = signOf u := by
  refine toBitVec_injective ?_
  rw [← unpackSign_toBits, Float.Model.pack, unpackSign_pack]

theorem signOf_roundWithAccuracy (spec : Format) (s : Sign) (mantissa : Nat) (exponent : Int)
    (accuracy : Accuracy) :
    signOf (roundWithAccuracy spec s mantissa exponent accuracy) = s := by
  rw [roundWithAccuracy]
  dsimp only
  split_ifs <;> rfl

theorem signOf_mul (spec : Format) (u v : UnpackedFloat) (hu : signOf u = .positive)
    (hv : signOf v = .positive) : signOf (u.mul spec v) = .positive := by
  cases u <;> cases v <;> cases hu <;> cases hv <;> first | rfl | exact signOf_roundWithAccuracy ..

theorem isNegative_mul {x y : Float} (hx : isNegative x = false) (hy : isNegative y = false) :
    isNegative (x * y) = false := by
  rw [isNegative_eq_false_iff] at hx hy ⊢
  exact (signOf_unpack_pack _).trans (signOf_mul _ _ _ hx hy)

theorem signOf_ofNat (spec : Format) (n : Nat) :
    signOf (UnpackedFloat.ofNat spec n) = .positive := by
  rw [UnpackedFloat.ofNat, UnpackedFloat.ofInt, UnpackedFloat.normalize]
  rcases Nat.eq_zero_or_pos n with rfl | hpos
  · rfl
  · rw [Int.compare_eq_gt.2 (by omega)]
    exact signOf_roundWithAccuracy ..

theorem isNegative_ofNat (n : Nat) : isNegative (Float.ofScientific n false 0) = false := by
  rw [Float.ofScientific]
  split
  · have hone : isNegative Float.exactlyRepresentablePowersOfTen[0] = false := by decide +kernel
    refine isNegative_mul ?_ hone
    rw [isNegative_eq_false_iff]
    exact (signOf_unpack_pack _).trans (signOf_ofNat ..)
  · rw [isNegative_eq_false_iff]
    refine (signOf_unpack_pack _).trans ?_
    rw [if_neg Bool.false_ne_true, UnpackedFloat.ofScientific]
    split_ifs
    · rfl
    · rfl
    · rfl
    · exact signOf_mul _ _ _ rfl rfl
    · next hneg => exact absurd le_rfl hneg

theorem isNegative_of_pos {x : Float} (h : x.isFinite = true) (h' : ¬ x ≤ 0.0) :
    isNegative x = false := by
  rw [isNegative_eq_false_iff]
  have hzero : (0.0 : Float).toModel.unpack = .zero .positive := by rfl
  have hle : ¬ x.toModel.unpack.le (.zero .positive) = true := by
    rw [← hzero]
    intro hle
    exact h' (decide_eq_true hle)
  have hfinite : x.toModel.unpack.isFinite = true := h
  cases hx : x.toModel.unpack with
  | notANumber => rfl
  | infinity s => simp [hx, UnpackedFloat.isFinite] at hfinite
  | zero s => simp [hx, UnpackedFloat.le, UnpackedFloat.compare] at hle
  | finite s mantissa exponent hpos =>
    cases s with
    | positive => rfl
    | negative => simp [hx, UnpackedFloat.le, UnpackedFloat.compare] at hle

/-- A double whose sign bit is clear is rounded to no negative integer. -/
theorem toInteger_nonneg {x : Float} (h : isNegative x = false) : 0 ≤ toInteger x := by
  unfold toInteger
  split
  · exact le_rfl
  · exact le_rfl
  · rw [h]
    decide
  · rw [h]
    simp [clamp]
    decide

end Pulse.Decimal
