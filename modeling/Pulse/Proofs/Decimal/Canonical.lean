import Pulse.Proofs.Decimal.Sign

/-!
# Doubles as a mantissa and an exponent

The model of doubles keeps a finite double other than zero as a sign, a mantissa and an exponent,
in the one form that is `Canonical`.  Such a form is what `magnitude` reads off the bits
(`magnitude_eq`), it survives packing (`unpack_pack`), and it determines the double
(`unpack_injective`).
-/

set_option autoImplicit false

namespace Pulse.Decimal

open Float.Model
open Float.Model.UnpackedFloat

/-- The mantissa has 53 bits, or fewer at the least exponent. -/
structure Canonical (m : Nat) (e : Int) : Prop where
  pos : 0 < m
  lt : m < 2 ^ 53
  least : -1074 ≤ e
  full : -1074 < e → 2 ^ 52 ≤ m

theorem unpack_injective {x y : Float} (h : x.toModel.unpack = y.toModel.unpack) : x = y := by
  obtain ⟨⟨xbits, hx⟩⟩ := x
  obtain ⟨⟨ybits, hy⟩⟩ := y
  obtain rfl := UInt64.toBitVec_inj.1 ((unpack_inj_of_valid hx hy).1 h)
  rfl

theorem finite_congr (s : Sign) {m m' : Nat} {e e' : Int} {hpos : 0 < m} {hpos' : 0 < m'}
    (hm : m = m') (he : e = e') :
    UnpackedFloat.finite s m e hpos = UnpackedFloat.finite s m' e' hpos' := by
  subst hm he
  rfl

/-! ## The three fields -/

/-- The double with a biased exponent and a fraction. -/
def ofFields (s : Sign) (biased fraction : Nat) : UnpackedFloat :=
  if biased = 2047 then
    if fraction = 0 then .infinity s else .notANumber
  else if biased = 0 then
    if h : fraction = 0 then .zero s else .finite s fraction (-1074) (Nat.pos_of_ne_zero h)
  else .finite s (2 ^ 52 + fraction) (biased - 1075) (by omega)

theorem toNat_implicit_append (f : BitVec 52) : (1#1 ++ f).toNat = 2 ^ 52 + f.toNat := by
  rw [BitVec.toNat_append, ← Nat.shiftLeft_add_eq_or_of_lt f.isLt]
  rfl

theorem unpack_eq_ofFields (b : BitVec 64) :
    UnpackedFloat.unpack .binary64 b =
      ofFields (Sign.ofBitVec (@unpackSign .binary64 b)) (@unpackExponent .binary64 b).toNat
        (@unpackMantissa .binary64 b).toNat := by
  have hall : @unpackExponent .binary64 b = -1#_ ↔ (@unpackExponent .binary64 b).toNat = 2047 :=
    BitVec.toNat_inj.symm
  have hnone : @unpackExponent .binary64 b = 0#_ ↔ (@unpackExponent .binary64 b).toNat = 0 :=
    BitVec.toNat_inj.symm
  have hzero : @unpackMantissa .binary64 b = 0#_ ↔ (@unpackMantissa .binary64 b).toNat = 0 :=
    BitVec.toNat_inj.symm
  have himplicit := toNat_implicit_append (@unpackMantissa .binary64 b)
  simp only [UnpackedFloat.unpack, ofFields, hall, hnone, hzero]
  split_ifs with hbiased hfraction hbiased' hfraction
  · rfl
  · rfl
  · rfl
  · simp only [hbiased']
    rfl
  · simp only [himplicit]
    rfl

/-- The fields of what is packed from parts. -/
theorem unpack_packComponents (s : Sign) (biased : BitVec 11) (fraction : BitVec 52) :
    UnpackedFloat.unpack .binary64 (packComponents .binary64 s biased fraction) =
      ofFields s biased.toNat fraction.toNat := by
  rw [unpack_eq_ofFields, unpackSign_packComponents, Sign.ofBitVec_toBitVec,
    unpackExponent_packComponents, unpackMantissa_packComponents]

/-- A finite double is packed into its fields, or into infinity if it is too great. -/
theorem pack_finite (s : Sign) {m : Nat} (e : Int) (hpos : 0 < m) :
    UnpackedFloat.pack .binary64 (.finite s m e hpos) =
      if 2047 ≤ (e + 1075).toNat then packedInfinity .binary64 s
      else if m.log2 = 52 then
        packComponents .binary64 s (BitVec.ofNat 11 (e + 1075).toNat) (BitVec.ofNat 52 m)
      else packComponents .binary64 s 0#11 (BitVec.ofNat 52 m) := by
  have hbias : e + (Format.binary64.exponentBias : Int) + (52 : Nat) = e + 1075 := by
    show e + ((1023 : Nat) : Int) + (52 : Nat) = e + 1075
    omega
  have hgreat : 2 ^ 11 ≤ (e + 1075).toNat + 1 ↔ 2047 ≤ (e + 1075).toNat := by omega
  have hfull : m.log2 + 1 = Format.binary64.mantissaBits ↔ m.log2 = 52 := by
    show m.log2 + 1 = 1 + 52 ↔ _
    omega
  simp only [UnpackedFloat.pack, hbias, hgreat, hfull]

/-- What is in the form of a double and not too great is packed without loss. -/
theorem unpack_pack (s : Sign) {m : Nat} {e : Int} (hpos : 0 < m) (h : Canonical m e)
    (he : e ≤ 971) : (Float.Model.pack (.finite s m e hpos)).unpack = .finite s m e hpos := by
  have hleast := h.least
  have hlt := h.lt
  show UnpackedFloat.unpack .binary64 (UnpackedFloat.pack .binary64 (.finite s m e hpos)) = _
  rw [pack_finite, if_neg (by omega)]
  split_ifs with hlog
  · have hfull : 2 ^ 52 ≤ m := ((Nat.log2_eq_iff hpos.ne').1 hlog).1
    have hfraction : (BitVec.ofNat 52 m).toNat = m - 2 ^ 52 := by
      rw [BitVec.toNat_ofNat]
      omega
    have hbiased : (BitVec.ofNat 11 (e + 1075).toNat).toNat = (e + 1075).toNat := by
      rw [BitVec.toNat_ofNat]
      omega
    rw [unpack_packComponents, hfraction, hbiased, ofFields, if_neg (by omega), if_neg (by omega)]
    exact finite_congr s (by omega) (by omega)
  · have hsmall : m < 2 ^ 52 := by
      by_contra hge
      exact hlog ((Nat.log2_eq_iff hpos.ne').2 ⟨by omega, hlt⟩)
    have he' : e = -1074 := by
      by_contra hne
      have := h.full (by omega)
      omega
    have hfraction : (BitVec.ofNat 52 m).toNat = m := by
      rw [BitVec.toNat_ofNat]
      omega
    subst he'
    rw [unpack_packComponents, hfraction, ofFields, if_neg (by decide),
      if_pos (by decide), dif_neg hpos.ne']

/-- What is too great is packed as infinity. -/
theorem unpack_pack_of_great (s : Sign) {m : Nat} {e : Int} (hpos : 0 < m) (he : 972 ≤ e) :
    (Float.Model.pack (.finite s m e hpos)).unpack = .infinity s := by
  show UnpackedFloat.unpack .binary64 (UnpackedFloat.pack .binary64 (.finite s m e hpos)) = _
  rw [pack_finite, if_pos (by omega), packedInfinity, unpack_packComponents]
  rfl

theorem unpack_pack_zero (s : Sign) : (Float.Model.pack (.zero s)).unpack = .zero s :=
  unpack_packedZero

/-! ## What is read off the bits -/

/-- What `magnitude` makes of an unpacked double. -/
def magnitudeOf : UnpackedFloat → Magnitude
  | .notANumber => .notANumber
  | .infinity _ => .infinite
  | .zero _ => .zero
  | .finite _ m e _ => .finite ⟨m, e, m = 2 ^ 52 && -1074 < e⟩

theorem magnitudeOf_ofFields (s : Sign) (biased fraction : Nat) :
    magnitudeOf (ofFields s biased fraction) =
      if biased = 2047 then if fraction = 0 then .infinite else .notANumber
      else if biased = 0 then
        if fraction = 0 then .zero else .finite ⟨fraction, -1074, false⟩
      else .finite ⟨2 ^ 52 + fraction, biased - 1075, fraction = 0 && 1 < biased⟩ := by
  rw [ofFields]
  split_ifs
  · rfl
  · rfl
  · rfl
  · simp [magnitudeOf]
  · have hnarrow : (decide (2 ^ 52 + fraction = 2 ^ 52) && decide (-1074 < (biased : Int) - 1075)) =
        (decide (fraction = 0) && decide (1 < biased)) := by
      rw [Bool.eq_iff_iff]
      simp only [Bool.and_eq_true, decide_eq_true_eq]
      omega
    rw [magnitudeOf, hnarrow]

/-- **The size of a double** is its mantissa and its exponent. -/
theorem magnitude_eq (x : Float) : magnitude x = magnitudeOf x.toModel.unpack := by
  have hexponent : (@unpackExponent .binary64 x.toModel.toBits.toBitVec).toNat =
      x.toBits.toNat / 2 ^ 52 % 2 ^ 11 := by
    rw [unpackExponent_def, BitVec.extractLsb'_toNat, Nat.shiftRight_eq_div_pow]
    rfl
  have hfraction : (@unpackMantissa .binary64 x.toModel.toBits.toBitVec).toNat =
      x.toBits.toNat % 2 ^ 52 := by
    rw [unpackMantissa_def, BitVec.extractLsb'_toNat, Nat.shiftRight_zero]
    rfl
  rw [Float.Model.unpack, unpack_eq_ofFields, hexponent, hfraction, magnitudeOf_ofFields]
  rfl

/-- A finite double is kept in the form of a double. -/
theorem canonical_unpack {x : Float} {s : Sign} {m : Nat} {e : Int} {hpos : 0 < m}
    (h : x.toModel.unpack = .finite s m e hpos) : Canonical m e ∧ e ≤ 971 := by
  have hfraction : (@unpackMantissa .binary64 x.toModel.toBits.toBitVec).toNat < 2 ^ 52 :=
    BitVec.isLt _
  have hbiased : (@unpackExponent .binary64 x.toModel.toBits.toBitVec).toNat < 2 ^ 11 :=
    BitVec.isLt _
  rw [Float.Model.unpack, unpack_eq_ofFields, ofFields] at h
  split_ifs at h
  · cases h
    exact ⟨⟨hpos, by omega, le_rfl, fun h => absurd h (lt_irrefl _)⟩, by omega⟩
  · cases h
    exact ⟨⟨hpos, by omega, by omega, fun _ => by omega⟩, by omega⟩

end Pulse.Decimal
