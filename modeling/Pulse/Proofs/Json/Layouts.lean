import Pulse.Proofs.Json.Numerals

/-!
# The text of a double as a numeral

A double is written in one of four layouts, and each is a numeral that gives the digits of the
double and their power of ten (`Decimal.Digits.layout`, `decimal_layout`).  A numeral behind its
sign is read as the number that it names: `readValue_written`.
-/

set_option autoImplicit false

namespace Pulse

open Json (AllDigits Written allDigits_toDigits allDigits_replicate)
open Text (digitsValue)

/-- The whole number and the power of ten that a numeral gives. -/
def Json.Written.decimal (w : Written) : Decimal.Digits :=
  ⟨digitsValue w.digits, w.power⟩

namespace Decimal.Digits

/-! ## The text of a decimal -/

/-- The number written out, as a numeral. -/
def positionalLayout (d : Digits) : Written :=
  let digits := Nat.toDigits 10 d.coefficient
  let before : Int := digits.length + d.exponent
  if 0 ≤ d.exponent then ⟨digits ++ List.replicate d.exponent.toNat '0', some ['0'], none⟩
  else if 0 < before then ⟨digits.take before.toNat, some (digits.drop before.toNat), none⟩
  else ⟨['0'], some (List.replicate (-before).toNat '0' ++ digits), none⟩

/-- The power of ten of the first digit. -/
def power (d : Digits) : Int :=
  (Nat.toDigits 10 d.coefficient).length + d.exponent - 1

/-- The number with one digit before the point, as a numeral. -/
def scientificLayout (d : Digits) : Written :=
  let digits := Nat.toDigits 10 d.coefficient
  ⟨digits.take 1, if digits.length = 1 then none else some (digits.drop 1),
    some (decide (d.power < 0), Nat.toDigits 10 d.power.natAbs)⟩

/-- The text of the number, as a numeral. -/
def layout (d : Digits) : Written :=
  if -5 ≤ d.power ∧ d.power < 16 then d.positionalLayout else d.scientificLayout

theorem toList_positional (d : Digits) :
    (d.positional ".0").toList = d.positionalLayout.chars := by
  rw [positional, positionalLayout]
  split_ifs <;> simp [Written.chars, zeros]

theorem toList_scientific (d : Digits) : d.scientific.toList = d.scientificLayout.chars := by
  rw [scientific, scientificLayout, ← power]
  split_ifs with hone hneg hneg <;> simp [Written.chars, natText, hneg]

theorem toList_jsonText (d : Digits) : d.jsonText.toList = d.layout.chars := by
  rw [jsonText, layout, ← power]
  split_ifs
  · exact d.toList_positional
  · exact d.toList_scientific

theorem allDigits_coefficient (d : Digits) : AllDigits (Nat.toDigits 10 d.coefficient) :=
  allDigits_toDigits _

theorem proper_positionalLayout {d : Digits} (h : 0 < d.coefficient) :
    d.positionalLayout.Proper := by
  have hall := d.allDigits_coefficient
  have hne : Nat.toDigits 10 d.coefficient ≠ [] := Nat.toDigits_ne_nil
  have hhead := Text.head?_toDigits h
  have hlength := List.length_pos_iff.2 hne
  rw [positionalLayout]
  split_ifs with hexp hbefore
  · exact {
      whole := hall.append (allDigits_replicate _)
      whole_ne := List.append_ne_nil_of_left_ne_nil hne _
      whole_zero := fun hzero => absurd
        (by rwa [List.head?_append, Option.or_of_isSome (List.isSome_head?.2 hne)] at hzero) hhead
      fraction := by
        rintro f ⟨⟩
        exact ⟨allDigits_replicate 1, List.cons_ne_nil _ _⟩
      exponent := nofun
      isReal := rfl }
  · have htake : 0 < (((Nat.toDigits 10 d.coefficient).length + d.exponent : Int)).toNat := by omega
    exact {
      whole := hall.of_subset (List.take_subset ..)
      whole_ne := by
        rw [ne_eq, List.take_eq_nil_iff]
        exact not_or.2 ⟨htake.ne', hne⟩
      whole_zero := fun hzero => absurd (by rwa [List.head?_take, if_neg htake.ne'] at hzero) hhead
      fraction := by
        rintro f ⟨⟩
        refine ⟨hall.of_subset (List.drop_subset ..), ?_⟩
        rw [ne_eq, List.drop_eq_nil_iff]
        omega
      exponent := nofun
      isReal := rfl }
  · exact {
      whole := allDigits_replicate 1
      whole_ne := List.cons_ne_nil _ _
      whole_zero := fun _ => rfl
      fraction := by
        rintro f ⟨⟩
        exact ⟨(allDigits_replicate _).append hall, List.append_ne_nil_of_right_ne_nil _ hne⟩
      exponent := nofun
      isReal := rfl }

theorem proper_scientificLayout {d : Digits} (h : 0 < d.coefficient) :
    d.scientificLayout.Proper := by
  have hall := d.allDigits_coefficient
  have hne : Nat.toDigits 10 d.coefficient ≠ [] := Nat.toDigits_ne_nil
  have hhead := Text.head?_toDigits h
  exact {
    whole := hall.of_subset (List.take_subset ..)
    whole_ne := by
      show (Nat.toDigits 10 d.coefficient).take 1 ≠ []
      rw [ne_eq, List.take_eq_nil_iff]
      exact not_or.2 ⟨one_ne_zero, hne⟩
    whole_zero := fun hzero => absurd
      (by rwa [scientificLayout, List.head?_take, if_neg one_ne_zero] at hzero) hhead
    fraction := by
      intro f hf
      rw [scientificLayout] at hf
      split_ifs at hf with hone
      · cases hf
      · cases hf
        refine ⟨hall.of_subset (List.drop_subset ..), ?_⟩
        rw [ne_eq, List.drop_eq_nil_iff]
        have := List.length_pos_iff.2 hne
        omega
    exponent := by
      rintro e ⟨⟩
      exact ⟨allDigits_toDigits _, Nat.toDigits_ne_nil⟩
    isReal := by
      rw [scientificLayout]
      simp }

theorem proper_layout {d : Digits} (h : 0 < d.coefficient) : d.layout.Proper := by
  rw [layout]
  split_ifs
  · exact proper_positionalLayout h
  · exact proper_scientificLayout h

/-! ## The digits and the power of ten that a reader meets -/

/-- The whole number and the power of ten that the text of the number gives.  A whole number that is
written out is followed by a zero behind the point. -/
def written (d : Digits) : Digits :=
  if 0 ≤ d.exponent ∧ d.power < 16 then ⟨d.coefficient * 10 ^ (d.exponent.toNat + 1), -1⟩ else d

theorem decimal_positionalLayout (d : Digits) :
    d.positionalLayout.decimal =
      if 0 ≤ d.exponent then ⟨d.coefficient * 10 ^ (d.exponent.toNat + 1), -1⟩ else d := by
  have hvalue := Text.digitsValue_toDigits d.coefficient
  rw [positionalLayout]
  split_ifs with hexp hbefore
  · rw [Written.decimal, Written.digits, Written.power]
    simp only [Option.getD_some, Option.elim_none, List.append_assoc]
    rw [← List.replicate_succ' (a := '0'), Text.digitsValue_append_zeros, hvalue]
    rfl
  · rw [Written.decimal, Written.digits, Written.power]
    simp only [Option.getD_some, Option.elim_none, List.take_append_drop, hvalue, List.length_drop]
    congr 1
    omega
  · rw [Written.decimal, Written.digits, Written.power]
    simp only [Option.getD_some, Option.elim_none]
    rw [← List.append_assoc, ← List.replicate_one, List.replicate_append_replicate,
      Text.digitsValue_zeros_append, hvalue]
    congr 1
    simp only [List.length_append, List.length_replicate]
    omega

theorem decimal_scientificLayout (d : Digits) : d.scientificLayout.decimal = d := by
  have hpower : d.power = (Nat.toDigits 10 d.coefficient).length + d.exponent - 1 := rfl
  have hpos := List.length_pos_iff.2 (Nat.toDigits_ne_nil (b := 10) (n := d.coefficient))
  have hfraction : d.scientificLayout.fraction.getD [] =
      (Nat.toDigits 10 d.coefficient).drop 1 := by
    rw [scientificLayout]
    split_ifs with hone
    · exact (List.drop_eq_nil_of_le hone.le).symm
    · rfl
  have hexponent : (d.scientificLayout.exponent.elim 0 fun e =>
      if e.1 then -(digitsValue e.2 : Int) else digitsValue e.2) = d.power := by
    rw [scientificLayout]
    simp only [Option.elim_some, Text.digitsValue_toDigits, decide_eq_true_eq]
    split_ifs <;> omega
  rw [Written.decimal, Written.digits, Written.power, hfraction, hexponent, List.length_drop]
  have hall : digitsValue (d.scientificLayout.whole ++ (Nat.toDigits 10 d.coefficient).drop 1) =
      d.coefficient := by
    rw [scientificLayout, List.take_append_drop, Text.digitsValue_toDigits]
  rw [hall]
  congr 1
  omega

theorem decimal_layout (d : Digits) : d.layout.decimal = d.written := by
  have hpos := List.length_pos_iff.2 (Nat.toDigits_ne_nil (b := 10) (n := d.coefficient))
  have hpower : d.power = (Nat.toDigits 10 d.coefficient).length + d.exponent - 1 := rfl
  rw [layout, written]
  split_ifs with hlayout hwhole hwhole
  · rw [decimal_positionalLayout, if_pos hwhole.1]
  · rw [decimal_positionalLayout, if_neg fun h => hwhole ⟨h, hlayout.2⟩]
  · omega
  · exact d.decimal_scientificLayout

end Decimal.Digits

namespace Json

/-! ## Numerals as values -/

theorem isSpace_digit {b : UInt8} (h : isDigitByte b = true) : isSpace b = false := by
  rw [isDigitByte, Bool.and_eq_true, decide_eq_true_eq, UInt8.le_iff_toNat_le] at h
  rw [isSpace]
  simp only [Bool.or_eq_false_iff, decide_eq_false_iff_not]
  refine ⟨⟨⟨?_, ?_⟩, ?_⟩, ?_⟩ <;> · rintro rfl; exact absurd h.1 (by decide)

/-- A value that starts with a digit is a number. -/
theorem readValue_digit {b : UInt8} (h : isDigitByte b = true) (fuel depth : Nat)
    (rest : List UInt8) :
    readValue (fuel + 1) depth (b :: rest) = readNumber false (b :: rest) := by
  have hspace : skipSpace (b :: rest) = b :: rest := by
    rw [skipSpace, List.dropWhile_cons_of_neg (by simp [isSpace_digit h])]
  rw [readValue, hspace]
  split
  case h_9 heq =>
    obtain ⟨rfl, rfl⟩ := List.cons.inj heq
    exact if_pos h
  all_goals cases ‹b :: rest = _› <;> exact absurd h (by decide)

/-- The node of a number. -/
def numberNode (n : Option Number) : Node :=
  .scalar (match n with
    | some n => .ok (.number n)
    | none => .error .malformed)

theorem readNumber_written {w : Written} (hw : w.Proper) (negative : Bool) {rest : List UInt8}
    (hrest : EndsNumber rest) :
    readNumber negative (bytesOf w.chars ++ rest) =
      (numberNode ((w.numeral negative).real?.map .real), .ok rest) := by
  have hvalue : (w.numeral negative).value? = (w.numeral negative).real?.map .real := by
    rw [Numeral.value?]
    exact if_pos rfl
  rw [readNumber, Written.scanNumeral_bytes hw negative hrest]
  simp only [hvalue]
  cases (w.numeral negative).real? <;> rfl

/-- A number is read after its sign. -/
theorem readValue_written {w : Written} (hw : w.Proper) (negative : Bool) (fuel depth : Nat)
    {rest : List UInt8} (hrest : EndsNumber rest) :
    readValue (fuel + 1) depth (bytesOf ((if negative then ['-'] else []) ++ w.chars) ++ rest) =
      (numberNode ((w.numeral negative).real?.map .real), .ok rest) := by
  rw [← readNumber_written hw negative hrest]
  cases negative with
  | true =>
    have hspace (bytes : List UInt8) : skipSpace (0x2D :: bytes) = 0x2D :: bytes := rfl
    show readValue (fuel + 1) depth (0x2D :: (bytesOf w.chars ++ rest)) = _
    rw [readValue, hspace]
    rfl
  | false =>
    obtain ⟨c, cs, hchars⟩ := List.exists_cons_of_ne_nil hw.whole_ne
    obtain ⟨hbytes, -, hdigit⟩ := utf8EncodeChar_digit (hw.whole c (hchars ▸ List.mem_cons_self))
    have hstart : bytesOf w.chars ++ rest = UInt8.ofNat c.toNat :: (bytesOf (cs ++
        ((w.fraction.elim [] fun f => '.' :: f) ++
          w.exponent.elim [] fun e => 'e' :: (if e.1 then '-' else '+') :: e.2)) ++ rest) := by
      rw [Written.chars, hchars, List.append_assoc, List.cons_append, bytesOf_cons, hbytes]
      rfl
    rw [if_neg Bool.false_ne_true, List.nil_append, hstart]
    exact readValue_digit hdigit fuel depth _

end Json

end Pulse
