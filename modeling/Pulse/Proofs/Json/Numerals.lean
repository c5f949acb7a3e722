import Pulse.Proofs.Json.Members
import Pulse.Proofs.Text.Digits

/-!
# Numbers that are read as they were written

A written double is a `Written` numeral: digits, digits behind a point and an exponent.  It is
scanned digit by digit (`Written.scanNumeral_bytes`), and what it names is computed from one whole
number and one power of ten (`Written.real?_numeral`), which for the shortest digits of a double are
those of `Digits.read`.
-/

set_option autoImplicit false

namespace Pulse.Json

open Pulse.Text (digitValue digitsValue)

/-! ## Digits as bytes -/

/-- Characters that are digits. -/
def AllDigits (cs : List Char) : Prop :=
  ∀ c ∈ cs, c.isDigit = true

theorem AllDigits.append {cs more : List Char} (h : AllDigits cs) (h' : AllDigits more) :
    AllDigits (cs ++ more) := by
  intro c hc
  rcases List.mem_append.1 hc with hc | hc
  · exact h c hc
  · exact h' c hc

theorem AllDigits.of_subset {cs more : List Char} (h : AllDigits cs) (hsub : more ⊆ cs) :
    AllDigits more :=
  fun c hc => h c (hsub hc)

theorem allDigits_toDigits (n : Nat) : AllDigits (Nat.toDigits 10 n) :=
  fun _ hc => Text.isDigit_of_mem_toDigits hc

theorem allDigits_replicate (n : Nat) : AllDigits (List.replicate n '0') := by
  intro c hc
  rw [List.eq_of_mem_replicate hc]
  decide

theorem toNat_of_isDigit {c : Char} (h : c.isDigit = true) : 48 ≤ c.toNat ∧ c.toNat ≤ 57 := by
  simp only [Char.isDigit, Bool.and_eq_true, decide_eq_true_eq, UInt32.le_iff_toNat_le] at h
  exact h

/-- A digit is one byte. -/
theorem utf8EncodeChar_digit {c : Char} (h : c.isDigit = true) :
    String.utf8EncodeChar c = [UInt8.ofNat c.toNat] ∧ (UInt8.ofNat c.toNat).toNat = c.toNat ∧
      isDigitByte (UInt8.ofNat c.toNat) = true := by
  obtain ⟨hlow, hhigh⟩ := toNat_of_isDigit h
  have hbyte : (UInt8.ofNat c.toNat).toNat = c.toNat := by
    rw [UInt8.toNat_ofNat', Nat.mod_eq_of_lt (by omega)]
  refine ⟨utf8EncodeChar_of_lt (by omega), hbyte, ?_⟩
  rw [isDigitByte, Bool.and_eq_true, decide_eq_true_eq, decide_eq_true_eq, UInt8.le_iff_toNat_le,
    UInt8.le_iff_toNat_le, hbyte]
  exact ⟨hlow, hhigh⟩

/-- What follows a row of digits is no digit. -/
def EndsRow (rest : List UInt8) : Prop :=
  ∀ b ∈ rest.head?, isDigitByte b = false

theorem takeDigits_bytesOf {cs : List Char} (h : AllDigits cs) {rest : List UInt8}
    (hrest : EndsRow rest) : takeDigits (bytesOf cs ++ rest) = (cs.map digitValue, rest) := by
  induction cs with
  | nil =>
    cases rest with
    | nil => rfl
    | cons b rest =>
      have hb := hrest b rfl
      simp [takeDigits, hb]
  | cons c cs ih =>
    obtain ⟨hbytes, hvalue, hdigit⟩ := utf8EncodeChar_digit (h c List.mem_cons_self)
    have ih := ih fun d hd => h d (List.mem_cons_of_mem c hd)
    rw [takeDigits, Prod.mk.injEq] at ih
    rw [bytesOf_cons, hbytes, takeDigits, List.append_assoc, List.singleton_append,
      List.takeWhile_cons_of_pos hdigit, List.dropWhile_cons_of_pos hdigit, List.map_cons, ih.1,
      ih.2, hvalue]
    rfl

/-! ## Numerals -/

/-- The parts of a written number after its sign. -/
structure Written where
  whole : List Char
  /-- The digits behind the point, if there is one. -/
  fraction : Option (List Char)
  /-- The exponent, if there is one: whether it is negative, and its digits. -/
  exponent : Option (Bool × List Char)

namespace Written

/-- The numeral as it is written. -/
def chars (w : Written) : List Char :=
  w.whole ++ (w.fraction.elim [] fun f => '.' :: f) ++
    w.exponent.elim [] fun e => 'e' :: (if e.1 then '-' else '+') :: e.2

/-- The parts are rows of digits that documents allow, and the number is written as a double. -/
structure Proper (w : Written) : Prop where
  whole : AllDigits w.whole
  whole_ne : w.whole ≠ []
  /-- There is no zero in front of other digits. -/
  whole_zero : w.whole.head? = some '0' → w.whole.length = 1
  fraction : ∀ f ∈ w.fraction, AllDigits f ∧ f ≠ []
  exponent : ∀ e ∈ w.exponent, AllDigits e.2 ∧ e.2 ≠ []
  isReal : w.fraction.isSome || w.exponent.isSome

/-- The numeral as which it is scanned. -/
def numeral (w : Written) (negative : Bool) : Numeral where
  negative
  whole := w.whole.map digitValue
  fraction := (w.fraction.getD []).map digitValue
  isReal := true
  exponentNegative := (w.exponent.getD (false, [])).1
  exponent := (w.exponent.getD (false, [])).2.map digitValue

theorem scanExponent_bytes {e : Option (Bool × List Char)}
    (h : ∀ x ∈ e, AllDigits x.2 ∧ x.2 ≠ []) {rest : List UInt8} (hrest : EndsNumber rest) :
    scanExponent (bytesOf (e.elim [] fun e => 'e' :: (if e.1 then '-' else '+') :: e.2) ++ rest) =
      .ok (e.map fun x => (x.1, x.2.map digitValue), rest) := by
  have hends : EndsRow rest := fun b hb => (hrest b hb).1
  cases e with
  | none =>
    cases rest with
    | nil => rfl
    | cons b rest =>
      obtain ⟨-, -, he, hE⟩ := hrest b rfl
      show scanExponent (b :: rest) = _
      simp [scanExponent, he, hE]
  | some x =>
    obtain ⟨hdigits, hne⟩ := h x rfl
    obtain ⟨negative, ds⟩ := x
    have hread := takeDigits_bytesOf hdigits hends
    have hempty : (ds.map digitValue).isEmpty = false := by simpa using hne
    cases negative with
    | true =>
      show scanExponent (0x65 :: 0x2D :: (bytesOf ds ++ rest)) = _
      rw [scanExponent, if_pos (.inl rfl)]
      simp only [hread, hempty]
      rfl
    | false =>
      show scanExponent (0x65 :: 0x2B :: (bytesOf ds ++ rest)) = _
      rw [scanExponent, if_pos (.inl rfl)]
      simp only [hread, hempty]
      rfl

theorem scanFraction_bytes {f : Option (List Char)} (h : ∀ x ∈ f, AllDigits x ∧ x ≠ [])
    {rest : List UInt8} (hrest : EndsRow rest) (hpoint : rest.head? ≠ some 0x2E) :
    scanFraction (bytesOf (f.elim [] fun f => '.' :: f) ++ rest) =
      .ok (f.map fun x => x.map digitValue, rest) := by
  cases f with
  | none =>
    show scanFraction rest = _
    rw [scanFraction]
    · rfl
    · rintro rest rfl
      exact hpoint rfl
  | some ds =>
    obtain ⟨hdigits, hne⟩ := h ds rfl
    have hempty : (ds.map digitValue).isEmpty = false := by simpa using hne
    show scanFraction (0x2E :: (bytesOf ds ++ rest)) = _
    rw [scanFraction]
    simp only [takeDigits_bytesOf hdigits hrest, hempty]
    rfl

theorem digitValue_eq_zero {c : Char} (h : c.isDigit = true) (hzero : digitValue c = 0) :
    c = '0' := by
  have hlow := (toNat_of_isDigit h).1
  rw [digitValue] at hzero
  exact Char.toNat_inj.1 (show c.toNat = 48 by omega)

/-- What is behind the whole digits of a number does not go on with them. -/
theorem endsRow_fraction (w : Written) {rest : List UInt8} (hrest : EndsNumber rest) :
    EndsRow (bytesOf (w.fraction.elim [] fun f => '.' :: f) ++
      (bytesOf (w.exponent.elim [] fun e => 'e' :: (if e.1 then '-' else '+') :: e.2) ++
        rest)) := by
  intro b hb
  cases hf : w.fraction with
  | some f =>
    rw [hf] at hb
    obtain rfl := Option.some_inj.1 hb
    decide
  | none =>
    rw [hf] at hb
    cases he : w.exponent with
    | some e =>
      rw [he] at hb
      obtain rfl := Option.some_inj.1 hb
      decide
    | none =>
      rw [he] at hb
      exact (hrest b hb).1

/-- What is behind the digits at the point of a number is an exponent or no part of it. -/
theorem exponent_head (w : Written) {rest : List UInt8} (hrest : EndsNumber rest) :
    ∀ b ∈ (bytesOf (w.exponent.elim [] fun e => 'e' :: (if e.1 then '-' else '+') :: e.2) ++
      rest).head?, isDigitByte b = false ∧ b ≠ 0x2E := by
  intro b hb
  cases he : w.exponent with
  | some e =>
    rw [he] at hb
    obtain rfl := Option.some_inj.1 hb
    decide
  | none =>
    rw [he] at hb
    exact ⟨(hrest b hb).1, (hrest b hb).2.1⟩

/-- **A written number is scanned** as the numeral that it is. -/
theorem scanNumeral_bytes {w : Written} (hw : w.Proper) (negative : Bool) {rest : List UInt8}
    (hrest : EndsNumber rest) :
    scanNumeral negative (bytesOf w.chars ++ rest) = .ok (w.numeral negative, rest) := by
  have hhead := w.exponent_head hrest
  have hempty : (w.whole.map digitValue).isEmpty = false := by simpa using hw.whole_ne
  have hzero :
      ¬ ((w.whole.map digitValue).head? = some 0 ∧ 1 < (w.whole.map digitValue).length) := by
    rw [List.length_map, List.head?_map]
    rintro ⟨hfirst, hlong⟩
    obtain ⟨c, hc, hvalue⟩ := Option.map_eq_some_iff.1 hfirst
    obtain rfl := digitValue_eq_zero (hw.whole c (List.mem_of_mem_head? hc)) hvalue
    exact hlong.ne' (hw.whole_zero hc)
  have hreal : ((w.fraction.map fun f => f.map digitValue).isSome ||
      (w.exponent.map fun e => (e.1, e.2.map digitValue)).isSome) = true := by
    rw [Option.isSome_map, Option.isSome_map]
    exact hw.isReal
  rw [scanNumeral, chars, bytesOf_append, bytesOf_append, List.append_assoc, List.append_assoc,
    takeDigits_bytesOf hw.whole (w.endsRow_fraction hrest)]
  simp only [hempty, hzero, Bool.false_eq_true, if_false]
  rw [scanFraction_bytes hw.fraction (fun b hb => (hhead b hb).1) fun h => (hhead _ h).2 rfl]
  show (scanExponent _ >>= _) = _
  rw [scanExponent_bytes hw.exponent hrest]
  show Except.ok _ = _
  rw [hreal, numeral]
  cases w.fraction <;> cases w.exponent <;> rfl

end Written

/-! ## What a numeral names -/

theorem digitsToNat_map (cs : List Char) : digitsToNat (cs.map digitValue) = digitsValue cs := by
  rw [digitsToNat, List.foldl_map, digitsValue]

theorem le_foldl_digits (n : Nat) (ds : List Nat) : n ≤ ds.foldl (fun n d => 10 * n + d) n := by
  induction ds generalizing n with
  | nil => exact le_rfl
  | cons d ds ih => exact (show n ≤ 10 * n + d by omega).trans (ih _)

/-- Digits are collected as long as their number fits 64 bits. -/
theorem collect_eq {n : Nat} {ds : List Nat}
    (h : ds.foldl (fun n d => 10 * n + d) n ≤ wordMax) :
    collect n ds = (ds.foldl (fun n d => 10 * n + d) n, []) := by
  induction ds generalizing n with
  | nil => rfl
  | cons d ds ih =>
    rw [collect, if_pos ((le_foldl_digits _ ds).trans h)]
    exact ih h

namespace Written

/-- All the digits of the number, without its point. -/
def digits (w : Written) : List Char :=
  w.whole ++ w.fraction.getD []

/-- The power of ten that the digits are multiplied with. -/
def power (w : Written) : Int :=
  (w.exponent.elim 0 fun e => if e.1 then -(digitsValue e.2 : Int) else digitsValue e.2) -
    (w.fraction.getD []).length

/-- **What a written number names**, computed from its digits and its power of ten. -/
theorem real?_numeral (w : Written) (negative : Bool) (hdigits : digitsValue w.digits ≤ wordMax)
    (hexponent : ∀ e ∈ w.exponent, digitsValue e.2 ≤ exponentMax) :
    (w.numeral negative).real? =
      (scaled (digitsValue w.digits) w.power).map fun x => if negative then -x else x := by
  have hall : ((w.fraction.getD []).map digitValue).foldl (fun n d => 10 * n + d)
      ((w.whole.map digitValue).foldl (fun n d => 10 * n + d) 0) = digitsValue w.digits := by
    rw [← List.foldl_append, ← List.map_append]
    exact digitsToNat_map w.digits
  have hwhole := (le_foldl_digits _ ((w.fraction.getD []).map digitValue)).trans
    (hall.trans_le hdigits)
  have hpower : digitsToNat ((w.exponent.getD (false, [])).2.map digitValue) ≤ exponentMax := by
    rw [digitsToNat_map]
    cases he : w.exponent with
    | none => exact Nat.zero_le _
    | some e => exact hexponent e he
  rw [Numeral.real?, numeral]
  simp only [collect_eq hwhole, collect_eq (hall.trans_le hdigits), hall, if_neg hpower.not_gt]
  congr 2
  rw [power, digitsToNat_map]
  cases he : w.exponent with
  | none => simp [digitsValue]
  | some e =>
    obtain ⟨negative, ds⟩ := e
    cases negative <;> simp <;> omega

end Written

end Pulse.Json
