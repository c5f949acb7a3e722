import Mathlib.Data.List.Basic
import Mathlib.Tactic
import Pulse.Json.Value

/-!
# Strings that are read as they were written

A string is written character by character, each as its bytes or as an escape sequence, and read
byte by byte into pieces.  `scanString_writeChar` is the step for one character, whatever follows
it; `readString_written` puts the steps together.
-/

set_option autoImplicit false

namespace Pulse.Json

/-! ## Characters as bytes -/

/-- The bytes of written characters. -/
def bytesOf (cs : List Char) : List UInt8 :=
  cs.flatMap String.utf8EncodeChar

@[simp]
theorem bytesOf_nil : bytesOf [] = [] :=
  rfl

@[simp]
theorem bytesOf_cons (c : Char) (cs : List Char) :
    bytesOf (c :: cs) = String.utf8EncodeChar c ++ bytesOf cs :=
  rfl

@[simp]
theorem bytesOf_append (cs more : List Char) : bytesOf (cs ++ more) = bytesOf cs ++ bytesOf more :=
  List.flatMap_append

theorem encode_ofList (cs : List Char) : Text.Utf8.encode (String.ofList cs) = bytesOf cs := by
  rw [Text.Utf8.encode, String.toList_ofList, bytesOf]

/-- An ASCII character is one byte. -/
theorem utf8EncodeChar_of_lt {c : Char} (h : c.toNat < 128) :
    String.utf8EncodeChar c = [UInt8.ofNat c.toNat] :=
  if_pos (Nat.le_of_lt_succ h)

/-- The bytes of any other character are none of ASCII. -/
theorem le_of_mem_utf8EncodeChar {c : Char} (h : 128 ≤ c.toNat) {b : UInt8}
    (hb : b ∈ String.utf8EncodeChar c) : 128 ≤ b.toNat := by
  have hv : ¬ c.val.toNat ≤ 127 := Nat.not_le_of_lt h
  have hone (n : Nat) (hn : n < 64) : 128 ≤ (UInt8.ofNat (n + 128)).toNat := by
    rw [UInt8.toNat_ofNat', Nat.mod_eq_of_lt] <;> omega
  rw [String.utf8EncodeChar] at hb
  simp only [hv, if_false] at hb
  split_ifs at hb
  · simp only [List.mem_cons, List.not_mem_nil, or_false] at hb
    rcases hb with rfl | rfl
    · rw [UInt8.toNat_ofNat', Nat.mod_eq_of_lt] <;> omega
    · exact hone _ (Nat.mod_lt _ (by decide))
  · simp only [List.mem_cons, List.not_mem_nil, or_false] at hb
    rcases hb with rfl | rfl | rfl
    · rw [UInt8.toNat_ofNat', Nat.mod_eq_of_lt] <;> omega
    · exact hone _ (Nat.mod_lt _ (by decide))
    · exact hone _ (Nat.mod_lt _ (by decide))
  · simp only [List.mem_cons, List.not_mem_nil, or_false] at hb
    rcases hb with rfl | rfl | rfl | rfl
    · rw [UInt8.toNat_ofNat', Nat.mod_eq_of_lt] <;> omega
    · exact hone _ (Nat.mod_lt _ (by decide))
    · exact hone _ (Nat.mod_lt _ (by decide))
    · exact hone _ (Nat.mod_lt _ (by decide))

/-! ## Pieces -/

/-- The pieces as which a written character is read. -/
def piecesOf (c : Char) : List Piece :=
  if c ∈ ['"', '\\', '\n', '\r', '\t'] ∨ c.toNat = 0x08 ∨ c.toNat = 0x0C then
    [.escape (UInt8.ofNat c.toNat)]
  else if c.toNat < 0x20 then [.unit c.toNat]
  else (String.utf8EncodeChar c).map .byte

/-- Bytes that stand for themselves. -/
theorem scanString_bytes {bytes : List UInt8}
    (h : ∀ b ∈ bytes, 0x20 ≤ b.toNat ∧ b ≠ 0x22 ∧ b ≠ 0x5C) (rest : List UInt8) :
    scanString (bytes ++ rest) = (bytes.map .byte ++ (scanString rest).1, (scanString rest).2) := by
  induction bytes with
  | nil => rfl
  | cons b bytes ih =>
    obtain ⟨hb, hquote, hslash⟩ := h b List.mem_cons_self
    have hlt : ¬ b < 0x20 := by
      rw [UInt8.lt_iff_toNat_lt]
      exact Nat.not_lt_of_le hb
    rw [List.cons_append, scanString.eq_7 b _ hquote (fun h => absurd h hslash)
      (fun _ _ _ _ _ h => absurd h hslash) (fun _ h => absurd h hslash)
      (fun _ _ h => absurd h hslash), if_neg hlt, ih fun b hb => h b (List.mem_cons_of_mem _ hb)]
    rfl

theorem hexDigit?_hexChar : ∀ n < 16,
    hexDigit? (UInt8.ofNat (hexChar n).toNat) = some n ∧ (hexChar n).toNat < 128 := by
  decide

/-- A character with a short escape. -/
theorem scanString_short {c : Char}
    (h : c ∈ ['"', '\\', '\n', '\r', '\t'] ∨ c.toNat = 0x08 ∨ c.toNat = 0x0C) (rest : List UInt8) :
    scanString (bytesOf (writeChar c) ++ rest) =
      (piecesOf c ++ (scanString rest).1, (scanString rest).2) := by
  rw [piecesOf, if_pos h]
  have hc : c = '"' ∨ c = '\\' ∨ c = '\n' ∨ c = '\r' ∨ c = '\t' ∨ c = '\x08' ∨ c = '\x0C' := by
    simp only [List.mem_cons, List.not_mem_nil, or_false] at h
    rcases h with (h | h | h | h | h) | h | h
    · exact .inl h
    · exact .inr (.inl h)
    · exact .inr (.inr (.inl h))
    · exact .inr (.inr (.inr (.inl h)))
    · exact .inr (.inr (.inr (.inr (.inl h))))
    · exact .inr (.inr (.inr (.inr (.inr (.inl (Char.toNat_inj.1 h))))))
    · exact .inr (.inr (.inr (.inr (.inr (.inr (Char.toNat_inj.1 h))))))
  rcases hc with rfl | rfl | rfl | rfl | rfl | rfl | rfl <;> rfl

/-- A control character is written by its number. -/
theorem scanString_control {c : Char} (h : c.toNat < 0x20) (rest : List UInt8) :
    scanString (bytesOf ['\\', 'u', '0', '0', hexChar (c.toNat / 16), hexChar (c.toNat % 16)] ++
      rest) = (.unit c.toNat :: (scanString rest).1, (scanString rest).2) := by
  obtain ⟨hhigh, hhigh'⟩ := hexDigit?_hexChar (c.toNat / 16) (by omega)
  obtain ⟨hlow, hlow'⟩ := hexDigit?_hexChar (c.toNat % 16) (by omega)
  have hunit : hexUnit? 0x30 0x30 (UInt8.ofNat (hexChar (c.toNat / 16)).toNat)
      (UInt8.ofNat (hexChar (c.toNat % 16)).toNat) = some c.toNat := by
    have hsum : ((0 * 16 + 0) * 16 + c.toNat / 16) * 16 + c.toNat % 16 = c.toNat := by omega
    rw [hexUnit?, hhigh, hlow]
    exact congrArg some hsum
  rw [bytesOf_cons, bytesOf_cons, bytesOf_cons, bytesOf_cons, bytesOf_cons, bytesOf_cons,
    utf8EncodeChar_of_lt hhigh', utf8EncodeChar_of_lt hlow']
  show scanString (0x5C :: 0x75 :: 0x30 :: 0x30 :: _ :: _ :: rest) = _
  rw [scanString.eq_4, hunit]

/-- The bytes of a character without an escape stand for themselves. -/
theorem plain_of_mem_utf8EncodeChar {c : Char} (hcontrol : 0x20 ≤ c.toNat) (hquote : c ≠ '"')
    (hslash : c ≠ '\\') {b : UInt8} (hb : b ∈ String.utf8EncodeChar c) :
    0x20 ≤ b.toNat ∧ b ≠ 0x22 ∧ b ≠ 0x5C := by
  by_cases hascii : c.toNat < 128
  · rw [utf8EncodeChar_of_lt hascii, List.mem_singleton] at hb
    have hvalue : b.toNat = c.toNat := by
      rw [hb, UInt8.toNat_ofNat', Nat.mod_eq_of_lt (by omega)]
    refine ⟨by omega, fun h => hquote (Char.toNat_inj.1 ?_),
      fun h => hslash (Char.toNat_inj.1 ?_)⟩
    · rw [← hvalue, h]
      rfl
    · rw [← hvalue, h]
      rfl
  · have hle := le_of_mem_utf8EncodeChar (not_lt.1 hascii) hb
    refine ⟨by omega, ?_, ?_⟩
    · rintro rfl
      exact absurd hle (by decide)
    · rintro rfl
      exact absurd hle (by decide)

/-- **A written character** is read as its pieces. -/
theorem scanString_writeChar (c : Char) (rest : List UInt8) :
    scanString (bytesOf (writeChar c) ++ rest) =
      (piecesOf c ++ (scanString rest).1, (scanString rest).2) := by
  by_cases hshort : c ∈ ['"', '\\', '\n', '\r', '\t'] ∨ c.toNat = 0x08 ∨ c.toNat = 0x0C
  · exact scanString_short hshort rest
  · rw [piecesOf, if_neg hshort]
    simp only [List.mem_cons, List.not_mem_nil, or_false, not_or] at hshort
    have hplain : writeChar c = if c.toNat < 0x20 then
        ['\\', 'u', '0', '0', hexChar (c.toNat / 16), hexChar (c.toNat % 16)] else [c] := by
      simp only [writeChar, hshort, if_false]
    rw [hplain]
    split_ifs with hcontrol
    · exact scanString_control hcontrol rest
    · rw [bytesOf_cons, bytesOf_nil, List.append_nil]
      exact scanString_bytes (fun b => plain_of_mem_utf8EncodeChar (not_lt.1 hcontrol)
        hshort.1.1 hshort.1.2.1) rest

theorem scanString_written (cs : List Char) (rest : List UInt8) :
    scanString (bytesOf (cs.flatMap writeChar) ++ 0x22 :: rest) =
      (cs.flatMap piecesOf, .ok rest) := by
  induction cs with
  | nil => exact scanString.eq_2 rest
  | cons c cs ih =>
    rw [List.flatMap_cons, bytesOf_append, List.append_assoc, scanString_writeChar, ih,
      List.flatMap_cons]

theorem assemble_bytes (bytes : List UInt8) (pieces : List Piece) :
    assemble none (bytes.map .byte ++ pieces) = (assemble none pieces).map (bytes ++ ·) := by
  induction bytes with
  | nil =>
    cases h : assemble none pieces <;> simp [h, Except.map]
  | cons b bytes ih =>
    rw [List.map_cons, List.cons_append, assemble, ih]
    cases assemble none pieces <;> rfl

/-- The pieces of a character stand for its bytes. -/
theorem assemble_piecesOf (c : Char) (pieces : List Piece) :
    assemble none (piecesOf c ++ pieces) =
      (assemble none pieces).map (String.utf8EncodeChar c ++ ·) := by
  rw [piecesOf]
  split_ifs with hshort hcontrol
  · have hlt : c.toNat < 128 := by
      simp only [List.mem_cons, List.not_mem_nil, or_false] at hshort
      rcases hshort with (rfl | rfl | rfl | rfl | rfl) | h | h <;> first | decide | omega
    rw [utf8EncodeChar_of_lt hlt, List.singleton_append, assemble]
    cases assemble none pieces <;> rfl
  · have hlow : isLowSurrogate c.toNat = false := by
      simp only [isLowSurrogate, Bool.and_eq_false_imp, decide_eq_true_eq]
      omega
    have hhigh : isHighSurrogate c.toNat = false := by
      simp only [isHighSurrogate, Bool.and_eq_false_imp, decide_eq_true_eq]
      omega
    have hunit : assemble none (.unit c.toNat :: pieces) =
        (do return String.utf8EncodeChar (Char.ofNat c.toNat) ++ (← assemble none pieces)) := by
      cases pieces with
      | nil => simp [assemble, hlow, hhigh]
      | cons piece pieces => cases piece <;> simp [assemble, hlow, hhigh]
    rw [List.singleton_append, hunit, Char.ofNat_toNat]
    cases assemble none pieces <;> rfl
  · exact assemble_bytes _ _

theorem assemble_written (cs : List Char) :
    assemble none (cs.flatMap piecesOf) = .ok (bytesOf cs) := by
  induction cs with
  | nil => rfl
  | cons c cs ih =>
    rw [List.flatMap_cons, assemble_piecesOf, ih]
    rfl

/-- **A string is read as it was written**, whatever characters it has. -/
theorem readString_written (s : String) (rest : List UInt8) :
    readString (bytesOf (s.toList.flatMap writeChar) ++ 0x22 :: rest) = (.ok s, .ok rest) := by
  have hdecode : Text.Utf8.decode? (bytesOf s.toList) = some s := Text.Utf8.decode?_encode s
  simp only [readString, scanString_written, faultOf, assemble_written, bind, Except.bind, hdecode]

theorem bytesOf_writeString (s : String) (rest : List UInt8) :
    bytesOf (writeString s) ++ rest =
      0x22 :: (bytesOf (s.toList.flatMap writeChar) ++ 0x22 :: rest) := by
  rw [writeString, bytesOf_append, bytesOf_cons]
  show [0x22] ++ bytesOf _ ++ [0x22] ++ rest = _
  simp

end Pulse.Json
