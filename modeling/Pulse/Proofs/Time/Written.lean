import Pulse.Proofs.Text.Digits
import Pulse.Proofs.Time.Calendar
import Pulse.Time.Parser

/-!
# Times that are read as they were written

The parts of a written time are read off its front one after the other, each by a step lemma that
says what is left: `readYear_written`, `readField_padded`, `readFraction_written` and so on.
`parse_write` puts them together with the calendar: every time is read as it was written, leap
seconds, nanoseconds and years of more than four digits included.
-/

set_option autoImplicit false

namespace Pulse.Time

open Pulse.Text

/-! ## Steps -/

section

variable {α β : Type} {r : Reading α} {s s' : List Char} {a : α}

theorem read_bind {f : α → Reading β} (h : r s = .ok (a, s')) : (r >>= f) s = f a s' := by
  show (r s >>= fun p => f p.1 p.2) = _
  rw [h]
  rfl

end

theorem isBlank_of_isDigit {c : Char} (h : c.isDigit = true) : isBlank c = false := by
  simp only [Char.isDigit, Bool.and_eq_true, decide_eq_true_eq, UInt32.le_iff_toNat_le] at h
  have hlow : 48 ≤ c.toNat := h.1
  have hhigh : c.toNat ≤ 57 := h.2
  simp only [isBlank, blankRanges, List.any_cons, List.any_nil, Bool.or_false, Bool.or_eq_false_iff,
    Bool.and_eq_false_imp, decide_eq_true_eq, decide_eq_false_iff_not]
  omega

theorem skipBlanks_cons {c : Char} (h : isBlank c = false) (s : List Char) :
    skipBlanks (c :: s) = .ok ((), c :: s) := by
  have htrim : trimLeft (c :: s) = c :: s := by
    rw [trimLeft, List.dropWhile_cons_of_neg (by simp [h])]
  show Except.ok ((), trimLeft (c :: s)) = _
  rw [htrim]

theorem skipBlanks_digits {ds : List Char} (h : ∀ c ∈ ds, c.isDigit = true) (hne : ds ≠ [])
    (rest : List Char) : skipBlanks (ds ++ rest) = .ok ((), ds ++ rest) := by
  cases ds with
  | nil => exact absurd rfl hne
  | cons c ds => exact skipBlanks_cons (isBlank_of_isDigit (h c List.mem_cons_self)) _

/-- What follows a row of digits is no digit. -/
def EndsDigits (rest : List Char) : Prop :=
  ∀ c ∈ rest.head?, c.isDigit = false

theorem endsDigits_cons {c : Char} (h : c.isDigit = false) (rest : List Char) :
    EndsDigits (c :: rest) := by
  intro d hd
  obtain rfl := Option.some_inj.1 hd
  exact h

theorem takeWhile_isDigit {ds rest : List Char} (h : ∀ c ∈ ds, c.isDigit = true)
    (hrest : EndsDigits rest) : (ds ++ rest).takeWhile Char.isDigit = ds := by
  rw [List.takeWhile_append_of_pos h]
  cases rest with
  | nil => simp
  | cons c rest => simp [hrest c rfl]

theorem readNumber_none {ds rest : List Char} (h : ∀ c ∈ ds, c.isDigit = true) (hne : ds ≠ [])
    (hrest : EndsDigits rest) : readNumber none (ds ++ rest) = .ok (digitsValue ds, rest) := by
  rw [readNumber]
  simp only [takeWhile_isDigit h hrest]
  rw [if_neg (by simp [hne]), if_neg (by simp [hne]), List.drop_left]

theorem EndsDigits.take {rest : List Char} (h : EndsDigits rest) (n : Nat) :
    EndsDigits (rest.take n) := by
  cases n with
  | zero => simp [EndsDigits]
  | succ n =>
    cases rest with
    | nil => exact h
    | cons c rest => exact h

/-- A row of digits is read up to its end or up to its greatest length. -/
theorem readNumber_some {ds rest : List Char} {most : Nat} (h : ∀ c ∈ ds, c.isDigit = true)
    (hne : ds ≠ []) (hle : ds.length ≤ most) (hrest : ds.length = most ∨ EndsDigits rest) :
    readNumber (some most) (ds ++ rest) = .ok (digitsValue ds, rest) := by
  have htake : ((ds ++ rest).take most).takeWhile Char.isDigit = ds := by
    rw [List.take_append, List.take_of_length_le hle]
    refine takeWhile_isDigit h ?_
    rcases hrest with hlength | hrest
    · rw [hlength, Nat.sub_self, List.take_zero]
      simp [EndsDigits]
    · exact hrest.take _
  rw [readNumber]
  simp only [htake]
  rw [if_neg (by simp [hne]), if_neg (by simp [hne]), List.drop_left]

theorem readMark_cons {accepted : Char → Bool} {c : Char} (h : accepted c = true)
    (rest : List Char) : readMark accepted (c :: rest) = .ok ((), rest) :=
  if_pos h

/-! ## Fields -/

theorem readField_padded {low high n : Nat} (hlow : low ≤ n) (hhigh : n ≤ high) (hn : n < 100)
    (rest : List Char) : readField low high (padded 2 n ++ rest) = .ok (n, rest) := by
  have hdigit := isDigit_padded 2 n
  have hlength : (padded 2 n).length = 2 := length_padded (by decide) hn
  rw [readField, read_bind (skipBlanks_digits hdigit (padded_ne_nil 2 n) rest),
    read_bind (readNumber_some hdigit (padded_ne_nil 2 n) hlength.le (.inl hlength)),
    digitsValue_padded, if_pos ⟨hlow, hhigh⟩]
  rfl

theorem mem_of_append_eq_cons {ds rest s : List Char} {c : Char} (hne : ds ≠ [])
    (h : ds ++ rest = c :: s) : c ∈ ds := by
  cases ds with
  | nil => exact absurd rfl hne
  | cons d ds =>
    rw [List.cons_append, List.cons.injEq] at h
    rw [h.1]
    exact List.mem_cons_self

/-- The sign and the digits of a year, which a line follows. -/
theorem readYearDigits_written (year : Int) (rest : List Char) :
    readYearDigits (writeYear year ++ '-' :: rest) = .ok (year, '-' :: rest) := by
  have hends : EndsDigits ('-' :: rest) := endsDigits_cons (by decide) rest
  rw [writeYear]
  split_ifs with hshort hneg
  · have hlength : (padded 4 year.toNat).length = 4 := length_padded (by decide) (by omega)
    have hnumber : readNumber (some 4) (padded 4 year.toNat ++ '-' :: rest) =
        .ok (digitsValue (padded 4 year.toNat), '-' :: rest) :=
      readNumber_some (isDigit_padded 4 _) (padded_ne_nil 4 _) hlength.le (.inl hlength)
    have hread : readYearDigits (padded 4 year.toNat ++ '-' :: rest) =
        (do return Int.ofNat (← readNumber (some 4)) : Reading Int)
          (padded 4 year.toNat ++ '-' :: rest) := by
      refine readYearDigits.eq_3 _ (fun s hs => ?_) (fun s hs => ?_)
      · have hmem := mem_of_append_eq_cons (padded_ne_nil 4 _) hs
        exact absurd (isDigit_padded 4 _ '-' hmem) (by decide)
      · have hmem := mem_of_append_eq_cons (padded_ne_nil 4 _) hs
        exact absurd (isDigit_padded 4 _ '+' hmem) (by decide)
    rw [hread, read_bind hnumber, digitsValue_padded]
    show Except.ok (Int.ofNat year.toNat, _) = _
    rw [Int.ofNat_eq_natCast, Int.toNat_of_nonneg hshort.1]
  · show (do return -Int.ofNat (← readNumber none) : Reading Int)
      (padded 4 year.natAbs ++ '-' :: rest) = _
    rw [read_bind (readNumber_none (isDigit_padded 4 _) (padded_ne_nil 4 _) hends),
      digitsValue_padded]
    show Except.ok (-Int.ofNat year.natAbs, _) = _
    rw [Int.ofNat_eq_natCast, Int.ofNat_natAbs_of_nonpos (by omega), Int.neg_neg]
  · show (do return Int.ofNat (← readNumber none) : Reading Int)
      (padded 4 year.natAbs ++ '-' :: rest) = _
    rw [read_bind (readNumber_none (isDigit_padded 4 _) (padded_ne_nil 4 _) hends),
      digitsValue_padded]
    show Except.ok (Int.ofNat year.natAbs, _) = _
    rw [Int.ofNat_eq_natCast, Int.natAbs_of_nonneg (by omega)]

theorem skipBlanks_writeYear (year : Int) (rest : List Char) :
    skipBlanks (writeYear year ++ rest) = .ok ((), writeYear year ++ rest) := by
  rw [writeYear]
  split_ifs
  · exact skipBlanks_digits (isDigit_padded 4 _) (padded_ne_nil 4 _) _
  · exact skipBlanks_cons (by decide) _
  · exact skipBlanks_cons (by decide) _

/-- A year, which a line follows. -/
theorem readYear_written {year : Int} (h : year.natAbs < 1000000) (rest : List Char) :
    readYear (writeYear year ++ '-' :: rest) = .ok (year, '-' :: rest) := by
  have hfits : yearFits year = true := by
    simp only [yearFits, Bool.and_eq_true, decide_eq_true_eq]
    omega
  rw [readYear, read_bind (skipBlanks_writeYear year _),
    read_bind (readYearDigits_written year rest), if_pos hfits]
  rfl

theorem readCivilDay_written {c : CivilDay} {number : Int} (hname : c.IsNameOf number)
    (hyear : c.year.natAbs < 1000000) (rest : List Char) :
    readCivilDay (c.write ++ rest) = .ok (c, rest) := by
  have hday := hname.day_le.trans (daysInMonth_le _ _)
  have hmonth := hname.month_le
  have hline (s : List Char) : skipBlanks ('-' :: s) = .ok ((), '-' :: s) :=
    skipBlanks_cons (by decide) s
  have hmark (s : List Char) : readMark (· = '-') ('-' :: s) = .ok ((), s) :=
    readMark_cons (by decide) s
  rw [CivilDay.write, List.append_assoc, List.cons_append, List.append_assoc, List.cons_append,
    readCivilDay, read_bind (readYear_written hyear _), read_bind (hline _), read_bind (hmark _),
    read_bind (readField_padded hname.month_pos hmonth (by omega) _), read_bind (hline _),
    read_bind (hmark _), read_bind (readField_padded hname.day_pos hday (by omega) _)]
  rfl

/-- The fraction of a second, which the mark of universal time follows. -/
theorem readFraction_written {nano : Nat} (h : nano < 1000000000) :
    readFraction (writeFraction nano ++ ['Z']) = .ok (nano, ['Z']) := by
  have hstep : ∀ width n, 0 < width → width ≤ 9 → n < 10 ^ width →
      readFraction ('.' :: padded width n ++ ['Z']) = .ok (n * 10 ^ (9 - width), ['Z']) := by
    intro width n hpos hle hn
    have hdigit := isDigit_padded width n
    have hlength : (padded width n).length = width := length_padded hpos hn
    have hends : EndsDigits ['Z'] := endsDigits_cons (by decide) []
    show (readNumber (some 9) (padded width n ++ ['Z']) >>= fun p =>
      .ok (p.1 * Nat.pow 10 (9 - ((padded width n ++ ['Z']).length - p.2.length)),
        p.2.dropWhile Char.isDigit) : Except ParseFault (Nat × List Char)) = _
    rw [readNumber_some hdigit (padded_ne_nil width n) (hlength.le.trans hle) (.inr hends)]
    show Except.ok (digitsValue (padded width n) *
      Nat.pow 10 (9 - ((padded width n ++ ['Z']).length - 1)), ['Z']) = _
    rw [List.length_append, List.length_singleton, Nat.add_sub_cancel, hlength, digitsValue_padded]
    rfl
  rw [writeFraction]
  split_ifs with hzero hmillis hmicros
  · rw [hzero]
    rfl
  · rw [hstep 3 _ (by decide) (by decide) (by omega)]
    have hn : nano / 1000000 * 10 ^ (9 - 3) = nano := by omega
    rw [hn]
  · rw [hstep 6 _ (by decide) (by decide) (by omega)]
    have hn : nano / 1000 * 10 ^ (9 - 6) = nano := by omega
    rw [hn]
  · rw [hstep 9 _ (by decide) (by decide) (by omega)]
    have hn : nano * 10 ^ (9 - 9) = nano := by omega
    rw [hn]

theorem readClockTime_written (hour minute second nano : Nat) (hhour : hour ≤ 23)
    (hminute : minute ≤ 59) (hsecond : second ≤ 60) (hnano : nano < 1000000000) :
    readClockTime (padded 2 hour ++ ':' :: (padded 2 minute ++ ':' ::
        (padded 2 second ++ (writeFraction nano ++ ['Z'])))) =
      .ok (⟨hour, minute, second, nano⟩, ['Z']) := by
  have hcolon (s : List Char) : skipBlanks (':' :: s) = .ok ((), ':' :: s) :=
    skipBlanks_cons (by decide) s
  have hmark (s : List Char) : readMark (· = ':') (':' :: s) = .ok ((), s) :=
    readMark_cons (by decide) s
  rw [readClockTime, read_bind (readField_padded (Nat.zero_le _) hhour (by omega) _),
    read_bind (hcolon _), read_bind (hmark _),
    read_bind (readField_padded (Nat.zero_le _) hminute (by omega) _), read_bind (hcolon _),
    read_bind (hmark _), read_bind (readField_padded (Nat.zero_le _) hsecond (by omega) _),
    read_bind (readFraction_written hnano)]
  rfl

/-! ## Times -/

/-- A clock of universal time shows the time that it was taken from. -/
theorem Instant.ofClock_civil (t : Instant) :
    Instant.ofClock t.date.civil ⟨t.second / 3600, t.second / 60 % 60,
      t.second % 60 + (if t.isLeap then 1 else 0), t.nano % 1000000000⟩ 0 = .ok t := by
  have hsecond := t.second_lt
  have hnano := t.nano_lt
  have hleap := t.leap
  rw [Instant.ofClock, ofCivil?_civil]
  simp only
  rw [if_neg (by decide)]
  have hparts : Instant.ofParts? t.day t.second t.nano = some t :=
    dif_pos ⟨⟨t.first_le, t.le_last⟩, t.second_lt, t.nano_lt, t.leap⟩
  by_cases hisLeap : t.isLeap = true
  · have hle : 1000000000 ≤ t.nano := by simpa [Instant.isLeap] using hisLeap
    have hlast : t.second % 60 = 59 := by omega
    have hsum : ((t.second / 3600 : Nat) : Int) * 3600 + ((t.second / 60 % 60 : Nat) : Int) * 60 +
        ((59 + 1 - 1 : Nat) : Int) - 0 = t.second := by omega
    have hn : t.nano % 1000000000 + 1 * 1000000000 = t.nano := by omega
    have hday : t.date.number + (t.second : Int) / 86400 = t.day := by
      show t.day + _ = t.day
      omega
    have hclock : ((t.second : Int) % 86400).toNat = t.second := by omega
    rw [hisLeap, if_pos rfl, hlast, if_pos rfl, hsum, hn, hday, hclock, hparts]
  · rw [Bool.not_eq_true] at hisLeap
    have hlt : t.nano < 1000000000 := by simpa [Instant.isLeap] using hisLeap
    have hne : ¬ t.second % 60 + 0 = 60 := by omega
    have hsum : ((t.second / 3600 : Nat) : Int) * 3600 + ((t.second / 60 % 60 : Nat) : Int) * 60 +
        ((t.second % 60 + 0 - 0 : Nat) : Int) - 0 = t.second := by omega
    have hn : t.nano % 1000000000 + 0 * 1000000000 = t.nano := by omega
    have hday : t.date.number + (t.second : Int) / 86400 = t.day := by
      show t.day + _ = t.day
      omega
    have hclock : ((t.second : Int) % 86400).toNat = t.second := by omega
    rw [hisLeap, if_neg Bool.false_ne_true, if_neg hne, hsum, hn, hday, hclock, hparts]

/-- **Every time is read as it was written.** -/
theorem Instant.parse_text (t : Instant) : Instant.parse t.text = .ok t := by
  have hsecond := t.second_lt
  have hname : t.date.civil.IsNameOf t.date.number := civil_isNameOf _
  have hmark (s : List Char) :
      readMark (fun c => c = 'T' || c = 't' || c = ' ') ('T' :: s) = .ok ((), s) :=
    readMark_cons (by decide) s
  have hclock := readClockTime_written (t.second / 3600) (t.second / 60 % 60)
    (t.second % 60 + if t.isLeap then 1 else 0) (t.nano % 1000000000) (by omega) (by omega)
    (by split_ifs <;> omega) (by omega)
  have hwrite : t.write = t.date.civil.write ++ 'T' :: (padded 2 (t.second / 3600) ++ ':' ::
      (padded 2 (t.second / 60 % 60) ++ ':' ::
        (padded 2 (t.second % 60 + if t.isLeap then 1 else 0) ++
          (writeFraction (t.nano % 1000000000) ++ ['Z'])))) := by
    simp [Instant.write]
  rw [Instant.parse, Instant.text, String.toList_ofList, hwrite]
  simp only
  rw [read_bind (readCivilDay_written hname (natAbs_year_le _) _), read_bind (hmark _),
    read_bind hclock]
  exact t.ofClock_civil

end Pulse.Time
