import Pulse.Proofs.Text.Digits
import Pulse.Proofs.Time.Reading
import Pulse.Schedule

/-!
# What a fixed period may be

The text of a fixed period passes several checks: its shape, the script of its digits, the size of
each number, of each number in seconds and of each partial sum, and at last the sum.  Together they
come to what the text says: it writes a duration, which is positive and fits 64 bits of
milliseconds.

* `Writes` — a text writes so many milliseconds.
* `splitParts_eq_some_iff`, `readAmount_eq_ok_iff` — how a text is cut into parts, and how their
  numbers are read.
* `Period.parse_eq_ok_iff` — no check refuses anything that the last one would admit.
* `every_exact` — which schedules with `@every` are admitted, and when they fire.
-/

set_option autoImplicit false

namespace Pulse.Schedule

open Text (isDecimalDigit isDecimalDigit_of_isDigit digitsValue digitValue)
open Time (Instant Span)

/-! ## Written durations -/

/-- The letters of a unit. -/
def TimeUnit.letters : TimeUnit → List Char
  | .millisecond => ['m', 's']
  | .second => ['s']
  | .minute => ['m']
  | .hour => ['h']

/-- A part as it is written. -/
def Part.write (part : Part) : List Char :=
  part.digits ++ part.unit.letters

/-- The number of a part is written, with digits of the kind only. -/
structure Part.Uses (digit : Char → Bool) (part : Part) : Prop where
  ne_nil : part.digits ≠ []
  all_digits : ∀ c ∈ part.digits, digit c = true

instance (digit : Char → Bool) (part : Part) : Decidable (part.Uses digit) :=
  decidable_of_iff (part.digits ≠ [] ∧ part.digits.all digit = true)
    ⟨fun h => ⟨h.1, List.all_eq_true.1 h.2⟩, fun h => ⟨h.ne_nil, List.all_eq_true.2 h.all_digits⟩⟩

/-- The milliseconds of a part with ASCII digits. -/
def Part.millis (part : Part) : Nat :=
  digitsValue part.digits * part.unit.millis

/-- The text is made of parts with digits of the kind. -/
structure IsCut (digit : Char → Bool) (text : List Char) (parts : List Part) : Prop where
  write_eq : parts.flatMap Part.write = text
  uses : ∀ part ∈ parts, part.Uses digit

/-- The text is made of parts with ASCII digits, at least one, which add up to `millis`. -/
def Writes (text : List Char) (millis : Nat) : Prop :=
  ∃ parts : List Part, parts ≠ [] ∧ IsCut Char.isDigit text parts ∧
    (parts.map Part.millis).sum = millis

variable {text rest digits row : List Char} {parts : List Part} {part : Part} {unit : TimeUnit}

/-- ASCII digits are digits. -/
theorem IsCut.of_isDigit (h : IsCut Char.isDigit text parts) : IsCut isDecimalDigit text parts :=
  ⟨h.write_eq, fun part hpart =>
    ⟨(h.uses part hpart).ne_nil, fun c hc =>
      isDecimalDigit_of_isDigit ((h.uses part hpart).all_digits c hc)⟩⟩

/-! ## Cutting a text into parts -/

/-- The unit ends a part, and the rest is cut by itself. -/
theorem isCut_of_map (hne : ¬ digits.isEmpty = true)
    (hdigits : ∀ c ∈ digits, isDecimalDigit c = true)
    (hrest : ∀ parts, splitFrom [] rest = some parts → IsCut isDecimalDigit rest parts)
    (h : (splitFrom [] rest).map (⟨digits.reverse, unit⟩ :: ·) = some parts) :
    IsCut isDecimalDigit (digits.reverse ++ (unit.letters ++ rest)) parts := by
  obtain ⟨later, hlater, rfl⟩ := Option.map_eq_some_iff.1 h
  obtain ⟨hwrite, huses⟩ := hrest later hlater
  refine ⟨by simp [Part.write, hwrite], List.forall_mem_cons.2 ⟨⟨?_, ?_⟩, huses⟩⟩
  · simpa using hne
  · simpa using hdigits

/-- The parts that are found make up the text. -/
theorem isCut_of_splitFrom (hdigits : ∀ c ∈ digits, isDecimalDigit c = true)
    (h : splitFrom digits text = some parts) :
    IsCut isDecimalDigit (digits.reverse ++ text) parts := by
  fun_induction splitFrom digits text generalizing parts with
  | case1 =>
    cases h
    exact ⟨rfl, List.forall_mem_nil _⟩
  | case2 => cases h
  | case3 digits c rest hc ih =>
    simpa using ih (List.forall_mem_cons.2 ⟨hc, hdigits⟩) h
  | case4 => cases h
  | case5 digits rest hne _ ih =>
    exact isCut_of_map hne hdigits (fun _ => ih (List.forall_mem_nil _)) h
  | case6 digits rest hne _ _ ih =>
    exact isCut_of_map hne hdigits (fun _ => ih (List.forall_mem_nil _)) h
  | case7 digits hne rest _ _ _ ih =>
    exact isCut_of_map hne hdigits (fun _ => ih (List.forall_mem_nil _)) h
  | case8 digits hne rest _ _ _ _ ih =>
    exact isCut_of_map hne hdigits (fun _ => ih (List.forall_mem_nil _)) h
  | case9 => cases h

theorem splitFrom_digits (hrow : ∀ c ∈ row, isDecimalDigit c = true) (digits rest : List Char) :
    splitFrom digits (row ++ rest) = splitFrom (row.reverse ++ digits) rest := by
  induction row generalizing digits with
  | nil => rfl
  | cons c row ih =>
    obtain ⟨hc, hrow⟩ := List.forall_mem_cons.1 hrow
    rw [List.cons_append, splitFrom.eq_def]
    simp [hc, ih hrow]

/-- An `m` stands for minutes unless an `s` follows. -/
theorem splitFrom_letters (hne : digits ≠ []) (hms : unit = .minute → rest.head? ≠ some 's') :
    splitFrom digits (unit.letters ++ rest) =
      (splitFrom [] rest).map (⟨digits.reverse, unit⟩ :: ·) := by
  have hdigits : digits.isEmpty = false := by simpa using hne
  have hh : isDecimalDigit 'h' = false := by decide
  have hm : isDecimalDigit 'm' = false := by decide
  have hs : isDecimalDigit 's' = false := by decide
  cases unit with
  | millisecond => simp [TimeUnit.letters, splitFrom, hdigits, hm]
  | second =>
    rw [TimeUnit.letters, List.singleton_append, splitFrom.eq_def]
    simp [hdigits, hs]
  | hour =>
    rw [TimeUnit.letters, List.singleton_append, splitFrom.eq_def]
    simp [hdigits, hh]
  | minute =>
    have hrest : ∀ later, rest ≠ 's' :: later := fun later heq => hms rfl (heq ▸ rfl)
    rw [TimeUnit.letters, List.singleton_append, splitFrom.eq_def]
    simp only [hdigits, hm, Bool.false_eq_true, Char.reduceEq, reduceIte]

/-- No part starts with a letter. -/
theorem head?_write_ne_s (huses : ∀ part ∈ parts, part.Uses isDecimalDigit) :
    (parts.flatMap Part.write).head? ≠ some 's' := by
  cases parts with
  | nil => simp
  | cons part parts =>
    obtain ⟨hne, hdigits⟩ := huses part List.mem_cons_self
    obtain ⟨c, row, hrow⟩ := List.exists_cons_of_ne_nil hne
    have hc : isDecimalDigit c = true := hdigits c (hrow ▸ List.mem_cons_self)
    intro hs
    have : c = 's' := by simpa [Part.write, hrow] using hs
    subst this
    exact absurd hc (by decide)

/-- **Every cut of a text is found.** -/
theorem IsCut.splitFrom_eq (h : IsCut isDecimalDigit text parts) :
    splitFrom [] text = some parts := by
  obtain ⟨rfl, huses⟩ := h
  induction parts with
  | nil => rfl
  | cons part parts ih =>
    obtain ⟨⟨hne, hdigits⟩, huses⟩ := List.forall_mem_cons.1 huses
    have hlater := head?_write_ne_s huses
    rw [List.flatMap_cons, Part.write, List.append_assoc, splitFrom_digits hdigits,
      List.append_nil, splitFrom_letters (by simpa using hne) fun _ => hlater, ih huses,
      Option.map_some, List.reverse_reverse]

theorem splitParts_eq_some_iff :
    splitParts text = some parts ↔ parts ≠ [] ∧ IsCut isDecimalDigit text parts := by
  have hcut : splitFrom [] text = some parts ↔ IsCut isDecimalDigit text parts :=
    ⟨isCut_of_splitFrom (List.forall_mem_nil _), IsCut.splitFrom_eq⟩
  rw [← hcut, splitParts]
  split
  · next hnone =>
    rw [hnone]
    simp [eq_comm]
  · next hsome =>
    refine ⟨fun h => ⟨?_, h⟩, fun h => h.2⟩
    rintro rfl
    exact hsome h

/-! ## Reading numbers -/

/-- A row of digits is read as a number exactly if these are ASCII digits and the number fits 64
bits; zeros in front do not matter. -/
theorem readAmount_eq_ok_iff {all : List Char} {n m : Nat} (hn : n ≤ amountMax) :
    readAmount all n row = .ok m ↔
      (∀ c ∈ row, c.isDigit = true) ∧ Nat.ofDigitChars 10 row n = m ∧ m ≤ amountMax := by
  induction row generalizing n with
  | nil =>
    rw [readAmount, Except.ok.injEq]
    constructor
    · rintro rfl
      exact ⟨List.forall_mem_nil _, rfl, hn⟩
    · exact fun h => h.2.1
  | cons c row ih =>
    have hvalue : 10 * n + digitValue c = 10 * n + (c.toNat - '0'.toNat) := rfl
    rw [readAmount, List.forall_mem_cons, Nat.ofDigitChars_cons, ← hvalue]
    by_cases hc : c.isDigit = true
    · rw [if_neg (by simp [hc])]
      by_cases hlong : amountMax < 10 * n + digitValue c
      · -- The number only grows from here.
        rw [if_pos hlong, Nat.ofDigitChars_eq_ofDigitChars_zero]
        have hgrow := Nat.le_mul_of_pos_left (10 * n + digitValue c)
          (Nat.pow_pos (n := row.length) (by decide : 0 < 10))
        refine iff_of_false (by simp) fun ⟨_, hm, hle⟩ => ?_
        omega
      · rw [if_neg hlong, ih (not_lt.1 hlong)]
        exact ⟨fun ⟨hrow, h⟩ => ⟨⟨hc, hrow⟩, h⟩, fun ⟨⟨_, hrow⟩, h⟩ => ⟨hrow, h⟩⟩
    · rw [if_pos (by simp [hc])]
      exact iff_of_false (by simp) fun h => hc h.1.1

/-! ## Sums -/

theorem Part.seconds_le (part : Part) :
    Part.seconds part.unit (digitsValue part.digits) * 1000 ≤ part.millis := by
  rw [Part.millis]
  cases part.unit <;> simp only [Part.seconds, TimeUnit.millis] <;> omega

theorem Part.amount_le (part : Part) : digitsValue part.digits ≤ part.millis := by
  rw [Part.millis]
  cases part.unit <;> simp only [TimeUnit.millis] <;> omega

/-- One part is added. -/
theorem total_cons_eq_ok_iff {sum millis : Nat} :
    total sum (part :: parts) = .ok millis ↔
      readAmount part.digits 0 part.digits = .ok (digitsValue part.digits) ∧
        Part.seconds part.unit (digitsValue part.digits) ≤ amountMax ∧
          (sum + part.millis) / 1000 ≤ amountMax ∧ total (sum + part.millis) parts = .ok millis := by
  rw [total]
  cases hamount : readAmount part.digits 0 part.digits with
  | error fault => exact iff_of_false (fun h => by cases h) fun h => by cases h.1
  | ok amount =>
    obtain ⟨-, rfl, -⟩ := (readAmount_eq_ok_iff (Nat.zero_le _)).1 hamount
    show (if amountMax < Part.seconds part.unit (digitsValue part.digits) then Except.error .tooLarge
      else if amountMax < (sum + part.millis) / 1000 then .error .tooLarge
      else total (sum + part.millis) parts) = .ok millis ↔ _
    split_ifs with hseconds hsum
    · exact iff_of_false (fun h => by cases h) fun h => absurd hseconds (not_lt.2 h.2.1)
    · exact iff_of_false (fun h => by cases h) fun h => absurd hsum (not_lt.2 h.2.2.1)
    · exact ⟨fun h => ⟨rfl, not_lt.1 hseconds, not_lt.1 hsum, h⟩, fun h => h.2.2.2⟩

/-- A sum that is found is that of the parts, and their digits are ASCII digits. -/
theorem eq_of_total {sum millis : Nat} (h : total sum parts = .ok millis) :
    (∀ part ∈ parts, ∀ c ∈ part.digits, c.isDigit = true) ∧
      sum + (parts.map Part.millis).sum = millis := by
  induction parts generalizing sum with
  | nil =>
    cases h
    exact ⟨List.forall_mem_nil _, rfl⟩
  | cons part parts ih =>
    obtain ⟨hread, -, -, hrest⟩ := total_cons_eq_ok_iff.1 h
    obtain ⟨hdigits, hsum⟩ := ih hrest
    refine ⟨List.forall_mem_cons.2 ⟨?_, hdigits⟩, ?_⟩
    · exact ((readAmount_eq_ok_iff (Nat.zero_le _)).1 hread).1
    · rw [List.map_cons, List.sum_cons, ← Nat.add_assoc, hsum]

/-- A sum that is small enough is found. -/
theorem total_eq_ok (hdigits : ∀ part ∈ parts, ∀ c ∈ part.digits, c.isDigit = true) {sum : Nat}
    (hle : sum + (parts.map Part.millis).sum ≤ periodMax) :
    total sum parts = .ok (sum + (parts.map Part.millis).sum) := by
  induction parts generalizing sum with
  | nil => rfl
  | cons part parts ih =>
    obtain ⟨hpart, hdigits⟩ := List.forall_mem_cons.1 hdigits
    rw [List.map_cons, List.sum_cons, ← Nat.add_assoc] at hle ⊢
    have hseconds := part.seconds_le
    have hamount := part.amount_le
    have hmax : periodMax ≤ amountMax := by decide
    refine total_cons_eq_ok_iff.2 ⟨?_, by omega, by omega, ih hdigits hle⟩
    exact (readAmount_eq_ok_iff (Nat.zero_le _)).2 ⟨hpart, rfl, by omega⟩

/-- **What is a period**: a text is one exactly if it writes a duration that is positive and fits. -/
theorem Period.parse_eq_ok_iff {period : Period} :
    Period.parse text = .ok period ↔ Writes text period.millis := by
  rw [Period.parse]
  constructor
  · intro h
    split at h
    · cases h
    · next parts hparts =>
      obtain ⟨hne, hcut⟩ := splitParts_eq_some_iff.1 hparts
      split at h
      · cases h
      · next millis htotal =>
        obtain ⟨hdigits, hsum⟩ := eq_of_total htotal
        split_ifs at h
        cases h
        refine ⟨parts, hne, ⟨hcut.write_eq, fun part hpart => ?_⟩, by simpa using hsum⟩
        exact ⟨(hcut.uses part hpart).ne_nil, hdigits part hpart⟩
  · rintro ⟨parts, hne, hcut, hsum⟩
    have hparts : splitParts text = some parts :=
      splitParts_eq_some_iff.2 ⟨hne, hcut.of_isDigit⟩
    have htotal : total 0 parts = .ok period.millis := by
      rw [← hsum, ← Nat.zero_add (parts.map Part.millis).sum]
      refine total_eq_ok (fun part hpart => (hcut.uses part hpart).all_digits) ?_
      rw [Nat.zero_add, hsum]
      exact period.fits
    rw [hparts]
    simp only [htotal]
    rw [dif_pos period.positive, dif_pos period.fits]

/-! ## Schedules with a period -/

theorem parse_of_everyWord {s : String} (h : Text.trim s.toList = everyWord ++ rest) :
    parse s = match Period.parse (Text.trim rest) with
      | .ok period => .ok ⟨String.ofList (Text.trim s.toList), .every period⟩
      | .error fault => .error ⟨String.ofList (Text.trim s.toList),
          .period fault (String.ofList (Text.trim rest))⟩ := by
  have hword : everyWord.isPrefixOf (Text.trim s.toList) = true :=
    List.isPrefixOf_iff_prefix.2 ⟨rest, h.symm⟩
  have hdrop : (Text.trim s.toList).drop everyWord.length = rest := by
    rw [h, List.drop_left]
  cases hperiod : Period.parse (Text.trim rest) <;>
    simp only [parse, if_pos hword, hdrop, hperiod]

/-- A schedule with a period fires one period after every moment, unless the calendar ends before. -/
theorem next_of_every {schedule : Schedule} {period : Period} (h : schedule.rule = .every period)
    (t : Instant) :
    (t.clockNanos + Span.ofMillis period.millis < Instant.endNanos →
        ∃ u, t.IsAfter (Span.ofMillis period.millis) u ∧ schedule.next t = .ok (some u)) ∧
      (Instant.endNanos ≤ t.clockNanos + Span.ofMillis period.millis →
        schedule.next t = .ok none) := by
  have hnonneg : 0 ≤ Span.ofMillis period.millis :=
    Int.mul_nonneg (Int.natCast_nonneg _) (by decide)
  simp only [next, h]
  refine ⟨fun hlt => ?_, fun hle => ?_⟩
  · obtain ⟨u, hafter, hadd⟩ := Instant.exists_isAfter hnonneg hlt
    exact ⟨u, hafter, congrArg Except.ok hadd⟩
  · exact congrArg Except.ok (Instant.add?_eq_none hnonneg hle)

/-- **Schedules with `@every`**: such a text is a schedule exactly if what follows the word writes a
duration of at least one millisecond that fits 63 bits of milliseconds, and that is its period.
Every other text is refused with an error, and the schedules that are admitted fire one period after
every moment, as long as there is such a moment. -/
theorem every_exact {s : String} (h : Text.trim s.toList = everyWord ++ rest) :
    (∀ millis : Nat,
        (∃ schedule, parse s = .ok schedule ∧ schedule.period?.map Period.millis = some millis) ↔
          Writes (Text.trim rest) millis ∧ 1 ≤ millis ∧ millis ≤ 2 ^ 63 - 1) ∧
      ((¬ ∃ millis, Writes (Text.trim rest) millis ∧ 1 ≤ millis ∧ millis ≤ 2 ^ 63 - 1) →
        ∃ fault, parse s = .error ⟨String.ofList (Text.trim s.toList),
          .period fault (String.ofList (Text.trim rest))⟩) ∧
      ∀ schedule, parse s = .ok schedule → ∃ period, schedule.period? = some period ∧
        ∀ t : Instant,
          (t.clockNanos + Span.ofMillis period.millis < Instant.endNanos →
            ∃ u, t.IsAfter (Span.ofMillis period.millis) u ∧ schedule.next t = .ok (some u)) ∧
          (Instant.endNanos ≤ t.clockNanos + Span.ofMillis period.millis →
            schedule.next t = .ok none) := by
  have hparse := parse_of_everyWord h
  cases hperiod : Period.parse (Text.trim rest) with
  | ok period =>
    rw [hperiod] at hparse
    have hwrites := Period.parse_eq_ok_iff.1 hperiod
    refine ⟨fun millis => ⟨?_, ?_⟩, fun hnone => ?_, fun schedule hschedule => ?_⟩
    · rintro ⟨schedule, hschedule, hmillis⟩
      rw [hparse] at hschedule
      cases hschedule
      cases hmillis
      exact ⟨hwrites, period.positive, period.fits⟩
    · rintro ⟨hwritten, hpositive, hfits⟩
      have hperiod' : Period.parse (Text.trim rest) = .ok ⟨millis, hpositive, hfits⟩ :=
        Period.parse_eq_ok_iff.2 hwritten
      rw [hperiod, Except.ok.injEq] at hperiod'
      exact ⟨_, hparse, by rw [hperiod']; rfl⟩
    · exact absurd ⟨period.millis, hwrites, period.positive, period.fits⟩ hnone
    · rw [hparse] at hschedule
      cases hschedule
      exact ⟨period, rfl, next_of_every rfl⟩
  | error fault =>
    rw [hperiod] at hparse
    have hrefused (schedule : Schedule) : parse s ≠ .ok schedule := by
      rw [hparse]
      exact fun h => by cases h
    refine ⟨fun millis => ⟨?_, ?_⟩, fun _ => ⟨fault, hparse⟩, fun schedule hschedule => ?_⟩
    · rintro ⟨schedule, hschedule, -⟩
      exact absurd hschedule (hrefused schedule)
    · rintro ⟨hwritten, hpositive, hfits⟩
      have hperiod' : Period.parse (Text.trim rest) = .ok ⟨millis, hpositive, hfits⟩ :=
        Period.parse_eq_ok_iff.2 hwritten
      rw [hperiod] at hperiod'
      cases hperiod'
    · exact absurd hschedule (hrefused schedule)

/-- A minute, half a minute and a quarter of a second. -/
theorem every_exact_minute :
    Text.trim " @every 1m30s250ms".toList = everyWord ++ " 1m30s250ms".toList ∧
      ∃ schedule, parse " @every 1m30s250ms" = .ok schedule ∧
        schedule.period?.map Period.millis = some 90250 := by
  have h : Text.trim " @every 1m30s250ms".toList = everyWord ++ " 1m30s250ms".toList := by cbv
  refine ⟨h, ((every_exact h).1 90250).2 ⟨?_, by decide, by decide⟩⟩
  exact ⟨[⟨['1'], .minute⟩, ⟨['3', '0'], .second⟩, ⟨['2', '5', '0'], .millisecond⟩], by decide,
    ⟨by cbv, by decide⟩, rfl⟩

end Pulse.Schedule
