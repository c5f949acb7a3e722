import Mathlib.Data.List.Chain
import Pulse.Proofs.Time.Shift
import Pulse.Scheduler.Task

/-!
# From fire to fire

The next fire of a schedule is after the moment from which it is looked up, whatever the schedule
is.  That is all that a driver needs in order to go forward: after a fire it looks the next one up
from the fire itself, and from the clock if that one is in the past already, so it never waits for a
moment again, nor for one that is in the past.

* `lt_of_next` — schedules look forward.
* `Chooses` — the fire that a driver chooses after another one, as `Task.following` computes it.
* `Course` — the fires of a driver, one after the other, with the readings of its clock.
* `Course.pairwise_awaited`, `Course.getElem?_awaited` — the fires ascend, and as long as the driver
  keeps up with its schedule they are the fires of the schedule, none of them left out.
-/

set_option autoImplicit false

namespace Pulse

open Time (Instant)

namespace Schedule

/-! ## Schedules look forward -/

namespace Cron

variable {cron : Cron} {first day : Int} {start year month second : Nat}

theorem le_of_secondFrom? (h : cron.secondFrom? start = some second) : start ≤ second := by
  obtain ⟨hour, -, hhour⟩ := List.exists_of_findSome?_eq_some h
  split_ifs at hhour
  obtain ⟨minute, -, hminute⟩ := List.exists_of_findSome?_eq_some hhour
  split_ifs at hminute
  obtain ⟨last, -, hlast⟩ := List.exists_of_findSome?_eq_some hminute
  dsimp only at hlast
  split_ifs at hlast with hlt
  cases hlast
  exact not_lt.1 hlt

theorem le_of_inMonth? (h : cron.inMonth? first start year month = some (day, second)) :
    first ≤ day ∧ (day = first → start ≤ second) := by
  obtain ⟨number, -, hnumber⟩ := List.exists_of_findSome?_eq_some h
  dsimp only at hnumber
  split_ifs at hnumber with hout hfirst
  · obtain ⟨found, hfound, heq⟩ := Option.map_eq_some_iff.1 hnumber
    cases heq
    exact ⟨by omega, fun _ => le_of_secondFrom? hfound⟩
  · obtain ⟨found, hfound, heq⟩ := Option.map_eq_some_iff.1 hnumber
    cases heq
    exact ⟨by omega, fun heq => absurd heq hfirst⟩

theorem le_of_nextFrom? (h : cron.nextFrom? first start = some (day, second)) :
    first ≤ day ∧ (day = first → start ≤ second) := by
  obtain ⟨year, -, hyear⟩ := List.exists_of_findSome?_eq_some h
  split_ifs at hyear
  obtain ⟨month, -, hmonth⟩ := List.exists_of_findSome?_eq_some hyear
  split_ifs at hmonth
  exact le_of_inMonth? hmonth

theorem lt_of_next? {t u : Instant} (h : cron.next? t = some u) : t < u := by
  rw [next?] at h
  split_ifs at h
  split at h
  · next day second hfound =>
    obtain ⟨hday, hsecond, hnano⟩ := Instant.ofParts?_eq_some_iff.1 h
    obtain ⟨hfirst, hstart⟩ := le_of_nextFrom? hfound
    have ht := t.second_lt
    have hnano' := t.nano_lt
    rw [Instant.lt_iff_position_lt, Instant.position, Instant.position]
    omega
  · cases h

end Cron

variable {schedule : Schedule} {t u due now : Instant} {next : Option Instant}

/-- **Schedules look forward.** -/
theorem lt_of_next (h : schedule.next t = .ok (some u)) : t < u := by
  rw [Schedule.next] at h
  split at h
  · next period _ =>
    have hpositive : 0 < Time.Span.ofMillis period.millis :=
      Int.mul_pos (Int.natCast_pos.2 period.positive) (by decide)
    exact Instant.lt_of_add?_eq_some hpositive (Except.ok.inj h)
  · cases hadd : t.add Time.Span.second with
    | error e =>
      rw [hadd] at h
      cases h
    | ok later =>
      rw [hadd] at h
      exact Cron.lt_of_next? (Except.ok.inj h)

/-! ## Fires of a schedule -/

/-- The next fire after a moment, if the schedule can be looked up from there and has one. -/
def nextFire? (schedule : Schedule) (t : Instant) : Option Instant :=
  (schedule.next t).toOption.join

theorem nextFire?_eq_of_next (h : schedule.next t = .ok next) : schedule.nextFire? t = next := by
  rw [nextFire?, h]
  rfl

/-- The fires after a moment, numbered from `0`: each is the next one after the one before. -/
def nthFire? (schedule : Schedule) (start : Instant) : Nat → Option Instant
  | 0 => schedule.nextFire? start
  | n + 1 => (schedule.nthFire? start n).bind schedule.nextFire?

/-! ## Choosing the next fire -/

/-- The fire that a driver chooses after the one for `due`, when its clock shows `now`: the next one
of the schedule, or, if that is in the past already, the next after `now`. -/
inductive Chooses (schedule : Schedule) (due now : Instant) : Option Instant → Prop
  | inTime {u : Instant} (hnext : schedule.next due = .ok (some u)) (h : now ≤ u) :
    Chooses schedule due now (some u)
  | late {u : Instant} {next : Option Instant} (hnext : schedule.next due = .ok (some u))
    (h : u < now) (hafter : schedule.next now = .ok next) : Chooses schedule due now next
  | exhausted (hnext : schedule.next due = .ok none) : Chooses schedule due now none

/-- When the clock shows `now`, the next fire after `due` is not in the past. -/
def InTime (schedule : Schedule) (due now : Instant) : Prop :=
  ∀ u, schedule.next due = .ok (some u) → now ≤ u

/-- When the clock shows `now`, there is no fire any more after the one for `due`. -/
def IsOver (schedule : Schedule) (due now : Instant) : Prop :=
  schedule.next due = .ok none ∨
    ∃ u, schedule.next due = .ok (some u) ∧ u < now ∧ schedule.next now = .ok none

namespace Chooses

theorem due_lt (h : schedule.Chooses due now (some u)) (hdue : due ≤ now) : due < u := by
  cases h with
  | inTime hnext _ => exact lt_of_next hnext
  | late _ _ hafter => exact hdue.trans_lt (lt_of_next hafter)

/-- A fire that is chosen is not in the past. -/
theorem now_le (h : schedule.Chooses due now (some u)) : now ≤ u := by
  cases h with
  | inTime _ hle => exact hle
  | late _ _ hafter => exact (lt_of_next hafter).le

theorem nextFire?_eq (h : schedule.Chooses due now next) (htime : schedule.InTime due now) :
    schedule.nextFire? due = next := by
  cases h with
  | inTime hnext _ => exact nextFire?_eq_of_next hnext
  | late hnext hlt _ => exact absurd hlt (not_lt.2 (htime _ hnext))
  | exhausted hnext => exact nextFire?_eq_of_next hnext

/-- A driver that is late looks the next fire up from its clock. -/
theorem next_eq_of_lt (h : schedule.Chooses due now next) (hnext : schedule.next due = .ok (some u))
    (hlt : u < now) : schedule.next now = .ok next := by
  cases h with
  | inTime hnext' hle =>
    rw [hnext] at hnext'
    cases hnext'
    exact absurd hlt (not_lt.2 hle)
  | late _ _ hafter => exact hafter
  | exhausted hnext' =>
    rw [hnext] at hnext'
    cases hnext'

theorem eq_none_iff (h : schedule.Chooses due now next) :
    next = none ↔ schedule.IsOver due now := by
  constructor
  · rintro rfl
    cases h with
    | late hnext hlt hafter => exact .inr ⟨_, hnext, hlt, hafter⟩
    | exhausted hnext => exact .inl hnext
  · rintro (hover | ⟨u, hnext, hlt, hover⟩)
    · cases h with
      | inTime hnext _ | late hnext _ _ =>
        rw [hover] at hnext
        cases hnext
      | exhausted _ => rfl
    · exact (Except.ok.inj (hover.symm.trans (h.next_eq_of_lt hnext hlt))).symm

end Chooses

/-- If the schedule can be looked up from both, a driver chooses. -/
theorem exists_chooses {a b : Option Instant} (hdue : schedule.next due = .ok a)
    (hnow : schedule.next now = .ok b) : ∃ next, schedule.Chooses due now next := by
  cases a with
  | none => exact ⟨none, .exhausted hdue⟩
  | some u =>
    rcases le_or_gt now u with hle | hlt
    · exact ⟨some u, .inTime hdue hle⟩
    · exact ⟨b, .late hdue hlt hnow⟩

theorem following_eq_ok_iff {task : Task} :
    task.following due now = .ok next ↔ task.schedule.Chooses due now next := by
  constructor
  · intro h
    rw [Task.following] at h
    cases hnext : task.schedule.next due with
    | error e =>
      rw [hnext] at h
      cases h
    | ok found =>
      rw [hnext] at h
      cases found with
      | none =>
        cases h
        exact .exhausted hnext
      | some u =>
        by_cases hlt : u < now
        · exact .late hnext hlt ((if_pos hlt).symm.trans h)
        · cases (if_neg hlt).symm.trans h
          exact .inTime hnext (not_lt.1 hlt)
  · intro h
    cases h with
    | inTime hnext hle =>
      rw [Task.following, hnext]
      exact if_neg (not_lt.2 hle)
    | late hnext hlt hafter =>
      rw [Task.following, hnext]
      exact (if_pos hlt).trans hafter
    | exhausted hnext =>
      rw [Task.following, hnext]
      rfl

/-! ## The course of a driver -/

/-- What a driver does once: it has waited for a fire, its clock shows `now`, and it chooses the next
fire. -/
structure Choice where
  due : Instant
  now : Instant
  next : Option Instant

/-- Where a driver stands between its choices. -/
inductive Standing where
  | awaits (due : Instant)
  | exhausted
  /-- It was told to stop while it waited. -/
  | stopped (due : Instant)

namespace Standing

/-- The fire for which a driver waits, or has waited when it was told to stop. -/
def due? : Standing → Option Instant
  | awaits due | stopped due => some due
  | exhausted => none

/-- Where a driver stands after its choice. -/
def of : Option Instant → Standing
  | some due => awaits due
  | none => exhausted

theorem due?_of (next : Option Instant) : (of next).due? = next := by
  cases next <;> rfl

theorem due?_eq_none_iff {standing : Standing} : standing.due? = none ↔ standing = exhausted := by
  cases standing <;> simp [due?]

end Standing

/-- The fires for which a driver has waited, in the order in which it did. -/
def awaited (choices : List Choice) (last : Standing) : List Instant :=
  choices.map Choice.due ++ last.due?.toList

theorem awaited_cons (choice : Choice) (choices : List Choice) (last : Standing) :
    awaited (choice :: choices) last = choice.due :: awaited choices last :=
  rfl

/-- The choices of a driver, one after the other.  It does not wake before the fire. -/
inductive Course (schedule : Schedule) : Standing → List Choice → Standing → Prop
  | rest (standing : Standing) : Course schedule standing [] standing
  | stops (due : Instant) : Course schedule (.awaits due) [] (.stopped due)
  | chooses {due now : Instant} {next : Option Instant} {choices : List Choice} {last : Standing}
    (hdue : due ≤ now) (hchooses : schedule.Chooses due now next)
    (hrest : Course schedule (.of next) choices last) :
    Course schedule (.awaits due) (⟨due, now, next⟩ :: choices) last

namespace Course

variable {first last : Standing} {choices : List Choice}

theorem head?_awaited (h : Course schedule first choices last) :
    (awaited choices last).head? = first.due? := by
  cases h with
  | rest => cases first <;> rfl
  | stops | chooses => rfl

theorem chooses_of_mem (h : Course schedule first choices last) {choice : Choice}
    (hmem : choice ∈ choices) :
    choice.due ≤ choice.now ∧ schedule.Chooses choice.due choice.now choice.next := by
  induction h with
  | rest | stops => cases hmem
  | chooses hdue hchooses _ ih =>
    rcases List.mem_cons.1 hmem with rfl | hmem
    · exact ⟨hdue, hchooses⟩
    · exact ih hmem

/-- **The fires of a driver ascend.** -/
theorem pairwise_awaited (h : Course schedule first choices last) :
    (awaited choices last).Pairwise (· < ·) := by
  rw [← List.isChain_iff_pairwise]
  induction h with
  | rest standing => cases standing <;> simp [awaited, Standing.due?]
  | stops => simp [awaited, Standing.due?]
  | chooses hdue hchooses hrest ih =>
    rw [awaited_cons]
    refine List.isChain_cons.2 ⟨fun u hu => ?_, ih⟩
    have hnext := hrest.head?_awaited.symm.trans hu
    rw [Standing.due?_of] at hnext
    exact (hnext ▸ hchooses).due_lt hdue

/-- What a driver chooses is what it awaits next. -/
theorem getElem?_awaited_succ (h : Course schedule first choices last) {n : Nat} {choice : Choice}
    (hchoice : choices[n]? = some choice) : (awaited choices last)[n + 1]? = choice.next := by
  induction h generalizing n with
  | rest | stops => cases hchoice
  | chooses hdue hchooses hrest ih =>
    cases n with
    | zero =>
      cases hchoice
      rw [awaited_cons, List.getElem?_cons_succ, ← List.head?_eq_getElem?, hrest.head?_awaited,
        Standing.due?_of]
    | succ n => exact ih hchoice

theorem getElem?_awaited_of_choice {n : Nat} {choice : Choice}
    (hchoice : choices[n]? = some choice) :
    (awaited choices last)[n]? = some choice.due := by
  have hn := (List.getElem?_eq_some_iff.1 hchoice).1
  rw [awaited, List.getElem?_append_left (by simpa using hn), List.getElem?_map, hchoice,
    Option.map_some]

/-- **No fire is left out** as long as the driver keeps up with its schedule. -/
theorem getElem?_awaited (h : Course schedule first choices last) {start : Instant}
    (hfirst : schedule.nextFire? start = first.due?) {n : Nat} (hn : n ≤ choices.length)
    (htime : ∀ choice ∈ choices.take n, schedule.InTime choice.due choice.now) :
    (awaited choices last)[n]? = schedule.nthFire? start n := by
  induction n with
  | zero => rw [← List.head?_eq_getElem?, h.head?_awaited, nthFire?, hfirst]
  | succ n ih =>
    obtain ⟨choice, hchoice⟩ : ∃ choice, choices[n]? = some choice :=
      ⟨_, List.getElem?_eq_getElem hn⟩
    have hmem : choice ∈ choices := List.mem_of_getElem? hchoice
    have hin : choice ∈ choices.take (n + 1) :=
      List.mem_of_getElem? ((List.getElem?_take_of_lt n.lt_succ_self).trans hchoice)
    have hbefore := ih (Nat.le_of_succ_le hn) fun choice hchoice =>
      htime choice (List.take_subset_take_left choices n.le_succ hchoice)
    rw [getElem?_awaited_of_choice hchoice] at hbefore
    rw [h.getElem?_awaited_succ hchoice, nthFire?, ← hbefore, Option.bind_some]
    exact ((h.chooses_of_mem hmem).2.nextFire?_eq (htime choice hin)).symm

/-- **Nothing is made up for**: after a turn nothing is awaited that is before the chosen fire. -/
theorem le_due_or_next_le (h : Course schedule first choices last) {choice : Choice}
    (hmem : choice ∈ choices) (hu : u ∈ awaited choices last) :
    u ≤ choice.due ∨ ∃ v, choice.next = some v ∧ v ≤ u := by
  induction h with
  | rest | stops => cases hmem
  | chooses hdue hchooses hrest ih =>
    have hall := (Course.chooses hdue hchooses hrest).pairwise_awaited
    rw [awaited_cons] at hu hall
    obtain ⟨hlater, hascending⟩ := List.pairwise_cons.1 hall
    rcases List.mem_cons.1 hmem with rfl | hlate
    · rcases List.mem_cons.1 hu with rfl | hu'
      · exact .inl le_rfl
      · obtain ⟨v, rest, hv⟩ := List.exists_cons_of_ne_nil (List.ne_nil_of_mem hu')
        have hnext := hrest.head?_awaited
        rw [hv, List.head?_cons, Standing.due?_of] at hnext
        rw [hv] at hascending hu'
        refine .inr ⟨v, hnext.symm, ?_⟩
        rcases List.mem_cons.1 hu' with rfl | hu'
        · exact le_rfl
        · exact ((List.pairwise_cons.1 hascending).1 u hu').le
    · rcases List.mem_cons.1 hu with rfl | hu'
      · exact .inl (hlater _ (List.mem_append_left _ (List.mem_map_of_mem hlate))).le
      · exact ih hlate hu'

/-- What a driver awaits in the end is what it has chosen last. -/
theorem due?_last (h : Course schedule first choices last) :
    last.due? = (choices.getLast?.map Choice.next).getD first.due? := by
  induction h with
  | rest | stops => rfl
  | chooses hdue hchooses hrest ih =>
    rw [ih, Standing.due?_of, List.getLast?_cons]
    cases List.getLast? _ <;> rfl

end Course

end Schedule

end Pulse
