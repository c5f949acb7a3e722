import Pulse.Proofs.Store.Legible
import Pulse.Proofs.System.Duties
import Pulse.Proofs.Time.Shift

/-!
# Handlers and passes side by side

A `Site` is a system in which duties are done side by side.  What happens is a row of moves, in any
order: the clock goes on, the store becomes slow or fast, a duty is begun, and a duty that waits is
taken up again.  So the servers are listed, judged and turned off at any moments after the pass
began.

A handler never dates a change before the one it follows, but a pass dates what it does with its own
beginning.  It *overtakes* a server if it turns the server off although the server was turned on
after the pass had begun, as a late heartbeat can do.  This is the only thing that goes wrong:

* `Site.Sound` — what is known of every site: the last change of a server that is on is dated with
  the moment at which it was turned on.
* `Site.legible_iff_not_overtakes` — a move leaves a legible log and takes no date back if and only
  if it does not overtake a server.
* `Site.legible_always_iff` — the same for all that ever happens.
-/

set_option autoImplicit false

namespace Pulse

open Activity (Meets)
open MemoryStore (Dated)
open Time (Instant)

/-! ## Stretches of calls -/

namespace Duty

variable {duty : Duty} {store : MemoryStore} {id : String} {since now : Option Instant}
  {call : Call} {calls : List Call}

/-- What is not part of a pass turns no server off. -/
theorem orderly_of_makes (hduty : duty ≠ .pass) (h : duty.Makes since now call) :
    store.Orderly call := by
  obtain @⟨form, request⟩ := call
  cases request with
  | demote id seenBefore stamp => cases duty <;> first | exact h.elim | exact absurd rfl hduty
  | _ => trivial

theorem orderlyAll_of_makes (store : MemoryStore) (hduty : duty ≠ .pass)
    (h : ∀ call ∈ calls, duty.Makes since now call) :
    store.OrderlyAll calls := by
  induction calls generalizing store with
  | nil => trivial
  | cons call calls ih =>
    obtain ⟨hcall, hcalls⟩ := List.forall_mem_cons.1 h
    exact ⟨orderly_of_makes hduty hcall, ih (store.after call) hcalls⟩

/-- The stamps of a duty: the moment of the call, or that at which the duty was begun. -/
theorem stamp_of_makes (h : duty.Makes since now call) {stamp : Instant}
    (hstamp : call.stamp? = some stamp) :
    now = some stamp ∨ (duty = .pass ∧ since = some stamp) := by
  obtain @⟨form, request⟩ := call
  cases request with
  | heartbeat id time receivedAt =>
    cases hstamp
    cases duty <;> first | exact .inl h | exact h.elim
  | demote id seenBefore stamp' =>
    cases hstamp
    cases duty <;> first | exact .inr ⟨rfl, h⟩ | exact h.elim
  | _ => cases hstamp

theorem dated_afterAll {P : Instant → Prop} (h : store.Dated P)
    (hmakes : ∀ call ∈ calls, duty.Makes since now call) (hnow : ∀ n, now = some n → P n)
    (hsince : ∀ n, since = some n → P n) : (store.afterAll calls).Dated P := by
  refine h.afterAll fun stamp hstamp => ?_
  obtain ⟨call, hcall, hstamp⟩ := List.mem_filterMap.1 hstamp
  exact (stamp_of_makes (hmakes call hcall) hstamp).elim (hnow stamp) fun hs => hsince stamp hs.2

/-- A server that is on stays on, except for a pass. -/
theorem statusOf_after_of_on (hduty : duty ≠ .pass) (h : duty.Makes since now call)
    (hon : store.statusOf id = .on) : (store.after call).statusOf id = .on := by
  have he := store.effect_after id call
  have horderly : store.Orderly call := orderly_of_makes hduty h
  rw [MemoryStore.statusOf] at hon ⊢
  generalize (store.after call).get? id = r, (store.after call).historyOf id = changes at he ⊢
  cases he with
  | untouched | cleaned => exact hon
  | registered _ hnew =>
    rw [hnew] at hon
    cases hon
  | refreshed _ hget =>
    rw [hget] at hon
    exact hon
  | seen | turnedOn => exact ServerRecord.status_heartbeat ..
  | turnedOff => cases duty <;> first | exact h.elim | exact absurd rfl hduty

/-- A server that is on after a call was on before, and then the call left the date of its last
change alone, or the call turned it on, and then it was changed at the moment of the call. -/
theorem changedAt?_after (hduty : duty ≠ .pass) (h : duty.Makes since now call)
    (hdated : ∀ n, now = some n → store.Dated (· ≤ n))
    (hon : (store.after call).statusOf id = .on) :
    (store.statusOf id = .on ∧ (store.after call).changedAt? id = store.changedAt? id) ∨
      (store.statusOf id ≠ .on ∧ now ≠ none ∧ (store.after call).changedAt? id = now) := by
  have he := store.effect_after id call
  rw [MemoryStore.statusOf] at hon
  rw [MemoryStore.statusOf, MemoryStore.changedAt?, MemoryStore.changedAt?]
  generalize (store.after call).get? id = r, (store.after call).historyOf id = changes at he hon ⊢
  cases he with
  | untouched | cleaned => exact .inl ⟨hon, rfl⟩
  | registered => cases hon
  | refreshed _ hget =>
    rw [hget]
    exact .inl ⟨hon, rfl⟩
  | seen hget hseen =>
    rw [hget]
    exact .inl ⟨hseen, ServerRecord.statusChangedAt_heartbeat_of_on hseen ..⟩
  | @turnedOn record time receivedAt hget hoff =>
    have hnow : now = some receivedAt := by
      cases duty <;> first | exact h | exact h.elim
    rw [hget, hnow]
    refine .inr ⟨hoff, by simp, ?_⟩
    show (record.heartbeat time receivedAt).statusChangedAt = some receivedAt
    rw [ServerRecord.statusChangedAt_heartbeat_of_ne hoff, ServerRecord.changeTime]
    split
    · rfl
    · next last hlast => rw [max_eq_right (hdated receivedAt hnow id record last hget hlast)]
  | turnedOff => cases duty <;> first | exact h.elim | exact absurd rfl hduty

/-- What a pass does to a server in a stretch: nothing, or it turns the server off. -/
theorem pass_afterAll (store : MemoryStore) (id : String)
    (h : ∀ call ∈ calls, pass.Makes since now call) :
    ((store.afterAll calls).get? id = store.get? id ∧
        (store.afterAll calls).historyOf id = store.historyOf id) ∨
      ∃ record stamp, since = some stamp ∧ store.get? id = some record ∧ record.status = .on ∧
        (store.afterAll calls).get? id = some (record.demoted stamp) ∧
        (store.afterAll calls).historyOf id = store.historyOf id ++ [⟨id, .on, .off, stamp⟩] := by
  induction calls generalizing store with
  | nil => exact .inl ⟨rfl, rfl⟩
  | cons call calls ih =>
    obtain ⟨hcall, hcalls⟩ := List.forall_mem_cons.1 h
    have he := store.effect_after id call
    rw [MemoryStore.afterAll_cons]
    have ih := ih (store.after call) hcalls
    generalize hget' : (store.after call).get? id = r at ih he
    generalize hhistory' : (store.after call).historyOf id = changes at ih he
    cases he with
    | untouched => exact ih
    | turnedOff hget hsilent =>
      have hsince := hcall
      refine .inr ⟨_, _, hsince, hget, ServerRecord.status_of_isSilent hsilent, ?_⟩
      rcases ih with ih | ⟨record, stamp, -, hdemoted, hon, -⟩
      · exact ih
      · cases hdemoted
        cases hon
    | registered | refreshed | seen | turnedOn | cleaned => exact hcall.elim

/-- After a stretch of a duty, a server that is on was on before, with the same date of its last
change, or it was turned on and changed at the moment of the stretch. -/
theorem changedAt?_afterAll (h : ∀ call ∈ calls, duty.Makes since now call)
    (hdated : ∀ n, now = some n → store.Dated (· ≤ n))
    (hon : (store.afterAll calls).statusOf id = .on) :
    (store.statusOf id = .on ∧ (store.afterAll calls).changedAt? id = store.changedAt? id) ∨
      (store.statusOf id ≠ .on ∧ now ≠ none ∧ (store.afterAll calls).changedAt? id = now) := by
  by_cases hduty : duty = .pass
  · subst hduty
    rw [MemoryStore.statusOf] at hon
    rw [MemoryStore.statusOf, MemoryStore.changedAt?, MemoryStore.changedAt?]
    rcases pass_afterAll store id h with ⟨hget, -⟩ | ⟨record, stamp, -, -, -, hget, -⟩
    · rw [hget] at hon ⊢
      exact .inl ⟨hon, rfl⟩
    · rw [hget] at hon
      cases hon
  induction calls generalizing store with
  | nil => exact .inl ⟨hon, rfl⟩
  | cons call calls ih =>
    obtain ⟨hcall, hcalls⟩ := List.forall_mem_cons.1 h
    have hdated' : ∀ n, now = some n → (store.after call).Dated (· ≤ n) := by
      refine fun n hn => (hdated n hn).after fun stamp hstamp => ?_
      rcases stamp_of_makes hcall hstamp with hs | ⟨hpass, -⟩
      · rw [hn, Option.some_inj] at hs
        exact hs.ge
      · exact absurd hpass hduty
    rcases ih hcalls hdated' hon with ⟨hon', hsame⟩ | ⟨hoff, hnow, hchanged⟩
    · rw [MemoryStore.afterAll_cons, hsame]
      exact changedAt?_after hduty hcall hdated hon'
    · exact .inr ⟨fun hon => hoff (statusOf_after_of_on hduty hcall hon), hnow, hchanged⟩

end Duty

/-! ## Sites -/

/-- A duty that was begun at `since` and waits. -/
structure OnDuty where
  duty : Duty
  since : Nat
  rest : Action Unit

/-- A system in which duties are done side by side. -/
structure Site where
  time : Nat
  system : System
  underway : List OnDuty
  /-- When each server was last turned on. -/
  turnedOn : String → Option Nat

/-- Something that happens at a site. -/
inductive Move where
  | tick (ms : Nat)
  /-- The store becomes slow or fast, or fails.  Heartbeats are taken in without delay. -/
  | disturb (d : Disturbance) (undelayed : d.delay .heartbeat = 0)
  | begin (duty : Duty)
  /-- A duty that waits is taken up again, if what it waits for has happened. -/
  | resume (n : Nat)

/-- The store, if it is in memory. -/
def System.memory (s : System) : MemoryStore :=
  match s.store with
  | .memory store => store
  | .durable _ => .empty

namespace Site

/-- A site at which nothing has happened. -/
def start (s : System) : Site :=
  ⟨0, { s with store := .volatile, disturbance := {} }, [], fun _ => none⟩

/-- The status of a server. -/
def statusOf (site : Site) (id : String) : Status :=
  site.system.memory.statusOf id

/-- Does a duty until it waits, beside the others that are under way. -/
def run (site : Site) (work : OnDuty) (others : List OnDuty) : Site :=
  let (progress, system, _) := work.rest.run site.time site.system []
  { site with
    system
    underway := match progress with
      | .waiting rest => others ++ [{ work with rest }]
      | _ => others
    turnedOn := fun id =>
      if site.statusOf id ≠ .on ∧ system.memory.statusOf id = .on then some site.time
      else site.turnedOn id }

/-- The site after a move. -/
def after (site : Site) : Move → Site
  | .tick ms => { site with time := site.time + ms }
  | .disturb d _ => { site with system := { site.system with disturbance := d } }
  | .begin duty => site.run ⟨duty, site.time, duty.action⟩ site.underway
  | .resume n =>
    match site.underway[n]? with
    | some work => site.run work (site.underway.eraseIdx n)
    | none => site

/-- Every move of a row is as `P` says. -/
def Always (P : Site → Move → Prop) : Site → List Move → Prop
  | _, [] => True
  | site, move :: moves => P site move ∧ Always P (site.after move) moves

/-- A pass turns a server off that was turned on after the pass had begun. -/
def Overtakes (site : Site) : Move → Prop
  | .resume n => ∃ work id t, site.underway[n]? = some work ∧ work.duty = .pass ∧
      site.statusOf id = .on ∧ (site.after (.resume n)).statusOf id ≠ .on ∧
      site.turnedOn id = some t ∧ work.since < t
  | _ => False

/-- The date of the last change of a server goes back. -/
def GoesBack (site : Site) (move : Move) : Prop :=
  ∃ id changed changed', site.system.memory.changedAt? id = some changed ∧
    (site.after move).system.memory.changedAt? id = some changed' ∧ changed' < changed

end Site

/-! ## What is known of every site -/

theorem System.moment?_congr {s s' : System} (h : s'.origin = s.origin) :
    s'.moment? = s.moment? := by
  funext t
  rw [moment?, moment?, h]

theorem System.moment?_lt {s : System} {t t' : Nat} {m m' : Instant} (h : t < t')
    (hm : s.moment? t = some m) (hm' : s.moment? t' = some m') : m < m' :=
  Instant.add?_lt_add? (by simp only [Time.Span.ofMillis, Time.Span.millisecond]; omega)
    (by simp only [Time.Span.ofMillis, Time.Span.millisecond]; omega) hm hm'

theorem System.moment?_le {s : System} {t t' : Nat} {m m' : Instant} (h : t ≤ t')
    (hm : s.moment? t = some m) (hm' : s.moment? t' = some m') : m ≤ m' := by
  rcases h.lt_or_eq with hlt | rfl
  · exact (moment?_lt hlt hm hm').le
  · rw [hm, Option.some_inj] at hm'
    exact hm'.le

namespace Site

/-- What is left of a duty makes the calls of the duty only. -/
def Keeps (site : Site) (work : OnDuty) (t : Nat) (s : System) : Prop :=
  work.rest.Meets (System.Called (work.duty.Makes (site.system.moment? work.since)))
    (fun _ _ _ => True) t s

/-- What is known of every site. -/
structure Sound (site : Site) : Prop where
  memory : site.system.store = .memory site.system.memory
  undelayed : site.system.disturbance.delay .heartbeat = 0
  /-- Every change is dated with a moment that the clock has shown. -/
  dated : site.system.memory.Dated fun changed =>
    ∃ t ≤ site.time, site.system.moment? t = some changed
  /-- A server that is on was changed when it was turned on. -/
  on : ∀ id, site.statusOf id = .on → ∃ t ≤ site.time, site.turnedOn id = some t ∧
    site.system.moment? t ≠ none ∧ site.system.memory.changedAt? id = site.system.moment? t
  duties : ∀ work ∈ site.underway, work.since ≤ site.time ∧ ∀ t s, site.Keeps work t s

theorem sound_start (s : System) : (start s).Sound where
  memory := rfl
  undelayed := rfl
  dated := MemoryStore.dated_empty _
  on id hon := by cases hon
  duties work hwork := by cases hwork

variable {site : Site} {work : OnDuty} {others : List OnDuty}

theorem after_resume {n : Nat} (h : site.underway[n]? = some work) :
    site.after (.resume n) = site.run work (site.underway.eraseIdx n) := by
  rw [after, h]

theorem after_resume_of_none {n : Nat} (h : site.underway[n]? = none) :
    site.after (.resume n) = site := by
  rw [after, h]

/-- What a duty does in a stretch is a row of its calls. -/
theorem Sound.calls_of_run (h : site.Sound) (hkeeps : site.Keeps work site.time site.system)
    (others : List OnDuty) :
    let next := site.run work others
    next.system.origin = site.system.origin ∧ next.system.disturbance = site.system.disturbance ∧
      (∀ w ∈ next.underway, w ∈ others ∨ (w.since = work.since ∧ ∀ t s, site.Keeps w t s)) ∧
      ∃ calls, (∀ call ∈ calls, work.duty.Makes (site.system.moment? work.since)
          (site.system.moment? site.time) call) ∧
        next.system.store = .memory (site.system.memory.afterAll calls) := by
  obtain ⟨⟨horigin, hdisturbance, hcalls⟩, hrest⟩ :=
    Meets.run System.Called.refl (fun _ _ _ _ => System.Called.trans) hkeeps []
  refine ⟨horigin, hdisturbance, fun w hw => ?_, hcalls _ h.memory⟩
  simp only [run] at hw
  cases hprogress : (work.rest.run site.time site.system []).1 with
  | waiting rest =>
    rw [hprogress] at hw hrest
    rcases List.mem_append.1 hw with hw | hw
    · exact .inl hw
    · obtain rfl : w = { work with rest } := by simpa using hw
      exact .inr ⟨rfl, hrest⟩
  | finished | crashed =>
    rw [hprogress] at hw
    exact .inl hw

theorem Sound.dated_le (h : site.Sound) {now : Instant}
    (hnow : site.system.moment? site.time = some now) : site.system.memory.Dated (· ≤ now) := by
  intro id record changed hget hchanged
  obtain ⟨t, ht, hmoment⟩ := h.dated id record changed hget hchanged
  exact System.moment?_le ht hmoment hnow

theorem Sound.run (h : site.Sound) (hsince : work.since ≤ site.time)
    (hkeeps : site.Keeps work site.time site.system)
    (hothers : ∀ w ∈ others, w ∈ site.underway) : (site.run work others).Sound := by
  obtain ⟨horigin, hdisturbance, hunderway, calls, hmakes, hstore⟩ := h.calls_of_run hkeeps others
  have hmemory : (site.run work others).system.memory = site.system.memory.afterAll calls := by
    rw [System.memory, hstore]
  have hmoment : (site.run work others).system.moment? = site.system.moment? :=
    System.moment?_congr horigin
  refine ⟨by rw [hmemory, hstore], by rw [hdisturbance, h.undelayed], ?_, fun id hon => ?_, ?_⟩
  · rw [hmemory, hmoment]
    exact Duty.dated_afterAll h.dated hmakes (fun now hnow => ⟨_, le_rfl, hnow⟩)
      fun stamp hstamp => ⟨_, hsince, hstamp⟩
  · rw [hmoment, hmemory]
    have hon' : (site.system.memory.afterAll calls).statusOf id = .on := by rwa [← hmemory]
    show ∃ t ≤ site.time, (if site.statusOf id ≠ .on ∧ (site.run work others).statusOf id = .on then
      some site.time else site.turnedOn id) = some t ∧ _
    rcases Duty.changedAt?_afterAll hmakes (fun _ => h.dated_le) hon' with
      ⟨hbefore, hsame⟩ | ⟨hoff, hnow, hchanged⟩
    · rw [if_neg fun hne => hne.1 hbefore, hsame]
      exact h.on id hbefore
    · exact ⟨site.time, le_rfl, if_pos ⟨hoff, hon⟩, hnow, hchanged⟩
  · intro w hw
    rcases hunderway w hw with hw | ⟨hsince', hkeeps'⟩
    · obtain ⟨hle, hkeeps'⟩ := h.duties w (hothers w hw)
      exact ⟨hle, fun t s => by rw [Keeps, hmoment]; exact hkeeps' t s⟩
    · exact ⟨hsince'.trans_le hsince, fun t s => by rw [Keeps, hmoment]; exact hkeeps' t s⟩

theorem Sound.keeps_action (h : site.Sound) (duty : Duty) :
    site.Keeps ⟨duty, site.time, duty.action⟩ site.time site.system :=
  Duty.meets_action duty h.undelayed

theorem Sound.after (h : site.Sound) (move : Move) : (site.after move).Sound := by
  cases move with
  | tick ms =>
    refine ⟨h.memory, h.undelayed, ?_, ?_, ?_⟩
    · intro id record changed hget hchanged
      obtain ⟨t, ht, hmoment⟩ := h.dated id record changed hget hchanged
      exact ⟨t, Nat.le_add_right_of_le ht, hmoment⟩
    · intro id hon
      obtain ⟨t, ht, hon⟩ := h.on id hon
      exact ⟨t, Nat.le_add_right_of_le ht, hon⟩
    · intro work hwork
      obtain ⟨hsince, hkeeps⟩ := h.duties work hwork
      exact ⟨Nat.le_add_right_of_le hsince, hkeeps⟩
  | disturb d undelayed => exact ⟨h.memory, undelayed, h.dated, h.on, h.duties⟩
  | begin duty => exact h.run le_rfl (h.keeps_action duty) fun w hw => hw
  | resume n =>
    cases hwork : site.underway[n]? with
    | none => rwa [after_resume_of_none hwork]
    | some work =>
      obtain ⟨hsince, hkeeps⟩ := h.duties work (List.mem_of_getElem? hwork)
      rw [after_resume hwork]
      exact h.run hsince (hkeeps _ _) fun w hw => List.mem_of_mem_eraseIdx hw

/-! ## Overtaking -/

/-- A stretch of a duty turns no server off that was turned on after the duty was begun. -/
def Fair (site : Site) (work : OnDuty) (others : List OnDuty) : Prop :=
  ∀ id t, work.duty = .pass → site.statusOf id = .on → (site.run work others).statusOf id ≠ .on →
    site.turnedOn id = some t → t ≤ work.since

/-- What a pass turns off was last changed at the latest when the pass began, if that is fair. -/
theorem Sound.changed_le_of_fair (h : site.Sound) (hfair : site.Fair work others) {id : String}
    (hpass : work.duty = .pass) (hon : site.statusOf id = .on)
    (hoff : (site.run work others).statusOf id ≠ .on) {stamp changed : Instant}
    (hstamp : site.system.moment? work.since = some stamp)
    (hchanged : site.system.memory.changedAt? id = some changed) : changed ≤ stamp := by
  obtain ⟨t, -, ht, -, hmoment⟩ := h.on id hon
  rw [hchanged] at hmoment
  exact System.moment?_le (hfair id t hpass hon hoff ht) hmoment.symm hstamp

/-- A fair stretch keeps the records in step with their changes and takes no date back. -/
theorem Sound.coherent_run (h : site.Sound) (hcoherent : site.system.memory.IsCoherent)
    (hkeeps : site.Keeps work site.time site.system) (hfair : site.Fair work others) :
    (site.run work others).system.memory.IsCoherent ∧
      ∀ id changed, site.system.memory.changedAt? id = some changed →
        ∃ changed', (site.run work others).system.memory.changedAt? id = some changed' ∧
          changed ≤ changed' := by
  obtain ⟨-, -, -, calls, hmakes, hstore⟩ := h.calls_of_run hkeeps others
  have hmemory : (site.run work others).system.memory = site.system.memory.afterAll calls := by
    rw [System.memory, hstore]
  by_cases hpass : work.duty = .pass
  · rw [hpass] at hmakes
    have hcases := fun id => Duty.pass_afterAll site.system.memory id hmakes
    rw [← hmemory] at hcases
    have hle {id : String} {record : ServerRecord} {stamp changed : Instant}
        (hstamp : site.system.moment? work.since = some stamp)
        (hget : site.system.memory.get? id = some record) (hon : record.status = .on)
        (hget' : (site.run work others).system.memory.get? id = some (record.demoted stamp))
        (hchanged : record.statusChangedAt = some changed) : changed ≤ stamp := by
      have hwas : site.statusOf id = .on := by
        rw [statusOf, MemoryStore.statusOf, hget]
        exact hon
      have his : (site.run work others).statusOf id ≠ .on := by
        rw [statusOf, MemoryStore.statusOf, hget']
        simp [ServerRecord.demoted]
      refine h.changed_le_of_fair hfair hpass hwas his hstamp ?_
      rw [MemoryStore.changedAt?, hget]
      exact hchanged
    refine ⟨fun id => ?_, fun id changed hchanged => ?_⟩
    · rcases hcases id with ⟨hget, hhistory⟩ | ⟨record, stamp, hstamp, hget, hon, hget', hhistory⟩
      · rw [hget, hhistory]
        exact hcoherent id
      · rw [hget', hhistory]
        exact (hcoherent.inStep hget).turnedOff id hon fun changed => hle hstamp hget hon hget'
    · rcases hcases id with ⟨hget, -⟩ | ⟨record, stamp, hstamp, hget, hon, hget', -⟩
      · exact ⟨changed, by rwa [MemoryStore.changedAt?, hget], le_rfl⟩
      · rw [MemoryStore.changedAt?, hget] at hchanged
        exact ⟨stamp, by rw [MemoryStore.changedAt?, hget']; rfl,
          hle hstamp hget hon hget' hchanged⟩
  · have horderly := Duty.orderlyAll_of_makes site.system.memory hpass hmakes
    rw [hmemory]
    exact ⟨MemoryStore.coherent_afterAll hcoherent horderly,
      fun id changed => MemoryStore.le_changedAt?_afterAll horderly⟩

/-- A pass that overtakes a server takes the date of its last change back. -/
theorem Sound.goesBack_of_overtakes (h : site.Sound) {move : Move} (hmove : site.Overtakes move) :
    site.GoesBack move := by
  cases move with
  | resume n =>
    obtain ⟨work, id, t, hwork, hpass, hon, hoff, ht, hlt⟩ := hmove
    obtain ⟨-, hkeeps⟩ := h.duties work (List.mem_of_getElem? hwork)
    obtain ⟨-, -, -, calls, hmakes, hstore⟩ :=
      h.calls_of_run (hkeeps _ _) (site.underway.eraseIdx n)
    have hafter : (site.after (.resume n)).system.memory = site.system.memory.afterAll calls := by
      rw [after_resume hwork, System.memory, hstore]
    obtain ⟨t', -, ht', hshown, hchanged⟩ := h.on id hon
    rw [ht, Option.some_inj] at ht'
    subst ht'
    obtain ⟨changed, hmoment⟩ := Option.ne_none_iff_exists'.1 hshown
    rw [hpass] at hmakes
    rcases Duty.pass_afterAll site.system.memory id hmakes with
      ⟨hget, -⟩ | ⟨record, stamp, hstamp, -, -, hget, -⟩
    · rw [statusOf, hafter, MemoryStore.statusOf, hget] at hoff
      exact absurd hon hoff
    · refine ⟨id, changed, stamp, hchanged.trans hmoment, ?_, System.moment?_lt hlt hstamp hmoment⟩
      rw [hafter, MemoryStore.changedAt?, hget]
      rfl
  | tick | disturb | begin => exact hmove.elim

/-- If a move does not overtake a server, it keeps the records in step with their changes and takes
no date back. -/
theorem Sound.coherent_after (h : site.Sound) (hcoherent : site.system.memory.IsCoherent)
    {move : Move} (hmove : ¬site.Overtakes move) :
    (site.after move).system.memory.IsCoherent ∧
      ∀ id changed, site.system.memory.changedAt? id = some changed →
        ∃ changed', (site.after move).system.memory.changedAt? id = some changed' ∧
          changed ≤ changed' := by
  cases move with
  | tick | disturb => exact ⟨hcoherent, fun id changed hchanged => ⟨changed, hchanged, le_rfl⟩⟩
  | begin duty =>
    refine h.coherent_run hcoherent (h.keeps_action duty) fun id t _ hon _ ht => ?_
    obtain ⟨t', hle, ht', -⟩ := h.on id hon
    rw [ht, Option.some_inj] at ht'
    exact ht' ▸ hle
  | resume n =>
    cases hwork : site.underway[n]? with
    | none =>
      rw [after_resume_of_none hwork]
      exact ⟨hcoherent, fun id changed hchanged => ⟨changed, hchanged, le_rfl⟩⟩
    | some work =>
      have hafter := after_resume hwork
      obtain ⟨-, hkeeps⟩ := h.duties work (List.mem_of_getElem? hwork)
      rw [hafter]
      refine h.coherent_run hcoherent (hkeeps _ _) fun id t hpass hon hoff ht => ?_
      refine not_lt.1 fun hlt => hmove ⟨work, id, t, hwork, hpass, hon, ?_, ht, hlt⟩
      rwa [hafter]

/-- A move leaves a legible log and takes no date back if and only if it overtakes no server. -/
theorem Sound.legible_iff_not_overtakes (h : site.Sound)
    (hcoherent : site.system.memory.IsCoherent) (move : Move) :
    ((site.after move).system.memory.Legible ∧ ¬site.GoesBack move) ↔ ¬site.Overtakes move := by
  constructor
  · exact fun ⟨_, hforward⟩ hmove => hforward (h.goesBack_of_overtakes hmove)
  · intro hmove
    obtain ⟨hcoherent', hforward⟩ := h.coherent_after hcoherent hmove
    refine ⟨hcoherent'.legible, ?_⟩
    rintro ⟨id, changed, changed', hchanged, hchanged', hlt⟩
    obtain ⟨later, hlater, hle⟩ := hforward id changed hchanged
    rw [hchanged', Option.some_inj] at hlater
    exact absurd hlt (not_lt.2 (hlater ▸ hle))

/-- **The log stays legible, and no date goes back, exactly as long as no pass overtakes a server.**
This holds for all that may happen at a site, in any order. -/
theorem legible_always_iff (s : System) (moves : List Move) :
    (start s).Always
        (fun site move => (site.after move).system.memory.Legible ∧ ¬site.GoesBack move) moves ↔
      (start s).Always (fun site move => ¬site.Overtakes move) moves := by
  have hgeneral : ∀ site : Site, site.Sound → site.system.memory.IsCoherent →
      (site.Always (fun site move => (site.after move).system.memory.Legible ∧ ¬site.GoesBack move)
        moves ↔ site.Always (fun site move => ¬site.Overtakes move) moves) := by
    induction moves with
    | nil => exact fun _ _ _ => Iff.rfl
    | cons move moves ih =>
      intro site h hcoherent
      have hstep := h.legible_iff_not_overtakes hcoherent move
      constructor
      · rintro ⟨hmove, hmoves⟩
        have hmove := hstep.1 hmove
        exact ⟨hmove, (ih _ (h.after move) (h.coherent_after hcoherent hmove).1).1 hmoves⟩
      · rintro ⟨hmove, hmoves⟩
        exact ⟨hstep.2 hmove, (ih _ (h.after move) (h.coherent_after hcoherent hmove).1).2 hmoves⟩
  exact hgeneral _ (sound_start s) MemoryStore.isCoherent_empty

/-- A system whose clock starts at noon. -/
private def noonSystem : System where
  origin := .ofMillis 1728043200000
  store := .volatile
  bus := .new 1
  monitor := { settings := {} }
  scheduler := { timeout := 0 }

/-- A pass lists the servers slowly, and while it waits a heartbeat from two minutes ago turns on a
server whose period is ten seconds. -/
private def lateHeartbeat : List Move :=
  [.begin (.register ⟨"a", "10.0.0.1", 10⟩),
    .disturb { delays := [("list", 2000)] } (by decide), .begin .pass, .tick 1000,
    .begin (.handle .status ⟨"a", .ofMillis 1728043080000, none, none, none⟩),
    .tick 1000, .resume 0]

/-- The pass then turns the server off with a date before that of its turning on. -/
theorem not_legible_lateHeartbeat :
    ¬(start noonSystem).Always
      (fun site move => (site.after move).system.memory.Legible ∧ ¬site.GoesBack move)
      lateHeartbeat := by
  rintro ⟨-, -, -, -, -, -, ⟨hlegible, -⟩, -⟩
  have hsorted := hlegible.sorted "a"
  revert hsorted
  show ¬List.Pairwise _ _
  decide +kernel

end Site

end Pulse
