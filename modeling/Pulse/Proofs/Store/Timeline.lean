import Mathlib.Data.List.DropRight
import Pulse.Proofs.Store.Legible

/-!
# The past of a server

The log is cleaned, so it does not hold all that ever happened.  What did happen is found by looking
at the status of a server before and after each call: `statusChanges` are the calls that changed it,
each with the stamp of the call.  This file says that a log that was cleaned up to `start` at most
still tells everything from `start` on.

* `RecordedSince` — what the log has kept of the changes: those from `start` on, and the last before
  them.  Calls keep this (`recordedSince_afterAll`).
* `callsUntil` — the calls up to the last one stamped with a moment or before.  The status after
  them is the target of the last change up to that moment (`statusOf_callsUntil`).
* `statusAt` — the status at a moment, found by walking through changes.  Walking from the status at
  `start` through the changes in the log leads to the status that the server had
  (`statusAt_transitionsBetween`).
-/

set_option autoImplicit false

namespace Pulse

open Time (Instant)
open Ordered (Sorted)

/-! ## Cutoffs -/

/-- The cutoff up to which a call cleans the log. -/
def Call.cutoff? : Call → Option Instant
  | ⟨.cleanupTransitions before⟩ => some before
  | _ => none

/-- The cutoffs up to which calls clean the log. -/
def cutoffs (calls : List Call) : List Instant :=
  calls.filterMap Call.cutoff?

theorem forall_mem_cutoffs_cons {call : Call} {calls : List Call} {P : Instant → Prop} :
    (∀ cutoff ∈ cutoffs (call :: calls), P cutoff) ↔
      (∀ cutoff ∈ call.cutoff?, P cutoff) ∧ ∀ cutoff ∈ cutoffs calls, P cutoff := by
  cases hc : call.cutoff? <;> simp [cutoffs, hc]

namespace MemoryStore

variable {store : MemoryStore} {id : String} {start : Instant}

/-! ## What happened -/

/-- The change of status that a call makes, dated with the stamp of the call. -/
def change? (store : MemoryStore) (id : String) (call : Call) : Option Transition :=
  let source := store.statusOf id
  let target := (store.after call).statusOf id
  if source = target then none else call.stamp?.map fun stamp => ⟨id, source, target, stamp⟩

/-- The changes of status that calls make, in the order of the calls. -/
def statusChanges (store : MemoryStore) (id : String) : List Call → List Transition
  | [] => []
  | call :: calls => (store.change? id call).toList ++ statusChanges (store.after call) id calls

theorem statusChanges_append (store : MemoryStore) (id : String) (calls more : List Call) :
    store.statusChanges id (calls ++ more) =
      store.statusChanges id calls ++ (store.afterAll calls).statusChanges id more := by
  induction calls generalizing store with
  | nil => rfl
  | cons call calls ih =>
    rw [List.cons_append, statusChanges, statusChanges, ih, List.append_assoc, afterAll_cons]

/-- Only a call with a stamp changes a status. -/
theorem statusOf_after (store : MemoryStore) (id : String) (call : Call) :
    (store.after call).statusOf id =
      (store.change? id call).elim (store.statusOf id) Transition.target := by
  rw [change?]
  by_cases hsame : store.statusOf id = (store.after call).statusOf id
  · rw [if_pos hsame]
    exact hsame.symm
  · rw [if_neg hsame]
    cases hstamp : call.stamp? with
    | some stamp => rfl
    | none =>
      refine absurd ?_ hsame
      have he := store.effect_after id call
      rw [statusOf, statusOf]
      generalize (store.after call).get? id = r, (store.after call).historyOf id = changes at he
      cases he with
      | untouched | cleaned => rfl
      | registered _ hnew => rw [hnew]; rfl
      | refreshed _ hget => rw [hget]; rfl
      | seen | turnedOn | turnedOff => cases hstamp

theorem statusOf_afterAll (store : MemoryStore) (id : String) (calls : List Call) :
    (store.afterAll calls).statusOf id =
      (store.statusChanges id calls).getLast?.elim (store.statusOf id) Transition.target := by
  induction calls generalizing store with
  | nil => rfl
  | cons call calls ih =>
    rw [afterAll_cons, ih, statusChanges, statusOf_after, List.getLast?_append]
    cases (store.after call).statusChanges id calls |>.getLast? with
    | some t => rfl
    | none => cases store.change? id call <;> rfl

/-- A change is dated with a stamp. -/
theorem times_statusChanges (store : MemoryStore) (id : String) (calls : List Call) :
    ((store.statusChanges id calls).map Transition.time).Sublist (stamps calls) := by
  induction calls generalizing store with
  | nil => exact List.Sublist.refl _
  | cons call calls ih =>
    rw [statusChanges, List.map_append, stamps_cons]
    refine List.Sublist.append ?_ (ih _)
    rw [change?]
    split_ifs
    · exact List.nil_sublist _
    · cases call.stamp? <;> exact List.Sublist.refl _

theorem time_mem_stamps {calls : List Call} {t : Transition}
    (h : t ∈ store.statusChanges id calls) : t.time ∈ stamps calls :=
  (times_statusChanges store id calls).subset (List.mem_map_of_mem h)

theorem sorted_statusChanges {calls : List Call} (hstamps : (stamps calls).Pairwise (· ≤ ·)) :
    Sorted Transition.time (store.statusChanges id calls) :=
  List.pairwise_map.1 (hstamps.sublist (times_statusChanges store id calls))

/-! ## What the log keeps of it -/

/-- Of the changes of a server, those from `start` on are kept, and the last before them. -/
structure RecordedSince (start : Instant) (kept changes : List Transition) : Prop where
  recent : fromCutoff start kept = fromCutoff start changes
  newest : (beforeCutoff start kept).getLast? = (beforeCutoff start changes).getLast?

namespace RecordedSince

variable {kept changes : List Transition}

theorem refl (start : Instant) (changes : List Transition) :
    RecordedSince start changes changes :=
  ⟨rfl, rfl⟩

theorem trans {fewer : List Transition} (h : RecordedSince start fewer kept)
    (h' : RecordedSince start kept changes) : RecordedSince start fewer changes :=
  ⟨h.recent.trans h'.recent, h.newest.trans h'.newest⟩

theorem append (h : RecordedSince start kept changes) (more : List Transition) :
    RecordedSince start (kept ++ more) (changes ++ more) where
  recent := by rw [fromCutoff_append, fromCutoff_append, h.recent]
  newest := by
    rw [beforeCutoff_append, beforeCutoff_append, List.getLast?_append, List.getLast?_append,
      h.newest]

/-- Of changes before `start` the last one is enough. -/
theorem of_before (h : ∀ t ∈ changes, t.time < start) :
    RecordedSince start changes.getLast?.toList changes := by
  have hlast : ∀ t ∈ changes.getLast?.toList, t.time < start := by
    intro t ht
    exact h t (List.mem_of_getLast? (Option.mem_toList.1 ht))
  refine ⟨?_, ?_⟩
  · rw [fromCutoff_eq_nil_iff.2 hlast, fromCutoff_eq_nil_iff.2 h]
  · rw [beforeCutoff_eq_self_iff.2 hlast, beforeCutoff_eq_self_iff.2 h]
    cases changes.getLast? <;> rfl

/-- Cleaning up to `start` at most takes nothing away that has to be kept. -/
theorem cleaned {cutoff : Instant} (h : RecordedSince start kept changes)
    (hsorted : Sorted Transition.time kept) (hcutoff : cutoff ≤ start) :
    RecordedSince start
      ((beforeCutoff cutoff kept).getLast?.toList ++ fromCutoff cutoff kept) changes := by
  have hold : ∀ t ∈ beforeCutoff cutoff kept, t.time < start := by
    intro t ht
    have hlt : t.time < cutoff := by simpa using (List.mem_filter.1 ht).2
    exact hlt.trans_le hcutoff
  have hkept := (of_before hold).append (fromCutoff cutoff kept)
  rw [beforeCutoff_append_fromCutoff cutoff hsorted] at hkept
  exact hkept.trans h

end RecordedSince

/-- A call that does not clean the log adds the change it makes, and a change is dated with the
stamp of the call if no server was changed later than that. -/
theorem historyOf_after {call : Call} (hstamp : ∀ stamp ∈ call.stamp?, store.Dated (· ≤ stamp))
    (hcutoff : call.cutoff? = none) (id : String) :
    (store.after call).historyOf id = store.historyOf id ++ (store.change? id call).toList := by
  have he := store.effect_after id call
  rw [change?, statusOf, statusOf]
  generalize (store.after call).get? id = r, (store.after call).historyOf id = changes at he ⊢
  cases he with
  | untouched => simp
  | registered _ hnew => simp [hnew, ServerRecord.new]
  | refreshed _ hget => simp [hget, ServerRecord.refresh]
  | seen hget hon => simp [hget, hon]
  | @turnedOn record time receivedAt hget hoff =>
    -- The change before is not later than this one, so it does not push the date forward.
    have htime : record.changeTime receivedAt = receivedAt := by
      rw [ServerRecord.changeTime]
      split
      · rfl
      · next last hlast => exact max_eq_right (hstamp receivedAt rfl id record last hget hlast)
    simp [hget, hoff, htime, Call.stamp?]
  | turnedOff hget hsilent =>
    simp [hget, ServerRecord.status_of_isSilent hsilent, ServerRecord.demoted, Call.stamp?]
  | cleaned => cases hcutoff

theorem historyOf_after_of_cutoff {call : Call} {cutoff : Instant} (h : store.IsCoherent)
    (hcutoff : call.cutoff? = some cutoff) (id : String) :
    store.change? id call = none ∧
      (store.after call).historyOf id =
        (beforeCutoff cutoff (store.historyOf id)).getLast?.toList
          ++ fromCutoff cutoff (store.historyOf id) := by
  obtain @⟨form, request⟩ := call
  cases request with
  | cleanupTransitions before =>
    obtain rfl : before = cutoff := by simpa [Call.cutoff?] using hcutoff
    exact ⟨if_pos rfl, changesOf_retained (h.sorted id)⟩
  | _ => cases hcutoff

/-- **A call keeps what is recorded since `start`**, if it does not clean beyond. -/
theorem RecordedSince.after {call : Call} {changes : List Transition}
    (hkept : RecordedSince start (store.historyOf id) changes) (h : store.IsCoherent)
    (hstamp : ∀ stamp ∈ call.stamp?, store.Dated (· ≤ stamp))
    (hcutoff : ∀ cutoff ∈ call.cutoff?, cutoff ≤ start) :
    RecordedSince start ((store.after call).historyOf id)
      (changes ++ (store.change? id call).toList) := by
  cases hc : call.cutoff? with
  | none =>
    rw [historyOf_after hstamp hc]
    exact hkept.append _
  | some cutoff =>
    obtain ⟨hsame, hhistory⟩ := historyOf_after_of_cutoff h hc id
    rw [hsame, hhistory, Option.toList_none, List.append_nil]
    exact hkept.cleaned (h.sorted id) (hcutoff cutoff hc)

theorem RecordedSince.afterAll {calls : List Call} {changes : List Transition}
    (hkept : RecordedSince start (store.historyOf id) changes) (h : store.IsCoherent)
    (hstamps : (stamps calls).Pairwise (· ≤ ·)) (hdated : ∀ s ∈ stamps calls, store.Dated (· ≤ s))
    (hcutoffs : ∀ cutoff ∈ cutoffs calls, cutoff ≤ start) :
    RecordedSince start ((store.afterAll calls).historyOf id)
      (changes ++ store.statusChanges id calls) := by
  induction calls generalizing store changes with
  | nil => simpa [statusChanges] using hkept
  | cons call calls ih =>
    have horderly := (orderlyAll_of_stamps hstamps hdated).1
    obtain ⟨hcross, hrest⟩ := pairwise_stamps_cons.1 hstamps
    obtain ⟨hstamp, hstamps'⟩ := forall_mem_stamps_cons.1 hdated
    obtain ⟨hcutoff, hcutoffs'⟩ := forall_mem_cutoffs_cons.1 hcutoffs
    rw [afterAll_cons, statusChanges, ← List.append_assoc]
    refine ih (hkept.after h hstamp hcutoff) (h.after horderly) hrest ?_ hcutoffs'
    intro s hs
    exact (hstamps' s hs).after fun t ht => hcross t ht s hs

/-- **The log records what happened since `start`**, if it was cleaned up to there at most. -/
theorem recordedSince_afterAll {calls : List Call} (hstamps : (stamps calls).Pairwise (· ≤ ·))
    (hcutoffs : ∀ cutoff ∈ cutoffs calls, cutoff ≤ start) (id : String) :
    RecordedSince start ((empty.afterAll calls).historyOf id) (empty.statusChanges id calls) :=
  (RecordedSince.refl start []).afterAll isCoherent_empty hstamps (fun _ _ => dated_empty _)
    hcutoffs

/-! ## The status at a moment -/

/-- The calls up to the last one stamped with `time` or before. -/
def callsUntil (time : Instant) (calls : List Call) : List Call :=
  calls.rdropWhile fun call => !call.stamp?.any (· ≤ time)

/-- Calls whose stamps never decrease are those until a moment, and then calls with later stamps. -/
theorem exists_append_callsUntil (time : Instant) {calls : List Call}
    (hstamps : (stamps calls).Pairwise (· ≤ ·)) :
    ∃ later, calls = callsUntil time calls ++ later ∧
      (∀ s ∈ stamps (callsUntil time calls), s ≤ time) ∧ ∀ s ∈ stamps later, time < s := by
  -- From the end, because that is where calls are left out.
  induction calls using List.reverseRecOn with
  | nil => exact ⟨[], rfl, by simp [callsUntil, stamps], by simp [stamps]⟩
  | append_singleton calls call ih =>
    rw [stamps, List.filterMap_append] at hstamps
    obtain ⟨hcalls, -, hcross⟩ := List.pairwise_append.1 hstamps
    rw [callsUntil, List.rdropWhile_concat]
    split_ifs with hlate
    · obtain ⟨later, hsplit, hearlier, hlater⟩ := ih hcalls
      refine ⟨later ++ [call], ?_, hearlier, ?_⟩
      · rw [← List.append_assoc]
        exact congrArg (· ++ [call]) hsplit
      · intro s hs
        rw [stamps, List.filterMap_append] at hs
        rcases List.mem_append.1 hs with hs | hs
        · exact hlater s hs
        · have hstamp : call.stamp? = some s := by simpa using hs
          simpa [hstamp] using hlate
    · obtain ⟨last, hlast, hle⟩ : ∃ last, call.stamp? = some last ∧ last ≤ time := by
        simpa [Option.any_eq_true] using hlate
      refine ⟨[], (List.append_nil _).symm, ?_, by simp [stamps]⟩
      intro s hs
      rw [stamps, List.filterMap_append] at hs
      rcases List.mem_append.1 hs with hs | hs
      · exact (hcross s hs last (by simpa using hlast)).trans hle
      · have hstamp : call.stamp? = some s := by simpa using hs
        rw [hlast, Option.some_inj] at hstamp
        exact hstamp ▸ hle

/-- The status at a moment, walking through changes in order from a status before all of them. -/
def statusAt (time : Instant) : Status → List Transition → Status
  | status, [] => status
  | status, t :: rest => if t.time ≤ time then statusAt time t.target rest else status

theorem statusAt_eq_getLast? (time : Instant) (status : Status) {changes : List Transition}
    (h : Sorted Transition.time changes) :
    statusAt time status changes =
      (changes.filter fun t => t.time ≤ time).getLast?.elim status Transition.target := by
  induction changes generalizing status with
  | nil => rfl
  | cons t rest ih =>
    obtain ⟨ht, hrest⟩ := List.pairwise_cons.1 h
    rw [statusAt]
    split_ifs with hle
    · rw [ih _ hrest, List.filter_cons_of_pos (by simpa using hle), List.getLast?_cons]
      cases (rest.filter fun t => t.time ≤ time).getLast? <;> rfl
    · have hnone : (t :: rest).filter (fun t => t.time ≤ time) = [] := by
        refine List.filter_eq_nil_iff.2 fun u hu => ?_
        have hlt : time < u.time := by
          rcases List.mem_cons.1 hu with rfl | hu
          · exact not_le.1 hle
          · exact (not_le.1 hle).trans_le (ht u hu)
        simpa using hlt
      rw [hnone]
      rfl

/-- Walking through the changes of a stretch of time is walking through all of them, if it starts
from where the last one before the stretch led to. -/
theorem statusAt_filter {stop time : Instant} {changes : List Transition}
    (h : Sorted Transition.time changes) (hstart : start ≤ time) (hstop : time < stop) :
    statusAt time ((beforeCutoff start changes).getLast?.elim .undefined Transition.target)
        (changes.filter fun t => start ≤ t.time && t.time < stop) =
      (changes.filter fun t => t.time ≤ time).getLast?.elim .undefined Transition.target := by
  have hsplit : (changes.filter fun t => t.time ≤ time) =
      beforeCutoff start changes ++
        (changes.filter fun t => start ≤ t.time && t.time < stop).filter fun t => t.time ≤ time :=
    calc (changes.filter fun t => t.time ≤ time)
        = (beforeCutoff start changes ++ fromCutoff start changes).filter
            fun t => t.time ≤ time := by
          rw [beforeCutoff_append_fromCutoff start h]
      _ = beforeCutoff start changes ++
            (fromCutoff start changes).filter fun t => t.time ≤ time := by
          rw [List.filter_append, List.filter_eq_self.2]
          intro t ht
          have hlt : t.time < start := by simpa using (List.mem_filter.1 ht).2
          simpa using hlt.le.trans hstart
      _ = _ := by
          rw [fromCutoff, List.filter_filter, List.filter_filter]
          refine congrArg _ (List.filter_congr fun t _ => ?_)
          by_cases hle : t.time ≤ time
          · simp [hle, hle.trans_lt hstop]
          · simp [hle]
  rw [hsplit, List.getLast?_append, statusAt_eq_getLast? time _ (h.sublist List.filter_sublist)]
  cases ((changes.filter fun t => start ≤ t.time && t.time < stop).filter
    fun t => t.time ≤ time).getLast? <;> rfl

/-- The status after the calls until a moment is where the last change up to that moment led to. -/
theorem statusOf_callsUntil (time : Instant) {calls : List Call}
    (hstamps : (stamps calls).Pairwise (· ≤ ·)) (id : String) :
    (empty.afterAll (callsUntil time calls)).statusOf id =
      ((empty.statusChanges id calls).filter fun t => t.time ≤ time).getLast?.elim
        .undefined Transition.target := by
  obtain ⟨later, hsplit, hearlier, hlater⟩ := exists_append_callsUntil time hstamps
  generalize callsUntil time calls = earlier at hsplit hearlier ⊢
  subst hsplit
  have hkept : (empty.statusChanges id earlier).filter (fun t => t.time ≤ time) =
      empty.statusChanges id earlier :=
    List.filter_eq_self.2 fun t ht => by simpa using hearlier _ (time_mem_stamps ht)
  have hnone : ((empty.afterAll earlier).statusChanges id later).filter (fun t => t.time ≤ time) =
      [] :=
    List.filter_eq_nil_iff.2 fun t ht => by simpa using hlater _ (time_mem_stamps ht)
  rw [statusChanges_append, List.filter_append, hkept, hnone, List.append_nil]
  exact statusOf_afterAll empty id earlier

/-- The changes of a server in a stretch of time that the log records are those that happened. -/
theorem RecordedSince.changesOf_transitionsBetween {changes : List Transition}
    (hkept : RecordedSince start (store.historyOf id) changes)
    (hsorted : Sorted Transition.time (store.historyOf id)) (stop : Instant) :
    changesOf id (store.transitionsBetween start stop) =
      changes.filter fun t => start ≤ t.time && t.time < stop := by
  have hsplit : ∀ changes : List Transition,
      (changes.filter fun t => start ≤ t.time && t.time < stop) =
        beforeCutoff stop (fromCutoff start changes) := by
    intro changes
    simp only [beforeCutoff, fromCutoff, List.filter_filter, Bool.and_comm]
  rw [MemoryStore.changesOf_transitionsBetween hsorted, hsplit, hsplit, hkept.recent]

/-- **The log tells the status at every moment of a stretch of time**, starting from the status
before it and walking through the changes within it. -/
theorem statusAt_transitionsBetween {calls : List Call} {stop time : Instant}
    (hstamps : (stamps calls).Pairwise (· ≤ ·))
    (hcutoffs : ∀ cutoff ∈ cutoffs calls, cutoff ≤ start) (id : String) (hstart : start ≤ time)
    (hstop : time < stop) :
    let store := empty.afterAll calls
    statusAt time (store.statusBefore id start)
        (changesOf id (store.transitionsBetween start stop)) =
      (empty.afterAll (callsUntil time calls)).statusOf id := by
  intro store
  have hcoherent : store.IsCoherent := isCoherent_of_stamps hstamps
  have hkept : RecordedSince start (store.historyOf id) (empty.statusChanges id calls) :=
    recordedSince_afterAll hstamps hcutoffs id
  rw [hkept.changesOf_transitionsBetween (hcoherent.sorted id), statusOf_callsUntil time hstamps,
    statusBefore, lastTransition?_eq_getLast? (hcoherent.sorted id), hkept.newest]
  exact statusAt_filter (sorted_statusChanges hstamps) hstart hstop

end MemoryStore

end Pulse
