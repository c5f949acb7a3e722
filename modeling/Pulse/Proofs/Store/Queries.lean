import Mathlib.Data.List.Induction
import Pulse.Proofs.Store.Calls

/-!
# Queries of the log

What the two queries of the log find of a server whose changes are in the order of time: the last of
those before a moment, and those of a stretch of time in their order.

* `MemoryStore.lastTransition?_eq_getLast?`
* `MemoryStore.changesOf_transitionsBetween`
-/

set_option autoImplicit false

namespace Pulse.MemoryStore

open Time (Instant)
open Ordered (Sorted)

/-- Of changes in order the later one is always the next. -/
theorem foldl_laterChange {changes : List Transition} (h : Sorted Transition.time changes) :
    changes.foldl laterChange none = changes.getLast? := by
  induction changes using List.reverseRecOn with
  | nil => rfl
  | append_singleton changes t ih =>
    obtain ⟨hchanges, -, ht⟩ := List.pairwise_append.1 h
    rw [List.foldl_append, ih hchanges, List.getLast?_concat]
    cases hlast : changes.getLast? with
    | none => rfl
    | some u =>
      have hle : u.time ≤ t.time := ht u (List.mem_of_getLast? hlast) t (by simp)
      exact if_neg (not_lt.2 hle)

variable {store : MemoryStore} {id : String}

/-- **The last change before a moment**, if the changes of the server are in order. -/
theorem lastTransition?_eq_getLast? (h : Sorted Transition.time (store.historyOf id))
    (time : Instant) :
    store.lastTransition? id time = (beforeCutoff time (store.historyOf id)).getLast? := by
  have hfilter : (store.transitions.filter fun t => t.serverId = id && t.time < time) =
      beforeCutoff time (store.historyOf id) := by
    simp only [beforeCutoff, historyOf, changesOf, List.filter_filter, Bool.and_comm]
  rw [lastTransition?, hfilter]
  exact foldl_laterChange (h.sublist List.filter_sublist)

/-- **The changes of a server in a stretch of time**, if they are in order. -/
theorem changesOf_transitionsBetween (h : Sorted Transition.time (store.historyOf id))
    (start stop : Instant) :
    changesOf id (store.transitionsBetween start stop) =
      (store.historyOf id).filter fun t => start ≤ t.time && t.time < stop := by
  have hfilter : changesOf id (store.transitions.filter fun t => start ≤ t.time && t.time < stop) =
      (store.historyOf id).filter fun t => start ≤ t.time && t.time < stop := by
    simp only [historyOf, changesOf, List.filter_filter, Bool.and_comm]
  rw [transitionsBetween, changesOf, Ordered.filter_sortBy]
  show Ordered.sortBy Transition.time (changesOf id _) = _
  rw [hfilter]
  exact Ordered.sortBy_eq_self (h.sublist List.filter_sublist)

end Pulse.MemoryStore
