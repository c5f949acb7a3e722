import Pulse.Proofs.Ordered
import Pulse.Store.Durable

/-!
# Cleaning a database

When a database is cleaned, of the changes of a server before the cutoff the one that was *inserted*
last is left; but whoever asks for the last change before a moment is told the *newest*.

* `rowsBefore_retained`, `rowsFrom_retained` — what is left of the rows of a server.
* `lastTransition?_eq_or` — a query from the cutoff on finds a change from the cutoff on, or else
  the last one before the cutoff.
* `lastTransition?_cleaned_iff` — for one server, one cutoff and any log: cleaning goes unseen from
  the cutoff on iff the newest change before the cutoff is the one that was inserted last.
-/

set_option autoImplicit false

namespace Pulse.DurableStore

open Ordered (IsLast Sorted sortBy)
open Time (Instant)

/-! ## Rows of the log -/

/-- The rows of a server. -/
def rowsOf (id : String) (rows : List TransitionRow) : List TransitionRow :=
  rows.filter fun row => row.serverId = id

/-- The rows before a cutoff. -/
def rowsBefore (cutoff : Int) (rows : List TransitionRow) : List TransitionRow :=
  rows.filter fun row => row.time < cutoff

/-- The rows that are not before a cutoff. -/
def rowsFrom (cutoff : Int) (rows : List TransitionRow) : List TransitionRow :=
  rows.filter fun row => cutoff ≤ row.time

/-- The row that a query finds: of those with the latest time the one inserted last. -/
def newest? (rows : List TransitionRow) : Option TransitionRow :=
  (sortBy TransitionRow.time rows).getLast?

variable {id : String} {cutoff : Int} {row : TransitionRow} {rows : List TransitionRow}

theorem rowsOf_cons_of_eq (h : row.serverId = id) (rows : List TransitionRow) :
    rowsOf id (row :: rows) = row :: rowsOf id rows := by
  simp [rowsOf, h]

theorem rowsOf_cons_of_ne (h : row.serverId ≠ id) (rows : List TransitionRow) :
    rowsOf id (row :: rows) = rowsOf id rows := by
  simp [rowsOf, h]

theorem rowsOf_eq_self (h : ∀ row ∈ rows, row.serverId = id) : rowsOf id rows = rows := by
  simpa [rowsOf] using h

theorem serverId_of_mem_rowsOf (h : row ∈ rowsOf id rows) : row.serverId = id := by
  simpa [rowsOf] using (List.mem_filter.1 h).2

theorem rowsBefore_cons_of_lt (h : row.time < cutoff) (rows : List TransitionRow) :
    rowsBefore cutoff (row :: rows) = row :: rowsBefore cutoff rows := by
  simp [rowsBefore, h]

theorem rowsBefore_cons_of_le (h : cutoff ≤ row.time) (rows : List TransitionRow) :
    rowsBefore cutoff (row :: rows) = rowsBefore cutoff rows := by
  simp [rowsBefore, h]

theorem rowsFrom_cons_of_le (h : cutoff ≤ row.time) (rows : List TransitionRow) :
    rowsFrom cutoff (row :: rows) = row :: rowsFrom cutoff rows := by
  simp [rowsFrom, h]

theorem rowsFrom_cons_of_lt (h : row.time < cutoff) (rows : List TransitionRow) :
    rowsFrom cutoff (row :: rows) = rowsFrom cutoff rows := by
  simp [rowsFrom, h]

theorem newest?_eq_some_iff : newest? rows = some row ↔ IsLast TransitionRow.time rows row :=
  Ordered.getLast?_sortBy_eq_some_iff

theorem newest?_eq_or (cutoff : Int) (rows : List TransitionRow) :
    newest? rows = (newest? (rowsFrom cutoff rows)).or (newest? (rowsBefore cutoff rows)) :=
  Ordered.getLast?_sortBy_eq_or cutoff rows

/-- Of rows in order of time the newest is the one inserted last. -/
theorem newest?_eq_getLast? (h : Sorted TransitionRow.time rows) :
    newest? rows = rows.getLast? := by
  rw [newest?, Ordered.sortBy_eq_self h]

/-- Of rows in order of time none is after the one inserted last. -/
theorem time_le_of_getLast? (h : Sorted TransitionRow.time rows) (hlast : rows.getLast? = some row)
    {other : TransitionRow} (hother : other ∈ rows) : other.time ≤ row.time := by
  rw [← newest?_eq_getLast? h, newest?_eq_some_iff] at hlast
  exact hlast.le hother

theorem sorted_append_singleton (h : Sorted TransitionRow.time rows)
    (hrow : ∀ other ∈ rows, other.time ≤ row.time) : Sorted TransitionRow.time (rows ++ [row]) := by
  refine List.pairwise_append.2 ⟨h, List.pairwise_singleton _ row, ?_⟩
  simpa using hrow

/-! ## What is left of the rows -/

/-- A row is left if it is not before the cutoff, or if no other of its server before the cutoff was
inserted after it. -/
theorem retained_cons (cutoff : Int) (row : TransitionRow) (rest : List TransitionRow) :
    retained cutoff (row :: rest) =
      if cutoff ≤ row.time ∨ rowsBefore cutoff (rowsOf row.serverId rest) = [] then
        row :: retained cutoff rest
      else retained cutoff rest := by
  simp [retained, rowsBefore, rowsOf, List.filter_filter, List.filter_eq_nil_iff, and_comm]

/-- Cleaning goes on for each server by itself. -/
theorem rowsOf_retained (id : String) (cutoff : Int) (rows : List TransitionRow) :
    rowsOf id (retained cutoff rows) = retained cutoff (rowsOf id rows) := by
  induction rows with
  | nil => rfl
  | cons row rest ih =>
    rw [retained_cons]
    by_cases hid : row.serverId = id
    · have hself : rowsOf row.serverId (rowsOf id rest) = rowsOf id rest :=
        rowsOf_eq_self fun other hother => (serverId_of_mem_rowsOf hother).trans hid.symm
      rw [rowsOf_cons_of_eq hid, retained_cons, hself, hid]
      split_ifs
      · rw [rowsOf_cons_of_eq hid, ih]
      · exact ih
    · rw [rowsOf_cons_of_ne hid]
      split_ifs
      · rw [rowsOf_cons_of_ne hid, ih]
      · exact ih

/-- All rows that are not before the cutoff are left. -/
theorem rowsFrom_retained (cutoff : Int) (rows : List TransitionRow) :
    rowsFrom cutoff (retained cutoff rows) = rowsFrom cutoff rows := by
  induction rows with
  | nil => rfl
  | cons row rest ih =>
    rw [retained_cons]
    rcases le_or_gt cutoff row.time with hnew | hold
    · rw [if_pos (.inl hnew), rowsFrom_cons_of_le hnew, rowsFrom_cons_of_le hnew, ih]
    · rw [rowsFrom_cons_of_lt hold]
      split_ifs
      · rw [rowsFrom_cons_of_lt hold, ih]
      · exact ih

/-- Of the rows of a server before the cutoff the one inserted last is left. -/
theorem rowsBefore_retained (hid : ∀ row ∈ rows, row.serverId = id) :
    rowsBefore cutoff (retained cutoff rows) = (rowsBefore cutoff rows).getLast?.toList := by
  induction rows with
  | nil => rfl
  | cons row rest ih =>
    obtain ⟨hrow, hrest⟩ := List.forall_mem_cons.1 hid
    have hself : rowsOf row.serverId rest = rest :=
      rowsOf_eq_self fun other hother => (hrest other hother).trans hrow.symm
    rw [retained_cons, hself]
    rcases le_or_gt cutoff row.time with hnew | hold
    · rw [if_pos (.inl hnew), rowsBefore_cons_of_le hnew, rowsBefore_cons_of_le hnew, ih hrest]
    · rw [rowsBefore_cons_of_lt hold]
      cases hrecent : rowsBefore cutoff rest with
      | nil =>
        rw [if_pos (.inr rfl), rowsBefore_cons_of_lt hold, ih hrest, hrecent]
        rfl
      | cons other others =>
        rw [if_neg (by simp [hold]), ih hrest, hrecent, List.getLast?_cons_cons]

/-- The row that was inserted last is left. -/
theorem getLast?_retained (cutoff : Int) (rows : List TransitionRow) :
    (retained cutoff rows).getLast? = rows.getLast? := by
  induction rows with
  | nil => rfl
  | cons row rest ih =>
    rw [retained]
    cases rest with
    | nil => simp [retained]
    | cons other others =>
      rw [List.getLast?_cons_cons, ← ih]
      split_ifs
      · rw [List.getLast?_cons, ih, List.getLast?_cons]
        rfl
      · rfl

/-! ## Searching a cleaned database -/

/-- The store whose log was cleaned. -/
def cleaned (store : DurableStore) (cutoff : Instant) : DurableStore :=
  (store.cleanupTransitions cutoff).2

/-- The changes of a server that the log holds. -/
def logOf (store : DurableStore) (id : String) : List TransitionRow :=
  rowsOf id store.transitions

/-- Of the changes of a server before a moment, the one that was inserted last. -/
def lastInserted? (store : DurableStore) (id : String) (time : Instant) : Option Transition :=
  (rowsBefore time.toMillis (store.logOf id)).getLast?.map TransitionRow.transition

variable {store : DurableStore} {time : Instant}

theorem lastTransition?_eq_newest? (store : DurableStore) (id : String) (time : Instant) :
    store.lastTransition? id time =
      (newest? (rowsBefore time.toMillis (store.logOf id))).map TransitionRow.transition := by
  simp only [rowsBefore, logOf, rowsOf, List.filter_filter, Bool.and_comm]
  rfl

theorem logOf_cleaned (store : DurableStore) (cutoff : Instant) (id : String) :
    (store.cleaned cutoff).logOf id = retained cutoff.toMillis (store.logOf id) :=
  rowsOf_retained id cutoff.toMillis store.transitions

/-- From a cutoff on, the changes before the cutoff matter only as far as one is found that is the
last before the cutoff. -/
theorem lastTransition?_eq_or {cutoff : Instant} (hle : cutoff.toMillis ≤ time.toMillis) :
    store.lastTransition? id time =
      ((newest? (rowsBefore time.toMillis (rowsFrom cutoff.toMillis (store.logOf id)))).map
        TransitionRow.transition).or (store.lastTransition? id cutoff) := by
  have hfrom : rowsFrom cutoff.toMillis (rowsBefore time.toMillis (store.logOf id)) =
      rowsBefore time.toMillis (rowsFrom cutoff.toMillis (store.logOf id)) := by
    simp only [rowsFrom, rowsBefore, List.filter_filter, Bool.and_comm]
  have hbefore : rowsBefore cutoff.toMillis (rowsBefore time.toMillis (store.logOf id)) =
      rowsBefore cutoff.toMillis (store.logOf id) := by
    rw [rowsBefore, rowsBefore, rowsBefore, List.filter_filter]
    refine List.filter_congr fun row _ => ?_
    by_cases hold : row.time < cutoff.toMillis
    · simp [hold, hold.trans_le hle]
    · simp [hold]
  rw [lastTransition?_eq_newest?, lastTransition?_eq_newest?, newest?_eq_or cutoff.toMillis, hfrom,
    hbefore, Option.map_or]

/-- What is found in a database that was cleaned. -/
theorem lastTransition?_cleaned_eq_or {cutoff : Instant} (hle : cutoff.toMillis ≤ time.toMillis) :
    (store.cleaned cutoff).lastTransition? id time =
      ((newest? (rowsBefore time.toMillis (rowsFrom cutoff.toMillis (store.logOf id)))).map
        TransitionRow.transition).or (store.lastInserted? id cutoff) := by
  have hservers : ∀ row ∈ store.logOf id, row.serverId = id :=
    fun row hrow => serverId_of_mem_rowsOf hrow
  have hleft :
      (store.cleaned cutoff).lastTransition? id cutoff = store.lastInserted? id cutoff := by
    rw [lastTransition?_eq_newest?, logOf_cleaned, rowsBefore_retained hservers, lastInserted?]
    cases (rowsBefore cutoff.toMillis (store.logOf id)).getLast? <;> rfl
  rw [lastTransition?_eq_or hle, hleft, logOf_cleaned, rowsFrom_retained]

/-- **Cleaning goes unseen from the cutoff on iff the newest change before the cutoff is the one
that was inserted last.** -/
theorem lastTransition?_cleaned_iff {cutoff : Instant} :
    (∀ time : Instant, cutoff.toMillis ≤ time.toMillis →
        (store.cleaned cutoff).lastTransition? id time = store.lastTransition? id time) ↔
      store.lastTransition? id cutoff = store.lastInserted? id cutoff := by
  constructor
  · intro hunseen
    have hnone : rowsBefore cutoff.toMillis (rowsFrom cutoff.toMillis (store.logOf id)) = [] := by
      simp [rowsBefore, rowsFrom]
    have hcleaned : (store.cleaned cutoff).lastTransition? id cutoff = _ :=
      lastTransition?_cleaned_eq_or le_rfl
    rw [hnone] at hcleaned
    exact (hunseen cutoff le_rfl).symm.trans hcleaned
  · intro hsame time hle
    rw [lastTransition?_cleaned_eq_or hle, lastTransition?_eq_or hle, hsame]

end Pulse.DurableStore
