import Mathlib.Order.Nat
import Mathlib.Tactic.SplitIfs
import Pulse.Monitor

/-!
# What happens to the requests of a loop

A loop of the monitor has a request that waits for it (`Monitor.request?`) and one that it is meeting
(`Monitor.serving?`).  The lemmas say what each operation of a monitor does to these two and to
whether the loop has ended.
-/

set_option autoImplicit false

namespace Pulse

namespace Monitor

/-! ## Changes to one loop -/

section

variable (monitor : Monitor) (n k : Nat) (change : MonitorLoop → MonitorLoop)

theorem getElem?_updateLoop :
    (monitor.updateLoop n change).loops[k]? =
      monitor.loops[k]?.map fun loop => if n = k then change loop else loop := by
  rw [updateLoop, List.getElem?_modify]
  rfl

theorem request?_updateLoop :
    (monitor.updateLoop n change).request? k =
      monitor.loops[k]?.bind fun loop => (if n = k then change loop else loop).request := by
  rw [request?, getElem?_updateLoop, Option.bind_map]
  rfl

theorem serving?_updateLoop :
    (monitor.updateLoop n change).serving? k =
      monitor.loops[k]?.bind fun loop => (if n = k then change loop else loop).serving := by
  rw [serving?, getElem?_updateLoop, Option.bind_map]
  rfl

/-- What can be seen of a loop stays as it is if the change does not touch it. -/
theorem view_updateLoop {β : Type} (view : Option MonitorLoop → β)
    (hchange : ∀ loop, view (some (change loop)) = view (some loop)) :
    view (monitor.updateLoop n change).loops[k]? = view monitor.loops[k]? := by
  rw [getElem?_updateLoop]
  cases monitor.loops[k]? with
  | none => rfl
  | some loop =>
    show view (some (if n = k then change loop else loop)) = view (some loop)
    split_ifs
    · exact hchange loop
    · rfl

theorem request?_updateLoop_of_eq (hchange : ∀ loop, (change loop).request = loop.request) :
    (monitor.updateLoop n change).request? k = monitor.request? k :=
  view_updateLoop monitor n k change (·.bind MonitorLoop.request) hchange

theorem serving?_updateLoop_of_eq (hchange : ∀ loop, (change loop).serving = loop.serving) :
    (monitor.updateLoop n change).serving? k = monitor.serving? k :=
  view_updateLoop monitor n k change (·.bind MonitorLoop.serving) hchange

theorem isFinished_updateLoop (hchange : ∀ loop, (change loop).finished = loop.finished) :
    (monitor.updateLoop n change).isFinished k = monitor.isFinished k :=
  view_updateLoop monitor n k change (·.all MonitorLoop.finished) hchange

end

/-! ## Operations -/

variable {monitor : Monitor} {n k : Nat}

theorem lt_of_isFinished (h : monitor.isFinished n = false) : n < monitor.loops.length := by
  by_contra hle
  rw [isFinished, List.getElem?_eq_none (Nat.le_of_not_lt hle)] at h
  cases h

theorem request?_take :
    (monitor.take n).request? k = if n = k then none else monitor.request? k := by
  rw [take, request?_updateLoop, request?]
  cases monitor.loops[k]? <;> split_ifs <;> rfl

theorem serving?_take :
    (monitor.take n).serving? k = if n = k then monitor.request? k else monitor.serving? k := by
  rw [take, serving?_updateLoop, request?, serving?]
  cases monitor.loops[k]? <;> split_ifs <;> rfl

theorem isFinished_take : (monitor.take n).isFinished k = monitor.isFinished k :=
  isFinished_updateLoop _ _ _ _ fun _ => rfl

section

variable {ticket : Nat} {outcome : PassOutcome}

theorem request?_reply : (monitor.reply n ticket outcome).request? k = monitor.request? k :=
  request?_updateLoop_of_eq _ _ _ _ fun _ => rfl

theorem serving?_reply :
    (monitor.reply n ticket outcome).serving? k =
      if n = k then none else monitor.serving? k := by
  show (monitor.updateLoop n _).serving? k = _
  rw [serving?_updateLoop, serving?]
  cases monitor.loops[k]? <;> split_ifs <;> rfl

theorem isFinished_reply :
    (monitor.reply n ticket outcome).isFinished k = monitor.isFinished k :=
  isFinished_updateLoop _ _ _ _ fun _ => rfl

end

theorem request?_accept {ticket : Nat} (hrunning : monitor.isFinished n = false) :
    (monitor.updateLoop n fun loop => { loop with request := some ticket }).request? k =
      if n = k then some ticket else monitor.request? k := by
  rw [request?_updateLoop, request?]
  by_cases heq : n = k
  · subst heq
    rw [List.getElem?_eq_getElem (lt_of_isFinished hrunning), if_pos rfl]
    exact congrArg MonitorLoop.request (if_pos rfl)
  · cases monitor.loops[k]? with
    | none => simp [heq]
    | some loop => simp [heq]

theorem request?_endLoop :
    (monitor.endLoop n).request? k = if n = k then none else monitor.request? k := by
  show (monitor.updateLoop n _).request? k = _
  rw [request?_updateLoop, request?]
  cases monitor.loops[k]? <;> split_ifs <;> rfl

theorem serving?_endLoop :
    (monitor.endLoop n).serving? k = if n = k then none else monitor.serving? k := by
  show (monitor.updateLoop n _).serving? k = _
  rw [serving?_updateLoop, serving?]
  cases monitor.loops[k]? <;> split_ifs <;> rfl

theorem isFinished_endLoop :
    (monitor.endLoop n).isFinished k = (decide (n = k) || monitor.isFinished k) := by
  show (monitor.updateLoop n _).isFinished k = _
  rw [isFinished, getElem?_updateLoop, isFinished]
  cases monitor.loops[k]? with
  | none => simp
  | some loop => by_cases heq : n = k <;> simp [heq]

theorem mem_answers_endLoop {ticket : Nat} {outcome : Option PassOutcome} :
    (ticket, outcome) ∈ (monitor.endLoop n).answers ↔
      (ticket, outcome) ∈ monitor.answers ∨ outcome = none ∧
        (monitor.request? n = some ticket ∨ monitor.serving? n = some ticket) := by
  simp only [endLoop, unmet, List.mem_append, List.mem_map, Option.mem_toList]
  constructor
  · rintro (h | ⟨t, ht, heq⟩)
    · exact .inl h
    · cases heq
      exact .inr ⟨rfl, ht⟩
  · rintro (h | ⟨rfl, ht⟩)
    · exact .inl h
    · exact .inr ⟨ticket, ht, rfl⟩

/-! ### A new loop -/

section

variable {linked : Bool} {monitor' : Monitor}

theorem loops_of_startLoop (h : monitor.startLoop linked = .ok (n, monitor')) :
    n = monitor.loops.length ∧ monitor'.answers = monitor.answers ∧
      monitor'.nextTicket = monitor.nextTicket ∧
      ∀ k, monitor'.loops[k]? = if n = k then some { linked } else monitor.loops[k]? := by
  rw [startLoop] at h
  split_ifs at h
  cases h
  refine ⟨rfl, rfl, rfl, fun k => ?_⟩
  rcases Nat.lt_trichotomy k monitor.loops.length with hlt | rfl | hlt
  · rw [if_neg (Nat.ne_of_gt hlt)]
    exact List.getElem?_append_left hlt
  · rw [if_pos rfl]
    exact List.getElem?_concat_length
  · rw [if_neg (Nat.ne_of_lt hlt), List.getElem?_eq_none (Nat.le_of_lt hlt)]
    exact List.getElem?_eq_none (Nat.le_of_eq List.length_append |>.trans hlt)

variable (h : monitor.startLoop linked = .ok (n, monitor'))
include h

theorem getElem?_of_startLoop : monitor.loops[n]? = none :=
  List.getElem?_eq_none (Nat.le_of_eq (loops_of_startLoop h).1.symm)

/-- Nothing is requested of a new loop. -/
theorem request?_startLoop : monitor'.request? k = monitor.request? k := by
  obtain ⟨-, -, -, hloops⟩ := loops_of_startLoop h
  rw [request?, hloops, request?]
  split_ifs with heq
  · rw [← heq, getElem?_of_startLoop h]
    rfl
  · rfl

theorem serving?_startLoop : monitor'.serving? k = monitor.serving? k := by
  obtain ⟨-, -, -, hloops⟩ := loops_of_startLoop h
  rw [serving?, hloops, serving?]
  split_ifs with heq
  · rw [← heq, getElem?_of_startLoop h]
    rfl
  · rfl

theorem isFinished_startLoop :
    monitor'.isFinished k = if n = k then false else monitor.isFinished k := by
  obtain ⟨-, -, -, hloops⟩ := loops_of_startLoop h
  rw [isFinished, hloops]
  split_ifs <;> rfl

end

end Monitor

end Pulse
