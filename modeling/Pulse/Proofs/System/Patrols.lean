import Pulse.Proofs.System.Duties

/-!
# Passes as they run

A pass that has listed the records deals with them side by side and waits in between.  All that it
asks of the store, whatever kind of store that is, is to turn off servers that it has listed and
judged silent: `Patrol.meets_checkRecords`.  So what a running pass does in a stretch without
waiting is a row of the steps that a `Watch` knows, `Watch.exists_moves_of_meets`, and what holds of
every watch holds of the passes of the program.
-/

set_option autoImplicit false

namespace Pulse

open Activity (Meets)

/-- What happens to a system in a stretch that makes only calls of a kind. -/
def System.Asked (P : Call → Prop) (_ : Nat) (s s' : System) : Prop :=
  ∃ calls : List Call, (∀ call ∈ calls, P call) ∧ s'.store = calls.foldl Store.after s.store

namespace System

variable {P : Call → Prop} {t : Nat} {s s' s'' : System}

theorem Asked.refl (t : Nat) (s : System) : Asked P t s s :=
  ⟨[], List.forall_mem_nil _, rfl⟩

theorem Asked.trans (h : Asked P t s s') (h' : Asked P t s' s'') : Asked P t s s'' := by
  obtain ⟨calls, hcalls, hs⟩ := h
  obtain ⟨more, hmore, hs'⟩ := h'
  refine ⟨calls ++ more, List.forall_mem_append.2 ⟨hcalls, hmore⟩, ?_⟩
  rw [List.foldl_append, ← hs, hs']

end System

theorem of_takeOver {t : Nat} {underway others : List Underway} {u : Underway}
    (h : takeOver t underway = some (u, others)) :
    u ∈ underway ∧ ∀ v ∈ others, v ∈ underway := by
  induction underway generalizing u others with
  | nil => cases h
  | cons w rest ih =>
    rw [takeOver] at h
    split at h
    · cases h
      exact ⟨List.mem_cons_self, fun v hv => List.mem_cons_of_mem _ hv⟩
    · obtain ⟨⟨v, vs⟩, hrest, heq⟩ := Option.map_eq_some_iff.1 h
      cases heq
      obtain ⟨hv, hvs⟩ := ih hrest
      refine ⟨List.mem_cons_of_mem w hv, List.forall_mem_cons.2 ⟨List.mem_cons_self, ?_⟩⟩
      exact fun x hx => List.mem_cons_of_mem w (hvs x hx)

namespace Patrol

variable {patrol : Patrol} {t : Nat} {s : System}

/-- A pass asks for this about one of the records that it has listed. -/
def Asks (patrol : Patrol) (call : Call) : Prop :=
  ∃ record ∈ patrol.listed, patrol.demotion? record = some call

/-- What is asked of a disturbed store in one go. -/
theorem meets_answer {form : Store.Form} {request : Store.Request form} {P : Call → Prop}
    {Q : Except StorageError form.Answer → Nat → System → Prop} (hP : P ⟨request⟩)
    (h : ∀ a s, Q a t s) : Meets (System.Asked P) Q (Action.answer request) t s := by
  rw [Action.answer, Meets]
  split
  · exact h _ _
  · next a next hrun =>
    refine ⟨⟨[⟨request⟩], by simpa using hP, ?_⟩, h _ _⟩
    exact Disturbance.run_eq_after hrun

theorem meets_endDemotion {u : Underway} {Q : RecordOutcome → Nat → System → Prop}
    (hu : patrol.Asks ⟨.demote u.serverId u.seenBefore patrol.now⟩)
    (t' : Nat) (h : ∀ outcome s, Q outcome t s) :
    Meets (System.Asked patrol.Asks) Q (Action.endDemotion patrol.now t' u) t s := by
  show Meets _ _ (if _ then _ else _) t s
  split
  · exact Meets.bind (meets_answer hu fun a s => h _ s)
  · exact h _ s

/-- **A pass asks only for what its judgement of the listed records asks for**, whatever happens
while it waits. -/
theorem meets_checkRecords (settings : MonitoringSettings)
    (hgrace : patrol.grace = settings.graceMultiplier) (steps : Nat) {todo : List ServerRecord}
    {underway : List Underway} (report : PassReport)
    (htodo : ∀ record ∈ todo, record ∈ patrol.listed)
    (hunderway : ∀ u ∈ underway, patrol.Asks ⟨.demote u.serverId u.seenBefore patrol.now⟩)
    (t : Nat) (s : System) :
    Meets (System.Asked patrol.Asks) (fun _ _ _ => True)
      (Action.checkRecords settings patrol.now steps todo underway report) t s := by
  induction steps generalizing todo underway report t s with
  | zero => trivial
  | succ steps ih =>
    unfold Action.checkRecords
    refine Meets.bind (Meets.clock ?_)
    split
    · next u others htake =>
      obtain ⟨hu, hothers⟩ := of_takeOver htake
      refine Meets.bind (Meets.clock (Meets.bind ?_))
      refine meets_endDemotion (hunderway u hu) t fun outcome s => ?_
      exact ih _ htodo (fun v hv => hunderway v (hothers v hv)) t s
    · split
      · next record rest =>
        obtain ⟨hrecord, hrest⟩ := List.forall_mem_cons.1 htodo
        split
        · cases hverdict : record.verdict patrol.now settings.graceMultiplier with
          | error _ => trivial
          | ok verdict =>
            refine Meets.bind ?_
            cases verdict with
            | undefined | unchanged => exact ih _ hrest hunderway t s
            | silent seenBefore =>
              refine Meets.bind (Meets.clock (Meets.bind (Meets.get (ih _ hrest ?_ t s))))
              refine List.forall_mem_append.2 ⟨hunderway, ?_⟩
              rw [List.forall_mem_singleton]
              refine ⟨record, hrecord, ?_⟩
              rw [demotion?, hgrace, hverdict]
        · exact Meets.bind (Meets.waiting System.Asked.refl fun t s => ih _ htodo hunderway t s)
      · split
        · trivial
        · exact Meets.bind (Meets.waiting System.Asked.refl fun t s => ih _ htodo hunderway t s)

end Patrol

namespace Watch

variable {w : Watch} {patrol : Patrol} {i : Nat}

/-- What a pass asks for is a step that a watch knows. -/
theorem exists_move_of_asks (hpatrol : w.patrols[i]? = some patrol) {call : Call}
    (h : patrol.Asks call) : ∃ j, w.after (.demote i j) = w.ask call := by
  obtain ⟨record, hrecord, hcall⟩ := h
  obtain ⟨j, hj⟩ := List.mem_iff_getElem?.1 hrecord
  refine ⟨j, ?_⟩
  have hdemotion : w.demotion? i j = some call := by
    simp only [demotion?, hpatrol, hj, Option.bind_eq_bind, Option.bind_some, hcall]
  rw [after, hdemotion]
  rfl

theorem exists_moves_of_asks (hpatrol : w.patrols[i]? = some patrol) {calls : List Call}
    (h : ∀ call ∈ calls, patrol.Asks call) :
    ∃ places : List Nat, (w.afterAll (places.map (.demote i))).store =
      calls.foldl Store.after w.store := by
  induction calls generalizing w with
  | nil => exact ⟨[], rfl⟩
  | cons call calls ih =>
    obtain ⟨hcall, hcalls⟩ := List.forall_mem_cons.1 h
    obtain ⟨j, hj⟩ := exists_move_of_asks hpatrol hcall
    have hpatrol' : (w.after (.demote i j)).patrols[i]? = some patrol := by
      rw [hj]
      exact hpatrol
    obtain ⟨places, hplaces⟩ := ih hpatrol' hcalls
    refine ⟨j :: places, hplaces.trans ?_⟩
    rw [hj]
    rfl

/-- **A stretch of a running pass is a row of steps of a watch**: what is left of a pass, after it
has listed the records, only turns off servers that it has listed and judged. -/
theorem exists_moves_of_meets (hpatrol : w.patrols[i]? = some patrol) {α : Type} {a : Action α}
    {Q : α → Nat → System → Prop} {t : Nat} {s : System} (hstore : s.store = w.store)
    (h : Meets (System.Asked patrol.Asks) Q a t s) :
    ∃ places : List Nat,
      (a.run t s []).2.1.store = (w.afterAll (places.map (.demote i))).store := by
  obtain ⟨⟨calls, hcalls, hnext⟩, -⟩ :=
    Meets.run System.Asked.refl (fun _ _ _ _ => System.Asked.trans) h []
  obtain ⟨places, hplaces⟩ := exists_moves_of_asks hpatrol hcalls
  exact ⟨places, by rw [hnext, hplaces, hstore]⟩

end Watch

end Pulse
