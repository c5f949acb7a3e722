import Pulse.Proofs.Handler.Delivery

/-!
# Two consumers at one store

The heartbeats of all events wait on one queue and the metrics of those that have any on another;
each queue has a consumer of its own.  Between two requests to the store a consumer may be
overtaken by the other, so what matters is not whole messages but single requests.

An `Office` is a store with a desk for each handler.  At a desk messages are taken one after the
other, first come, first served; handling a message is a `Script`, of which a move of the office
carries out one step: a look at the clock, or one request.  Moves can come in any order and at any
times.

* `Handler.deeds` — what handling an event amounts to, apart from the dates: a heartbeat, and a
  sample if the server is registered.
* `Script.Does` — what is left of a script amounts to some deeds.
* `Follows`, `Follows.after`, `follows_afterAll` — after any moves, each desk has done a part of its
  deeds in their order, and the store shows the deeds of both.
* `exists_isIdle` — there is always a way to go on until nothing is left to do.
-/

set_option autoImplicit false

namespace Pulse

open Time (Instant)

/-! ## Scripts -/

/-- What is left of an activity that looks at the clock and makes requests to a store. -/
inductive Script (α : Type) where
  | done (a : α)
  | look (next : Instant → Script α)
  | ask {form : Store.Form} (request : Store.Request form)
    (next : Except StorageError form.Answer → Script α)

namespace Script

variable {α β : Type}

/-- One script after the other. -/
def bind : Script α → (α → Script β) → Script β
  | done a, f => f a
  | look next, f => look fun t => (next t).bind f
  | ask request next, f => ask request fun a => (next a).bind f

instance : Monad Script where
  pure := done
  bind := bind

/-- Makes a request. -/
def request {form : Store.Form} (r : Store.Request form) :
    Script (Except StorageError form.Answer) :=
  ask r done

/-- Looks at the clock. -/
def time : Script Instant :=
  look done

end Script

/-- How a handler goes about an event. -/
def Handler.script (handler : Handler) (event : Event) : Script (Except HandlerError Unit) :=
  handler.handle Script.request Script.time event

/-! ## Desks -/

/-- A consumer: the events that wait for it, and what is left of the one at hand. -/
structure Desk where
  inbox : List Event
  work : Option (Script (Except HandlerError Unit)) := none

namespace Desk

/-- Nothing is left to do at the desk. -/
def IsIdle (desk : Desk) : Prop :=
  desk.inbox = [] ∧ desk.work = none

/-- One step at a desk, at a moment. -/
def step (handler : Handler) (t : Instant) (desk : Desk) (store : MemoryStore) :
    Desk × MemoryStore :=
  match desk.work, desk.inbox with
  | none, [] => (desk, store)
  | none, event :: rest => (⟨rest, some (handler.script event)⟩, store)
  | some (.done _), _ => ({ desk with work := none }, store)
  | some (.look next), _ => ({ desk with work := some (next t) }, store)
  | some (.ask request next), _ =>
    ({ desk with work := some (next (MemoryStore.serve request store).1) },
      (MemoryStore.serve request store).2)

end Desk

/-- A store with a desk for each handler. -/
structure Office where
  store : MemoryStore
  desk : Handler → Desk

/-- The events that are published for a handler. -/
def Handler.queue : Handler → List Event → List Event
  | status, events => events
  | metrics, events => events.filter Event.hasMetrics

namespace Office

/-- The office at the beginning, with events that were published. -/
def opened (store : MemoryStore) (events : List Event) : Office :=
  ⟨store, fun handler => { inbox := handler.queue events }⟩

/-- A step at the desk of a handler, at a moment. -/
structure Move where
  handler : Handler
  time : Instant

/-- The office with another desk for a handler, and another store. -/
def set (office : Office) (handler : Handler) (change : Desk × MemoryStore) : Office :=
  ⟨change.2, Function.update office.desk handler change.1⟩

@[simp]
theorem store_set (office : Office) (handler : Handler) (change : Desk × MemoryStore) :
    (office.set handler change).store = change.2 :=
  rfl

@[simp]
theorem desk_set_self (office : Office) (handler : Handler) (change : Desk × MemoryStore) :
    (office.set handler change).desk handler = change.1 :=
  Function.update_self ..

theorem desk_set_of_ne (office : Office) {handler other : Handler} (h : other ≠ handler)
    (change : Desk × MemoryStore) : (office.set handler change).desk other = office.desk other :=
  Function.update_of_ne h ..

/-- The office after a move. -/
def after (office : Office) (move : Move) : Office :=
  office.set move.handler <|
    (office.desk move.handler).step move.handler move.time office.store

/-- The office after moves, one after the other. -/
def afterAll (office : Office) (moves : List Move) : Office :=
  moves.foldl after office

/-- Nothing is left to do. -/
def IsIdle (office : Office) : Prop :=
  ∀ handler, (office.desk handler).IsIdle

end Office

/-! ## Deeds -/

/-- What a request of a handler comes to, apart from its date. -/
inductive Deed where
  | beat (id : String) (time : Instant)
  | keep (s : Sample)

namespace Deed

/-- The request, at a moment. -/
def call (t : Instant) : Deed → Call
  | beat id time => ⟨.heartbeat id time t⟩
  | keep s => ⟨.insertSample s⟩

/-- The sample that is kept. -/
def sample? : Deed → Option Sample
  | beat _ _ => none
  | keep s => some s

/-- The time of a heartbeat of a server. -/
def beat? (id : String) : Deed → Option Instant
  | beat id' time => if id' = id then some time else none
  | keep _ => none

theorem beat?_eq_some_iff {deed : Deed} {id : String} {time : Instant} :
    deed.beat? id = some time ↔ deed = beat id time := by
  cases deed with
  | beat id' time' => by_cases h : id' = id <;> simp [beat?, h]
  | keep s => simp [beat?]

end Deed

/-- What handling an event comes to if some servers are registered: nothing if it is turned away,
else a heartbeat, and a sample once the heartbeat was accepted. -/
def Handler.deeds (known : String → Bool) (handler : Handler) (event : Event) : List Deed :=
  if handler.Accepts event then
    .beat event.serverId event.timestamp
      :: if known event.serverId then (handler.sample? event).toList.map .keep else []
  else []

namespace Script

variable {known : String → Bool}

/-- A script comes to some deeds, at whatever moments it looks at the clock, if heartbeats are
accepted from the servers that are registered. -/
inductive Does (known : String → Bool) {α : Type} : Script α → List Deed → Prop
  | done (a : α) : Does known (.done a) []
  | look {next : Instant → Script α} {deeds : List Deed} (h : ∀ t, Does known (next t) deeds) :
      Does known (.look next) deeds
  | beat {id : String} {time receivedAt : Instant}
      {next : Except StorageError HeartbeatOutcome → Script α} {deeds : List Deed}
      (hok : known id = true → ∀ outcome, Does known (next (.ok outcome)) deeds)
      (herror : known id = false → ∀ e, Does known (next (.error e)) deeds) :
      Does known (.ask (.heartbeat id time receivedAt) next) (.beat id time :: deeds)
  | keep {s : Sample} {next : Except StorageError Unit → Script α} {deeds : List Deed}
      (h : Does known (next (.ok ())) deeds) :
      Does known (.ask (.insertSample s) next) (.keep s :: deeds)

/-- What is asked of the store after a heartbeat. -/
theorem Does.ite_known {deeds : List Deed} {id : String} {time receivedAt : Instant}
    {next : Except StorageError HeartbeatOutcome → Script (Except HandlerError Unit)}
    (hok : ∀ outcome, Does known (next (.ok outcome)) deeds)
    (herror : ∀ e, Does known (next (.error e)) []) :
    Does known (.ask (.heartbeat id time receivedAt) next)
      (.beat id time :: if known id then deeds else []) := by
  refine .beat (fun hk outcome => ?_) fun hk e => ?_
  · rw [if_pos hk]
    exact hok outcome
  · rw [hk]
    exact herror e

/-- **Handling an event comes to its deeds.** -/
theorem does_deeds (known : String → Bool) (handler : Handler) (event : Event) :
    (handler.script event).Does known (handler.deeds known event) := by
  rw [Handler.deeds]
  cases handler with
  | status =>
    rw [if_pos (show Handler.status.Accepts event from trivial)]
    exact .look fun t => .ite_known (fun _ => .done _) fun _ => .done _
  | metrics =>
    by_cases ha : event.refusal? = none
    · rw [if_pos (show Handler.metrics.Accepts event from ha), Handler.script, Handler.handle,
        applyMetrics, ha, Handler.sample?, ha]
      cases event.hasMetrics with
      | true => exact .look fun t => .ite_known (fun _ => .keep (.done _)) fun _ => .done _
      | false => exact .look fun t => .ite_known (fun _ => .done _) fun _ => .done _
    · obtain ⟨reason, hreason⟩ := Option.ne_none_iff_exists'.1 ha
      rw [if_neg (show ¬ Handler.metrics.Accepts event from ha), Handler.script, Handler.handle,
        applyMetrics, hreason]
      exact .done _

end Script

/-! ## The course of a store -/

namespace MemoryStore

/-- The server is registered. -/
def knows (store : MemoryStore) (id : String) : Bool :=
  (store.get? id).isSome

/-- The stores to which deeds can lead, in their order and at whatever moments. -/
inductive Course (store₀ : MemoryStore) : List Deed → MemoryStore → Prop
  | start : Course store₀ [] store₀
  | step {deeds : List Deed} {store : MemoryStore} (h : Course store₀ deeds store) (deed : Deed)
      (t : Instant) : Course store₀ (deeds ++ [deed]) (store.after (deed.call t))

/-- A deed does not concern a server of which it is no heartbeat. -/
theorem after_of_beat?_eq_none (store : MemoryStore) {deed : Deed} {id : String}
    (h : deed.beat? id = none) (t : Instant) :
    (store.after (deed.call t)).get? id = store.get? id ∧
      (store.after (deed.call t)).historyOf id = store.historyOf id := by
  cases deed with
  | keep s => exact ⟨rfl, rfl⟩
  | beat id' time =>
    have hne : id' ≠ id := by
      rintro rfl
      simp [Deed.beat?] at h
    have he := effect_after store id ⟨.heartbeat id' time t⟩
    show (store.after ⟨.heartbeat id' time t⟩).get? id = _ ∧
      (store.after ⟨.heartbeat id' time t⟩).historyOf id = _
    generalize (store.after ⟨.heartbeat id' time t⟩).get? id = record',
      (store.after ⟨.heartbeat id' time t⟩).historyOf id = changes' at he ⊢
    cases he with
    | untouched => exact ⟨rfl, rfl⟩
    | seen => exact absurd rfl hne
    | turnedOn => exact absurd rfl hne

theorem knows_after (store : MemoryStore) (deed : Deed) (t : Instant) :
    (store.after (deed.call t)).knows = store.knows := by
  funext id
  cases hbeat : deed.beat? id with
  | none => rw [knows, (store.after_of_beat?_eq_none hbeat t).1, knows]
  | some time =>
    obtain rfl := Deed.beat?_eq_some_iff.1 hbeat
    show (store.after ⟨.heartbeat id time t⟩).knows id = _
    rw [knows, knows]
    cases hget : store.get? id with
    | none => rw [after_heartbeat_of_none hget, hget]
    | some record =>
      rw [get?_after_heartbeat hget]
      rfl

/-- Deeds register nobody. -/
theorem Course.knows_eq {store₀ store : MemoryStore} {deeds : List Deed}
    (h : store₀.Course deeds store) : store.knows = store₀.knows := by
  induction h with
  | start => rfl
  | step _ deed t ih => rw [knows_after, ih]

theorem serve_snd {form : Store.Form} (request : Store.Request form) (store : MemoryStore) :
    (serve request store).2 = store.after ⟨request⟩ := by
  rw [serve, after]
  dsimp only
  cases store.run request <;> rfl

end MemoryStore

/-! ## What a desk owes -/

namespace Desk

variable {known : String → Bool} {handler : Handler} {desk : Desk} {owed : List Deed}
  {store : MemoryStore}

/-- What is left to do at a desk comes to some deeds. -/
inductive Owes (known : String → Bool) (handler : Handler) : Desk → List Deed → Prop
  | free (inbox : List Event) :
      Owes known handler ⟨inbox, none⟩ (inbox.flatMap (handler.deeds known))
  | busy {script : Script (Except HandlerError Unit)} {deeds : List Deed}
      (h : script.Does known deeds) (inbox : List Event) :
      Owes known handler ⟨inbox, some script⟩ (deeds ++ inbox.flatMap (handler.deeds known))

/-- **A step at a desk** leaves the store alone and owes the same, or does what was owed first. -/
theorem Owes.step (h : desk.Owes known handler owed) (hknown : store.knows = known) (t : Instant) :
    ((desk.step handler t store).1.Owes known handler owed ∧
      (desk.step handler t store).2 = store) ∨
    ∃ deed rest t', owed = deed :: rest ∧ (desk.step handler t store).1.Owes known handler rest ∧
      (desk.step handler t store).2 = store.after (deed.call t') := by
  cases h with
  | free inbox =>
    cases inbox with
    | nil => exact .inl ⟨.free [], rfl⟩
    | cons event rest =>
      refine .inl ⟨?_, rfl⟩
      rw [List.flatMap_cons]
      exact .busy (Script.does_deeds known handler event) rest
  | busy h inbox =>
    cases h with
    | done a => exact .inl ⟨.free inbox, rfl⟩
    | look h => exact .inl ⟨.busy (h t) inbox, rfl⟩
    | @beat id time receivedAt next deeds hok herror =>
      refine .inr ⟨.beat id time, _, receivedAt, rfl, .busy ?_ inbox, MemoryStore.serve_snd ..⟩
      cases hget : store.get? id with
      | none =>
        have hserve := MemoryStore.run_serve_of_none hget time receivedAt
        rw [show MemoryStore.serve (.heartbeat id time receivedAt) store = _ from hserve]
        exact herror (by rw [← hknown, MemoryStore.knows, hget]; rfl) _
      | some record =>
        have hserve := MemoryStore.run_serve_of_some hget time receivedAt
        rw [show MemoryStore.serve (.heartbeat id time receivedAt) store = _ from hserve]
        exact hok (by rw [← hknown, MemoryStore.knows, hget]; rfl) _
    | @keep s next deeds h =>
      exact .inr ⟨.keep s, _, t, rfl, .busy h inbox, rfl⟩

theorem Owes.eq_nil (h : desk.Owes known handler owed) (hidle : desk.IsIdle) : owed = [] := by
  obtain ⟨hinbox, hwork⟩ := hidle
  cases h with
  | free inbox =>
    obtain rfl : inbox = [] := hinbox
    rfl
  | busy => cases hwork

end Desk

/-! ## Moves -/

/-- The deeds of all events for a handler, in the order of its queue. -/
def Handler.duties (known : String → Bool) (handler : Handler) (events : List Event) :
    List Deed :=
  (handler.queue events).flatMap (handler.deeds known)

/-- In status no samples are kept. -/
theorem Handler.sample?_eq_none_of_mem {known : String → Bool} {events : List Event} {deed : Deed}
    (h : deed ∈ Handler.status.duties known events) : deed.sample? = none := by
  obtain ⟨event, -, hdeed⟩ := List.mem_flatMap.1 h
  simp only [deeds, Accepts, if_true, sample?, Option.toList_none, List.map_nil, ite_self,
    List.mem_singleton] at hdeed
  rw [hdeed]
  rfl

namespace Office

/-- Each desk has done a part of its duties, in their order, and the store shows the deeds of both
in the order in which they were done. -/
structure Follows (store₀ : MemoryStore) (events : List Event) (made : Handler → List Deed)
    (log : List Deed) (office : Office) : Prop where
  course : store₀.Course log office.store
  owes : ∀ handler, ∃ owed, (office.desk handler).Owes store₀.knows handler owed ∧
    made handler ++ owed = handler.duties store₀.knows events
  perm : log.Perm (made .status ++ made .metrics)
  kept : log.filterMap Deed.sample? = (made .metrics).filterMap Deed.sample?

variable {store₀ : MemoryStore} {events : List Event} {made : Handler → List Deed}
  {log : List Deed} {office : Office}

theorem follows_opened (store₀ : MemoryStore) (events : List Event) :
    (opened store₀ events).Follows store₀ events (fun _ => []) [] where
  course := .start
  owes _ := ⟨_, .free _, rfl⟩
  perm := List.Perm.nil
  kept := rfl

theorem Follows.perm_update (h : office.Follows store₀ events made log) (handler : Handler)
    (deed : Deed) :
    (log ++ [deed]).Perm (Function.update made handler (made handler ++ [deed]) .status ++
      Function.update made handler (made handler ++ [deed]) .metrics) := by
  have hperm := h.perm.append_right [deed]
  cases handler with
  | status =>
    rw [Function.update_self, Function.update_of_ne (by simp), List.append_assoc]
    refine hperm.trans ?_
    rw [List.append_assoc]
    exact List.perm_append_comm.append_left _
  | metrics =>
    rw [Function.update_self, Function.update_of_ne (by simp), ← List.append_assoc]
    exact hperm

/-- A desk that only gets ready for its next duty. -/
theorem Follows.set (h : office.Follows store₀ events made log) {handler : Handler} {desk : Desk}
    {owed : List Deed} (hdesk : desk.Owes store₀.knows handler owed)
    (hduties : made handler ++ owed = handler.duties store₀.knows events) :
    (office.set handler (desk, office.store)).Follows store₀ events made log where
  course := h.course
  owes other := by
    by_cases hother : other = handler
    · subst hother
      exact ⟨owed, by rwa [desk_set_self], hduties⟩
    · rw [desk_set_of_ne _ hother]
      exact h.owes other
  perm := h.perm
  kept := h.kept

/-- A desk that does its next duty. -/
theorem Follows.deed (h : office.Follows store₀ events made log) {handler : Handler} {desk : Desk}
    {deed : Deed} {rest : List Deed} (t : Instant)
    (hdesk : desk.Owes store₀.knows handler rest)
    (hduties : made handler ++ deed :: rest = handler.duties store₀.knows events) :
    (office.set handler (desk, office.store.after (deed.call t))).Follows store₀ events
      (Function.update made handler (made handler ++ [deed])) (log ++ [deed]) where
  course := h.course.step deed t
  owes other := by
    by_cases hother : other = handler
    · subst hother
      refine ⟨rest, by rwa [desk_set_self], ?_⟩
      rw [Function.update_self, List.append_assoc]
      exact hduties
    · rw [desk_set_of_ne _ hother, Function.update_of_ne hother]
      exact h.owes other
  perm := h.perm_update handler deed
  kept := by
    rw [List.filterMap_append, h.kept]
    cases handler with
    | status =>
      have hmem : deed ∈ Handler.status.duties store₀.knows events := by
        rw [← hduties]
        simp
      rw [Function.update_of_ne (by simp),
        List.filterMap_cons_none (Handler.sample?_eq_none_of_mem hmem), List.filterMap_nil,
        List.append_nil]
    | metrics => rw [Function.update_self, List.filterMap_append]

/-- **A move keeps each desk to its duties.** -/
theorem Follows.after (h : office.Follows store₀ events made log) (move : Move) :
    ∃ made' log', (office.after move).Follows store₀ events made' log' := by
  obtain ⟨owed, howes, hduties⟩ := h.owes move.handler
  have hstep := howes.step h.course.knows_eq move.time
  rw [Office.after]
  generalize (office.desk move.handler).step move.handler move.time office.store = change at hstep ⊢
  obtain ⟨desk, store⟩ := change
  rcases hstep with ⟨hdesk, hstore⟩ | ⟨deed, rest, t, rfl, hdesk, hstore⟩
  · obtain rfl : store = office.store := hstore
    exact ⟨made, log, h.set hdesk hduties⟩
  · obtain rfl : store = office.store.after (deed.call t) := hstore
    exact ⟨_, _, h.deed t hdesk hduties⟩

/-- **After any moves, each desk has kept to its duties.** -/
theorem Follows.afterAll (h : office.Follows store₀ events made log) (moves : List Move) :
    ∃ made' log', (office.afterAll moves).Follows store₀ events made' log' := by
  induction moves generalizing office made log with
  | nil => exact ⟨made, log, h⟩
  | cons move moves ih =>
    obtain ⟨made', log', h'⟩ := h.after move
    exact ih h'

/-! ## Going on to the end -/

theorem afterAll_append (office : Office) (moves more : List Move) :
    office.afterAll (moves ++ more) = (office.afterAll moves).afterAll more :=
  List.foldl_append ..

/-- Some moves lead to a desk of a kind, and the others stay as they are. -/
def Leads (office : Office) (handler : Handler) (P : Desk → Prop) : Prop :=
  ∃ moves, P ((office.afterAll moves).desk handler) ∧
    ∀ other, other ≠ handler → (office.afterAll moves).desk other = office.desk other

theorem Leads.move {handler : Handler} {P : Desk → Prop} (t : Instant)
    (h : (office.after ⟨handler, t⟩).Leads handler P) : office.Leads handler P := by
  obtain ⟨moves, hP, hothers⟩ := h
  exact ⟨⟨handler, t⟩ :: moves, hP, fun other hother =>
    (hothers other hother).trans (desk_set_of_ne _ hother _)⟩

theorem desk_after {office : Office} {handler : Handler} {desk : Desk}
    (h : office.desk handler = desk) (t : Instant) :
    (office.after ⟨handler, t⟩).desk handler = (desk.step handler t office.store).1 := by
  rw [Office.after, desk_set_self, h]

/-- The message at hand can be dealt with. -/
theorem leads_free (handler : Handler) (inbox : List Event)
    (script : Script (Except HandlerError Unit)) (office : Office)
    (h : office.desk handler = ⟨inbox, some script⟩) :
    office.Leads handler (· = ⟨inbox, none⟩) := by
  have hstep := desk_after h (.ofMillis 0)
  induction script generalizing office with
  | done a => exact .move _ ⟨[], hstep, fun _ _ => rfl⟩
  | look next ih => exact .move _ (ih _ _ hstep (desk_after hstep _))
  | ask request next ih => exact .move _ (ih _ _ hstep (desk_after hstep _))

/-- All that waits for a desk can be dealt with. -/
theorem leads_isIdle_of_free (handler : Handler) (inbox : List Event) (office : Office)
    (h : office.desk handler = ⟨inbox, none⟩) : office.Leads handler Desk.IsIdle := by
  induction inbox generalizing office with
  | nil => exact ⟨[], by rw [afterAll, List.foldl_nil, h]; exact ⟨rfl, rfl⟩, fun _ _ => rfl⟩
  | cons event rest ih =>
    have htaken := desk_after h (.ofMillis 0)
    obtain ⟨moves, hfree, hothers⟩ := leads_free handler rest _ _ htaken
    obtain ⟨more, hidle, hothers'⟩ := ih _ hfree
    refine .move _ ⟨moves ++ more, by rwa [afterAll_append], fun other hother => ?_⟩
    rw [afterAll_append, hothers' other hother, hothers other hother]

/-- All that is left to do at a desk can be done. -/
theorem leads_isIdle (office : Office) (handler : Handler) :
    office.Leads handler Desk.IsIdle := by
  rcases hdesk : office.desk handler with ⟨inbox, work⟩
  cases work with
  | none => exact leads_isIdle_of_free handler inbox office hdesk
  | some script =>
    obtain ⟨moves, hfree, hothers⟩ := leads_free handler inbox script office hdesk
    obtain ⟨more, hidle, hothers'⟩ := leads_isIdle_of_free handler inbox _ hfree
    refine ⟨moves ++ more, by rwa [afterAll_append], fun other hother => ?_⟩
    rw [afterAll_append, hothers' other hother, hothers other hother]

/-- **There is always a way to go on until nothing is left to do.** -/
theorem exists_isIdle (office : Office) : ∃ moves, (office.afterAll moves).IsIdle := by
  obtain ⟨moves, hstatus, -⟩ := office.leads_isIdle .status
  obtain ⟨more, hmetrics, hothers⟩ := (office.afterAll moves).leads_isIdle .metrics
  refine ⟨moves ++ more, fun handler => ?_⟩
  rw [afterAll_append]
  cases handler with
  | status =>
    rw [hothers .status (by simp)]
    exact hstatus
  | metrics => exact hmetrics

end Office

end Pulse
