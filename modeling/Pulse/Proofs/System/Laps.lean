import Pulse.Proofs.Handler.Fates
import Pulse.Proofs.System.Stretches
import Pulse.System.Consuming

/-!
# A consumer at work

A consumer takes the messages of its queue one after the other, one in each lap.  With a store in
memory that answers at once, a lap is a single stretch, so nothing happens while a message is
handled; between two laps anything may happen that leaves the consumer and the store alone, and
more messages may come in.

* `Performs` — an activity does to the system what a computation does to the store in memory.
* `System.Attends.run_consume` — one lap: the consumer goes on, whatever the message is.
* `Laps.contained` — all laps: messages are taken in the order of the queue, each once and each
  counted as its fate says, and those that are not processed do nothing.
-/

set_option autoImplicit false

namespace Pulse

open Activity (Progress run_bind run_within_of_finished)
open Time (Instant)

/-! ## Requests that are answered at once -/

/-- The store answers all requests, and at once. -/
def Disturbance.IsCalm (d : Disturbance) : Prop :=
  ∀ {form : Store.Form} (request : Store.Request form),
    d.delay request.kind = 0 ∧ d.failure? request = none

/-- At a time when the clock shows `now`, a stretch of an activity does with any store in memory what
a computation does. -/
def Performs {α : Type} (now : Instant) (a : Action α) (x : StateM MemoryStore α) : Prop :=
  ∀ (t : Nat) (s : System) (store : MemoryStore) (started : List Process),
    s.moment? t = some now → s.store = .memory store → s.disturbance.IsCalm →
      a.run t s started =
        (.finished (x.run store).1, { s with store := .memory (x.run store).2 }, started)

namespace Performs

variable {α β : Type} {now : Instant}

theorem pure (b : α) : Performs now (Pure.pure b : Action α) (Pure.pure b) := by
  intro t s store started _ hstore _
  have hs : { s with store := .memory store } = s := by rw [← hstore]
  show (Progress.finished b, s, started) =
    (Progress.finished b, { s with store := .memory store }, started)
  rw [hs]

theorem bind {a : Action β} {x : StateM MemoryStore β} {f : β → Action α}
    {g : β → StateM MemoryStore α} (h : Performs now a x) (hnext : ∀ b, Performs now (f b) (g b)) :
    Performs now (a >>= f) (x >>= g) := by
  intro t s store started hnow hstore hcalm
  rw [run_bind, h t s store started hnow hstore hcalm]
  exact hnext _ t { s with store := .memory (x.run store).2 } _ started hnow rfl hcalm

theorem now_bind {f : Instant → Action α} {x : StateM MemoryStore α} (h : Performs now (f now) x) :
    Performs now (Action.now >>= f) x := by
  intro t s store started hnow hstore hcalm
  rw [Action.run_now_bind, hnow]
  exact h t s store started hnow hstore hcalm

/-- A request, other than for the health of the store. -/
theorem ask {form : Store.Form} {request : Store.Request form} (hkind : request.kind ≠ .health) :
    Performs now (Action.ask request) (MemoryStore.serve request) := by
  intro t s store started _ hstore hcalm
  obtain ⟨hdelay, hfailure⟩ := hcalm request
  have hanswer : s.disturbance.run request s.store = s.store.run request := by
    unfold Disturbance.run
    rw [hfailure]
    cases request with
    | health => exact absurd rfl hkind
    | _ => rfl
  rw [Action.ask, Action.run_state_bind, hdelay]
  show (Action.answer request).run t s started = _
  rw [Action.answer, Activity.run, hanswer, hstore]
  simp only [StateT.run, MemoryStore.serve, Store.run]
  cases store.run request with
  | error e =>
    have hs : { s with store := .memory store } = s := by rw [← hstore]
    simp only [Except.map, Activity.run, hs]
  | ok p => rfl

theorem applyHeartbeat (event : Event) :
    Performs now (Pulse.applyHeartbeat Action.ask Action.now event)
      (Pulse.applyHeartbeat MemoryStore.serve (Pure.pure now) event) := by
  refine now_bind ?_
  rw [Pulse.applyHeartbeat, pure_bind]
  refine (ask (by simp [Store.Request.kind])).bind fun result => ?_
  cases result <;> exact pure _

/-- **A handler at work** in the system does what it does with the store alone. -/
theorem handle (handler : Handler) (event : Event) :
    Performs now (handler.handle Action.ask Action.now event)
      (handler.handle MemoryStore.serve (Pure.pure now) event) := by
  cases handler with
  | status => exact applyHeartbeat event
  | metrics =>
    rw [Handler.handle, Handler.handle, applyMetrics, applyMetrics]
    cases event.refusal? with
    | some reason => exact pure _
    | none =>
      refine (applyHeartbeat event).bind fun result => ?_
      cases result with
      | error e => exact pure _
      | ok u =>
        dsimp only
        split_ifs
        · refine (ask (by simp [Store.Request.kind])).bind fun result => ?_
          cases result <;> exact pure _
        · exact pure _

end Performs

/-! ## The messages before a consumer -/

namespace Bus

variable {bus : Bus} {subscription : Nat} {message : Message} {rest : List Message}

/-- The messages that wait for a subscription, oldest first, if it holds a queue. -/
def inLine? (bus : Bus) (subscription : Nat) : Option (List Message) :=
  (bus.channels.find? fun c => c.subscriber = some subscription).map Channel.pending

/-- A subscription receives the oldest message, and the others go on waiting. -/
theorem receive_of_inLine? (h : bus.inLine? subscription = some (message :: rest)) :
    ∃ bus', bus.receive subscription = (.message message, bus') ∧
      bus'.inLine? subscription = some rest := by
  obtain ⟨c, hc, hpending⟩ := Option.map_eq_some_iff.1 h
  refine ⟨bus.update c.queue fun c => { c with pending := rest }, ?_, ?_⟩
  · rw [receive, hc]
    dsimp only
    rw [hpending]
  · have hsame (d : Channel) : (if d.queue = c.queue then { d with pending := rest } else d).subscriber =
        d.subscriber := by
      split_ifs <;> rfl
    rw [inLine?, update, List.find?_map]
    simp only [Function.comp_def, hsame, hc, Option.map_some, if_true]

/-- A subscription receives no message but the oldest that waits. -/
theorem exists_inLine?_of_receive {waiting : List Message}
    (h : bus.inLine? subscription = some waiting)
    (hreceive : (bus.receive subscription).1 = .message message) :
    ∃ rest, waiting = message :: rest := by
  cases waiting with
  | nil =>
    obtain ⟨c, hc, hpending⟩ := Option.map_eq_some_iff.1 h
    rw [receive, hc] at hreceive
    dsimp only at hreceive
    rw [hpending] at hreceive
    dsimp only at hreceive
    split_ifs at hreceive
  | cons first rest =>
    obtain ⟨bus', hfirst, -⟩ := receive_of_inLine? h
    rw [hfirst] at hreceive
    cases hreceive
    exact ⟨rest, rfl⟩

/-- Who waits for the oldest message does not wait any longer. -/
theorem ready_of_inLine? (h : bus.inLine? subscription = some (message :: rest)) :
    bus.ready subscription = true := by
  obtain ⟨bus', hreceive, -⟩ := receive_of_inLine? h
  simp [ready, hreceive]

end Bus

/-! ## One lap -/

/-- A consumer works with a store in memory that answers at once, and messages wait for it. -/
structure System.Attends (s : System) (consumer : Consumer) (store : MemoryStore)
    (waiting : List Message) : Prop where
  inMemory : s.store = .memory store
  calm : s.disturbance.IsCalm
  listed : s.consumer? consumer.subscription = some consumer
  goesOn : Action.consumerStops consumer.subscription s = false
  inLine : s.bus.inLine? consumer.subscription = some waiting

namespace System

variable {s s' : System} {consumer : Consumer} {store : MemoryStore} {message : Message}
  {waiting rest : List Message} {t : Nat} {now : Instant}

theorem consumer?_map {subscription : Nat} (h : s.consumer? subscription = some consumer)
    (change : Consumer → Consumer) (hchange : ∀ c, (change c).subscription = c.subscription) :
    System.consumer? { s with consumers := s.consumers.map fun c =>
      if c.subscription = subscription then change c else c } subscription =
        some (change consumer) := by
  have hsame (c : Consumer) : (if c.subscription = subscription then change c else c).subscription =
      c.subscription := by
    split_ifs <;> simp [hchange]
  have hnumber : consumer.subscription = subscription := by
    simpa using List.find?_some h
  rw [consumer?] at h
  rw [consumer?, List.find?_map]
  simp only [Function.comp_def, hsame, h, Option.map_some, hnumber, if_true]

/-- Giving a message to its handler. -/
theorem run_handleMessage (hnow : s.moment? t = some now) (hstore : s.store = .memory store)
    (hcalm : s.disturbance.IsCalm) (consumer : Consumer) (message : Message)
    (started : List Process) :
    (Action.handleMessage consumer message).run t s started =
      (.finished (consumer.handlers.treat store message now).1,
        { s with store := .memory (consumer.handlers.treat store message now).2 }, started) := by
  rw [Action.handleMessage]
  cases hdispatch : consumer.handlers.dispatch? message with
  | none =>
    have hs : { s with store := .memory store } = s := by rw [← hstore]
    rw [Handlers.treat_of_none hdispatch, hs]
    rfl
  | some p =>
    obtain ⟨handler, event⟩ := p
    have hhandle := Performs.handle handler event t s store started hnow hstore hcalm
    rw [Handlers.treat_of_some hdispatch]
    dsimp only
    rw [Action.run_clock_bind, run_bind, run_within_of_finished hhandle]
    rfl

/-- **One lap**: whatever the oldest message is, the consumer takes it, counts what has come of it and
goes on. -/
theorem Attends.run_consume (h : s.Attends consumer store (message :: rest))
    (hnow : s.moment? t = some now) :
    ∃ s', (Action.consume consumer.subscription).run t s [] =
        (.finished (some (.consumer consumer.subscription)), s', []) ∧
      s'.Attends
        { consumer with
          stats := consumer.stats.count (consumer.handlers.fate store.knows message) }
        (consumer.handlers.treat store message now).2 rest ∧
      s'.origin = s.origin := by
  obtain ⟨bus, hreceive, hrest⟩ := Bus.receive_of_inLine? h.inLine
  have hready : (Action.consumerStops consumer.subscription s ||
      s.bus.ready consumer.subscription || Activity.rang none t) = true := by
    simp [Bus.ready_of_inLine? h.inLine]
  have htaken := run_handleMessage (s := { s with bus }) hnow h.inMemory h.calm consumer message []
  have hfate := consumer.handlers.treat_fst store message now
  generalize consumer.handlers.treat store message now = treated at htaken hfate ⊢
  have hcounted := consumer?_map h.listed
    (fun c => { c with stats := c.stats.count treated.1 }) fun _ => rfl
  refine ⟨{ s with
    bus
    store := .memory treated.2
    consumers := s.consumers.map fun c => if c.subscription = consumer.subscription
      then { c with stats := c.stats.count treated.1 } else c }, ?_, ?_, rfl⟩
  · rw [Action.consume, Activity.waitFor, run_bind, Activity.run, if_pos hready]
    show Activity.run t (Action.state >>= _) s [] = _
    rw [Action.run_state_bind, h.goesOn, if_neg Bool.false_ne_true, h.listed, hreceive]
    show Activity.run t (Action.handleMessage consumer message >>= _) { s with bus } [] = _
    rw [run_bind, htaken]
    rfl
  · rw [← hfate]
    exact {
      inMemory := rfl
      calm := h.calm
      listed := hcounted
      goesOn := by
        have hgoes := h.goesOn
        simp only [Action.consumerStops, h.listed, Option.any_some] at hgoes
        rw [Action.consumerStops]
        exact (congrArg (s.cancelled || Option.any Consumer.stopping ·) hcounted).trans hgoes
      inLine := hrest }

/-- Others leave a consumer and its store alone; messages may come in. -/
structure Spares (subscription : Nat) (arrived : List Message) (s s' : System) : Prop where
  store : s'.store = s.store
  disturbance : s'.disturbance = s.disturbance
  consumer : s'.consumer? subscription = s.consumer? subscription
  cancelled : s'.cancelled = s.cancelled
  inLine : s'.bus.inLine? subscription = (s.bus.inLine? subscription).map (· ++ arrived)

theorem Attends.others (h : s.Attends consumer store waiting) {arrived : List Message}
    (hspares : Spares consumer.subscription arrived s s') :
    s'.Attends consumer store (waiting ++ arrived) where
  inMemory := hspares.store.trans h.inMemory
  calm := hspares.disturbance ▸ h.calm
  listed := hspares.consumer.trans h.listed
  goesOn := by
    rw [Action.consumerStops, hspares.cancelled, hspares.consumer]
    exact h.goesOn
  inLine := by rw [hspares.inLine, h.inLine, Option.map_some]

end System

/-! ## All laps -/

/-- A consumer takes messages, each at the moment that the clock shows, while others leave it and its
store alone and more messages come in. -/
inductive Laps (subscription : Nat) :
    System → List Message → List (Message × Instant) → System → Prop
  | rest (s : System) : Laps subscription s [] [] s
  | others {s s' s'' : System} {arrived later : List Message} {taken : List (Message × Instant)}
    (hspares : s.Spares subscription arrived s') (hrest : Laps subscription s' later taken s'') :
    Laps subscription s (arrived ++ later) taken s''
  | lap {s s' s'' : System} {t : Nat} {now : Instant} {message : Message} {later : List Message}
    {taken : List (Message × Instant)} {progress : Progress System Process (Option Process)}
    {started : List Process} (hnow : s.moment? t = some now)
    (hmessage : (s.bus.receive subscription).1 = .message message)
    (hrun : (Action.consume subscription).run t s [] = (progress, s', started))
    (hrest : Laps subscription s' later taken s'') :
    Laps subscription s later ((message, now) :: taken) s''

/-- The number of messages that were counted. -/
def ConsumerStats.total (stats : ConsumerStats) : Nat :=
  stats.processed + stats.failed + stats.dropped + stats.timedOut

theorem ConsumerStats.total_count (stats : ConsumerStats) (handling : Handling) :
    (stats.count handling).total = stats.total + 1 := by
  cases handling <;> simp only [count, total] <;> omega

/-- The counts after messages, each by what came of it. -/
def ConsumerStats.tally (stats : ConsumerStats) (fates : List Handling) : ConsumerStats :=
  fates.foldl count stats

theorem ConsumerStats.total_tally (stats : ConsumerStats) (fates : List Handling) :
    (stats.tally fates).total = stats.total + fates.length := by
  induction fates generalizing stats with
  | nil => rfl
  | cons handling fates ih =>
    rw [tally, List.foldl_cons, ← tally, ih, total_count, List.length_cons]
    omega

theorem ConsumerStats.timedOut_tally (stats : ConsumerStats) {fates : List Handling}
    (h : ∀ fate ∈ fates, fate ≠ .timedOut) : (stats.tally fates).timedOut = stats.timedOut := by
  induction fates generalizing stats with
  | nil => rfl
  | cons handling fates ih =>
    obtain ⟨hhandling, hfates⟩ := List.forall_mem_cons.1 h
    rw [tally, List.foldl_cons, ← tally, ih _ hfates]
    cases handling with
    | timedOut => exact absurd rfl hhandling
    | _ => rfl

namespace Laps

variable {consumer : Consumer} {store : MemoryStore} {s s' : System} {waiting : List Message}
  {arrived : List Message} {taken : List (Message × Instant)}

/-- What a consumer has done after laps. -/
theorem attends (h : Laps consumer.subscription s arrived taken s')
    (hbegin : s.Attends consumer store waiting) :
    ∃ left, waiting ++ arrived = taken.map Prod.fst ++ left ∧
      s'.Attends
        { consumer with
          stats := consumer.stats.tally
            (taken.map fun m => consumer.handlers.fate store.knows m.1) }
        (consumer.handlers.reach store taken) left := by
  generalize hsubscription : consumer.subscription = subscription at h
  induction h generalizing consumer store waiting with
  | rest s =>
    subst hsubscription
    exact ⟨waiting, by simp, hbegin⟩
  | @others s s' s'' arrived later taken hspares hrest ih =>
    subst hsubscription
    obtain ⟨left, hleft, hend⟩ := ih (hbegin.others hspares) rfl
    exact ⟨left, by rw [← List.append_assoc, hleft], hend⟩
  | @lap s s' s'' t now message later taken progress started hnow hmessage hrun hrest ih =>
    subst hsubscription
    obtain ⟨waiting, rfl⟩ := Bus.exists_inLine?_of_receive hbegin.inLine hmessage
    obtain ⟨s₁, hlap, hnext, -⟩ := hbegin.run_consume hnow
    rw [hrun] at hlap
    cases hlap
    obtain ⟨left, hleft, hend⟩ := ih hnext rfl
    rw [Handlers.knows_treat] at hend
    refine ⟨left, ?_, hend⟩
    rw [List.cons_append, hleft, List.map_cons, List.cons_append]

end Laps

/-- A consumer can take all messages that wait for it. -/
theorem System.Attends.exists_laps {consumer : Consumer} {store : MemoryStore} {s : System}
    {waiting : List Message} {t : Nat} {now : Instant} (h : s.Attends consumer store waiting)
    (hnow : s.moment? t = some now) :
    ∃ s', Laps consumer.subscription s [] (waiting.map fun message => (message, now)) s' := by
  induction waiting generalizing consumer store s with
  | nil => exact ⟨s, .rest s⟩
  | cons message rest ih =>
    obtain ⟨s₁, hrun, hnext, horigin⟩ := h.run_consume hnow
    obtain ⟨s', hrest⟩ := ih hnext (by rw [moment?, horigin]; exact hnow)
    obtain ⟨bus, hreceive, -⟩ := Bus.receive_of_inLine? h.inLine
    exact ⟨s', .lap hnow (by rw [hreceive]) hrun hrest⟩

/-- What a consumer has made of the messages that it took, and what it will make of the next. -/
structure Contained (consumer : Consumer) (store : MemoryStore) (before : List Message)
    (taken : List (Message × Instant)) (s : System) : Prop where
  /-- The messages were taken in their order, each once. -/
  inOrder : ∃ left, before = taken.map Prod.fst ++ left ∧
    s.bus.inLine? consumer.subscription = some left
  /-- Each was counted as its fate says, so all were counted. -/
  counted : ∃ stats, s.consumer? consumer.subscription = some { consumer with stats } ∧
    stats = consumer.stats.tally (taken.map fun m => consumer.handlers.fate store.knows m.1) ∧
    stats.total = consumer.stats.total + taken.length ∧ stats.timedOut = consumer.stats.timedOut
  /-- The store is the one to which those alone lead that were processed. -/
  stored : s.store = .memory (consumer.handlers.reach store
    (taken.filter fun m => consumer.handlers.fate store.knows m.1 = .processed))
  /-- A consumer of the same kind that takes these alone, at the same moments, leads to that store. -/
  alone {other : Consumer} {s₁ s₁' : System} {waiting arrived : List Message} :
    other.handlers = consumer.handlers → s₁.Attends other store waiting →
    Laps other.subscription s₁ arrived
      (taken.filter fun m => consumer.handlers.fate store.knows m.1 = .processed) s₁' →
    s₁'.store = s.store
  /-- Whatever message is the next, the consumer takes it in one stretch and goes on. -/
  goesOn (t : Nat) (now : Instant) : s.moment? t = some now →
    s.bus.inLine? consumer.subscription ≠ some [] →
    ∃ s', (Action.consume consumer.subscription).run t s [] =
      (.finished (some (.consumer consumer.subscription)), s', [])
  /-- A message is dropped if no handler is there for its type or its payload is no event. -/
  dropped (message : Message) : consumer.handlers.fate store.knows message = .dropped ↔
    consumer.handlers.handler? message.type = none ∨ ∃ fault, message.decode = .error fault
  /-- A message that failed was turned away by its handler for the data that it carries, and a message
  that was not processed left the store as it was. -/
  harmless (earlier later : List (Message × Instant)) (m : Message × Instant) :
    taken = earlier ++ m :: later →
    let current := consumer.handlers.reach store earlier
    let fate := consumer.handlers.fate store.knows m.1
    (fate = .failed → ∃ handler event e, consumer.handlers.dispatch? m.1 = some (handler, event) ∧
      current.handle handler m.2 event = (.error e, current) ∧ e.isDataError = true) ∧
    (fate ≠ .processed → consumer.handlers.reach store (earlier ++ [m]) = current)

/-- **Bad messages are contained.**  A consumer with any handlers and any store in memory takes any
messages, at any moments, while more come in.  It takes them in the order of the queue, each once,
and counts each; the store is the one to which the good messages alone lead; and whatever message is
the next, the consumer takes it and goes on. -/
theorem laps_contained {consumer : Consumer} {store : MemoryStore} {s s' : System}
    {waiting arrived : List Message} {taken : List (Message × Instant)}
    (hbegin : s.Attends consumer store waiting)
    (hlaps : Laps consumer.subscription s arrived taken s') :
    Contained consumer store (waiting ++ arrived) taken s' := by
  obtain ⟨left, hleft, hend⟩ := hlaps.attends hbegin
  have hstored := hend.inMemory
  rw [consumer.handlers.reach_eq_reach_filter] at hstored
  exact {
    inOrder := ⟨left, hleft, hend.inLine⟩
    counted := by
      refine ⟨_, hend.listed, rfl, ?_, ?_⟩
      · rw [ConsumerStats.total_tally, List.length_map]
      · refine ConsumerStats.timedOut_tally _ fun fate hfate => ?_
        obtain ⟨m, -, rfl⟩ := List.mem_map.1 hfate
        exact Handlers.fate_ne_timedOut store.knows
    stored := hstored
    alone := by
      intro other s₁ s₁' waiting₁ arrived₁ hhandlers hbegin₁ hlaps₁
      obtain ⟨_, -, hend₁⟩ := hlaps₁.attends hbegin₁
      rw [hstored, hend₁.inMemory, hhandlers]
    goesOn := by
      intro t now hnow hsome
      cases left with
      | nil => exact absurd hend.inLine hsome
      | cons message rest =>
        obtain ⟨s'', hrun, -, -⟩ := hend.run_consume hnow
        exact ⟨s'', hrun⟩
    dropped := fun message => Handlers.fate_eq_dropped_iff store.knows
    harmless := by
      intro earlier later m htaken current fate
      have hfate : fate = consumer.handlers.fate current.knows m.1 := by
        rw [Handlers.knows_reach]
      refine ⟨fun hfailed => ?_, fun hbad => ?_⟩
      · exact Handlers.exists_of_fate_eq_failed (hfate ▸ hfailed) m.2
      · rw [Handlers.reach_append, Handlers.reach_cons, Handlers.reach_nil]
        exact Handlers.treat_snd_of_ne (hfate ▸ hbad) m.2 }

private def midday : Instant := .ofMillis 1741953600000

/-- A consumer that can handle heartbeats. -/
private def clerk : Consumer where
  subscription := 0
  queue := "server.status"
  handlers := [(.heartbeat, .status)]
  timeout := 1000

/-- A message of a type that nobody handles, one that is no event, a heartbeat of a stranger and one
of a server that is registered. -/
private def post : List Message :=
  [⟨"server.status", .metrics, []⟩, ⟨"server.status", .heartbeat, [255]⟩,
    ⟨"server.status", .heartbeat, Event.encode ⟨"b", midday, none, none, none⟩⟩,
    ⟨"server.status", .heartbeat, Event.encode ⟨"a", midday, none, none, none⟩⟩]

/-- A system in which the consumer has not begun. -/
private def frontDesk : System where
  origin := midday
  store := .memory (MemoryStore.empty.register ⟨"a", "10.0.0.1", 10⟩)
  bus := ⟨8, [⟨"server.status", post, some 0⟩], false, 1⟩
  consumers := [clerk]
  monitor := { settings := {} }
  scheduler := { timeout := 5000 }

/-- The consumer takes all four messages and processes the last. -/
theorem laps_contained_post :
    ∃ s', Laps clerk.subscription frontDesk [] (post.map fun message => (message, midday)) s' ∧
      s'.consumer? 0 = some { clerk with stats := { processed := 1, failed := 1, dropped := 2 } } := by
  have hbegin : frontDesk.Attends clerk (MemoryStore.empty.register ⟨"a", "10.0.0.1", 10⟩) post := {
    inMemory := rfl
    calm := fun request => ⟨rfl, by cases request <;> rfl⟩
    listed := rfl
    goesOn := rfl
    inLine := rfl }
  have hnow : frontDesk.moment? 0 = some midday := by decide +kernel
  obtain ⟨s', hlaps⟩ := hbegin.exists_laps hnow
  obtain ⟨stats, hstats, hcounted, -⟩ := (laps_contained hbegin hlaps).counted
  have htally : stats = { processed := 1, failed := 1, dropped := 2 } := by
    rw [hcounted]
    decide +kernel
  exact ⟨s', hlaps, htally ▸ hstats⟩

end Pulse
