import Pulse.Proofs.Activity
import Pulse.Proofs.Bus.Publishing
import Pulse.System.Serving

/-!
# Events from clients

A client posts an event and is told with a status code what has become of it: 202 if it was
published, 400 if there is no event that is fit for publication, and 503 if the bus did not take it.

* `Action.respond_of_post` — a client who posts to the path of events is answered as the route
  answers, and `Action.run_events_of_accepted` and its siblings say how.
* `Ingested` is what a client may conclude from the answer.
* `Producer.ingestion_told` — what both the publisher in the program and the client outside may
  conclude.
* `not_told_whole_fullStatus` — a torn event: its publisher is told that the bus was full, and its
  metrics are published.
-/

set_option autoImplicit false

namespace Pulse

open Api (Request Response Route)
open Bus (Gained)

namespace Action

variable {producer : Producer} {request : Request} {event : Event} {t : Nat} {s : System}
  {started : List Process}

/-! ## A request on its way -/

theorem run_useQueues {α : Type} (use : Bus → α × Bus) :
    (useQueues use).run t s started =
      if s.bus.overtaxes then (.crashed, s, started)
      else (.finished (use s.bus).1, { s with bus := (use s.bus).2 }, started) := by
  simp only [useQueues, Activity.run]
  split_ifs <;> rfl

/-- The response to a publication. -/
def published (event : Event) : Except BusError Unit → Response
  | .error e => .ofError (.ofBus e)
  | .ok () => .ofDocument 202 event.acceptedToJson

/-- The answer is that to the publication, if there is an event. -/
theorem respondTo_events :
    respondTo producer request .events = match request.event with
      | .error e => pure (.ofError e)
      | .ok event => publish producer event >>= fun result => pure (published event result) := by
  rw [respondTo]
  cases request.event with
  | error e => rfl
  | ok event =>
    refine bind_congr fun result => ?_
    cases result <;> rfl

theorem run_events_of_error {e : ApiError} (h : request.event = .error e) :
    (respondTo producer request .events).run t s started =
      (.finished (.ofError e), s, started) := by
  rw [respondTo_events, h]
  rfl

theorem run_events_of_refused {reason : String} (h : request.event = .ok event)
    (hrefused : event.refusal? = some reason) :
    (respondTo producer request .events).run t s started =
      (.finished (published event (.error (.invalidEvent reason))), s, started) := by
  rw [respondTo_events, h]
  simp only [publish, hrefused]
  rfl

/-- What an accepted event comes to.  Where the machine cannot make a queue, the program crashes. -/
theorem run_events_of_accepted (h : request.event = .ok event)
    (haccepted : event.refusal? = none) :
    (respondTo producer request .events).run t s started =
      if s.bus.overtaxes then (.crashed, s, started)
      else
        (.finished (published event (producer.publish s.bus event).1),
          { s with bus := (producer.publish s.bus event).2 }, started) := by
  rw [respondTo_events, h]
  simp only [publish, haccepted, Activity.run_bind, run_useQueues]
  by_cases hovertaxes : s.bus.overtaxes = true
  · simp only [hovertaxes, if_true]
  · simp only [hovertaxes]
    rfl

/-! ### From the client and back -/

variable {shared : Bool}

/-- A client who posts to the path of events is answered as the route answers; pages of other
origins may see the answer if the interface is shared. -/
theorem respond_of_post (hmethod : request.method = "POST")
    (hpath : Route.ofPath? request.path = some .events) :
    respond shared producer request =
      (respondTo producer request .events >>= pure) >>= fun response =>
        pure (if shared then response.share else response) := by
  have hplainly : respondPlainly producer request =
      respondTo producer request .events >>= pure := by
    rw [respondPlainly, hpath]
    simp only [Route.methods, hmethod]
    rfl
  rw [respond, hmethod, hplainly, if_neg (by simp)]

theorem run_respond_of_finished {response : Response} {s' : System} {started' : List Process}
    (hmethod : request.method = "POST") (hpath : Route.ofPath? request.path = some .events)
    (h : (respondTo producer request .events).run t s started =
      (.finished response, s', started')) :
    (respond shared producer request).run t s started =
      (.finished (if shared then response.share else response), s', started') := by
  rw [respond_of_post hmethod hpath, Activity.run_bind, Activity.run_bind, h]
  rfl

theorem run_respond_of_crashed {s' : System} {started' : List Process}
    (hmethod : request.method = "POST") (hpath : Route.ofPath? request.path = some .events)
    (h : (respondTo producer request .events).run t s started = (.crashed, s', started')) :
    (respond shared producer request).run t s started = (.crashed, s', started') := by
  rw [respond_of_post hmethod hpath, Activity.run_bind, Activity.run_bind, h]

end Action

namespace Producer

variable {producer : Producer} {request : Request} {event : Event} {t : Nat} {s s' : System}
  {started : List Process} {response : Response}

/-! ## What a client may conclude -/

/-- What a client who posts an event may conclude from the response. -/
structure Ingested (producer : Producer) (request : Request) (s : System) (response : Response)
    (s' : System) : Prop where
  status : response.status = 202 ∨ response.status = 400 ∨ response.status = 503
  /-- Nothing but queues is touched. -/
  frame : s' = { s with bus := s'.bus }
  /-- The event is accepted exactly when all its messages are in their queues. -/
  accepted_iff : response.status = 202 ↔
    ∃ event, request.event = .ok event ∧ Gained s.bus s'.bus (producer.messages event)
  /-- The client is to blame exactly when there is no event in the request that passes. -/
  rejected_iff : response.status = 400 ↔
    ∀ event, request.event = .ok event → event.refusal?.isSome = true
  /-- Unless the event is torn, a request that fails leaves no trace. -/
  unchanged : response.status ≠ 202 →
    (∀ event, request.event = .ok event → ¬ producer.Tears s.bus event) → s' = s
  /-- If the event is torn, its metrics stay behind. -/
  torn : ∀ event, request.event = .ok event → producer.Tears s.bus event →
    response.status = 503 ∧ Gained s.bus s'.bus [producer.metricsMessage event]

/-- Only the status code matters of the response. -/
theorem Ingested.congr {response' : Response} (h : Ingested producer request s response s')
    (hstatus : response'.status = response.status) : Ingested producer request s response' s' := by
  constructor
  · rw [hstatus]
    exact h.status
  · exact h.frame
  · rw [hstatus]
    exact h.accepted_iff
  · rw [hstatus]
    exact h.rejected_iff
  · rw [hstatus]
    exact h.unchanged
  · rw [hstatus]
    exact h.torn

/-- There is no event in the request. -/
theorem ingested_of_error {message : String}
    (h : request.event = .error (.invalidRequest message)) :
    Ingested producer request s (.ofError (.invalidRequest message)) s where
  status := .inr (.inl rfl)
  frame := rfl
  accepted_iff := by simp [h, Response.ofError, Response.ofDocument, ApiError.status]
  rejected_iff := by simp [h, Response.ofError, Response.ofDocument, ApiError.status]
  unchanged _ _ := rfl
  torn event hevent := by simp [h] at hevent

/-- What reading a request can fail with. -/
theorem event_error {e : ApiError} (h : request.event = .error e) :
    ∃ message, e = .invalidRequest message := by
  rw [Request.event] at h
  split_ifs at h
  · cases hdecode : Json.decodeFirst Event.decoder request.body with
    | ok event => simp [hdecode] at h
    | error fault =>
      simp only [hdecode] at h
      cases h
      exact ⟨_, rfl⟩
  · cases h
    exact ⟨_, rfl⟩
  · cases h
    exact ⟨_, rfl⟩

theorem status_published_eq_202_iff (event : Event) (result : Except BusError Unit) :
    (Action.published event result).status = 202 ↔ result = .ok () := by
  cases result with
  | ok => simp [Action.published, Response.ofDocument]
  | error e => cases e <;> simp [Action.published, Response.ofError, Response.ofDocument,
      ApiError.ofBus, BusError.rejectsPayload, ApiError.status]

/-- The status code of an outcome. -/
theorem Outcome.status {result : Except BusError Unit} {after : Bus}
    (h : Outcome producer s.bus event result after) :
    (result = .ok () ∧ event.refusal? = none ∧ (Action.published event result).status = 202) ∨
      (event.refusal?.isSome = true ∧ (Action.published event result).status = 400) ∨
        (event.refusal? = none ∧ (Action.published event result).status = 503) := by
  cases h with
  | refused hrefused => exact .inr (.inl ⟨by simp [hrefused], rfl⟩)
  | closed haccepted => exact .inr (.inr ⟨haccepted, rfl⟩)
  | full haccepted => exact .inr (.inr ⟨haccepted, rfl⟩)
  | torn htears => exact .inr (.inr ⟨htears.1, rfl⟩)
  | published haccepted => exact .inl ⟨rfl, haccepted, rfl⟩

/-- There is an event in the request. -/
theorem ingested_of_outcome {result : Except BusError Unit} {after : Bus}
    (hevent : request.event = .ok event) (h : Outcome producer s.bus event result after) :
    Ingested producer request s (Action.published event result) { s with bus := after } := by
  have honly : ∀ other, request.event = .ok other → other = event := by
    intro other hother
    exact Except.ok.inj (hother.symm.trans hevent)
  have htold := h.told
  constructor
  · obtain ⟨-, -, hstatus⟩ | ⟨-, hstatus⟩ | ⟨-, hstatus⟩ := h.status <;> simp [hstatus]
  · rfl
  · rw [status_published_eq_202_iff, htold.ok_iff]
    constructor
    · intro hgained
      exact ⟨event, hevent, hgained⟩
    · rintro ⟨other, hother, hgained⟩
      exact honly other hother ▸ hgained
  · have hrefused : (∀ other, request.event = .ok other → other.refusal?.isSome = true) ↔
        event.refusal?.isSome = true := by
      constructor
      · intro hall
        exact hall event hevent
      · intro hrefused other hother
        exact honly other hother ▸ hrefused
    rw [hrefused]
    obtain ⟨-, haccepted, hstatus⟩ | ⟨hrefused, hstatus⟩ | ⟨haccepted, hstatus⟩ := h.status <;>
      simp [*]
  · intro hstatus hwhole
    have hfailed : result ≠ .ok () := mt (status_published_eq_202_iff event result).2 hstatus
    rw [htold.unchanged hfailed (hwhole event hevent)]
  · intro other hother htears
    obtain rfl := honly other hother
    obtain ⟨hresult, hgained⟩ := htold.torn htears
    exact ⟨by rw [hresult]; rfl, hgained⟩

/-- **What the answer to an event tells**: a publisher in the program (`Told`) and a client who
posts it (`Ingested`) can conclude from success that all of the event was published, and from
failure that none was, unless it was torn.  The program may also crash, if the machine cannot make
the queues. -/
theorem ingestion_told (producer : Producer)
    (hne : producer.statusQueue ≠ producer.metricsQueue) :
    (∀ bus event, Told producer bus event (producer.publish bus event).1
        (producer.publish bus event).2) ∧
      ∀ (shared : Bool) (request : Request) (t : Nat) (s : System) (started : List Process),
        request.method = "POST" → Route.ofPath? request.path = some .events →
          (∃ response s', (Action.respond shared producer request).run t s started =
              (.finished response, s', started) ∧ Ingested producer request s response s') ∨
            s.bus.overtaxes = true ∧
              (Action.respond shared producer request).run t s started =
                (.crashed, s, started) := by
  refine ⟨publish_told hne, fun shared request t s started hmethod hpath => ?_⟩
  -- Sharing a response leaves its status code alone.
  have hanswer : ∀ {response : Response} {s' : System},
      (Action.respondTo producer request .events).run t s started =
        (.finished response, s', started) → Ingested producer request s response s' →
      ∃ response s', (Action.respond shared producer request).run t s started =
        (.finished response, s', started) ∧ Ingested producer request s response s' := by
    intro response s' hrun hingested
    refine ⟨_, s', Action.run_respond_of_finished hmethod hpath hrun, hingested.congr ?_⟩
    cases shared <;> rfl
  cases hevent : request.event with
  | error e =>
    obtain ⟨message, rfl⟩ := event_error hevent
    exact .inl (hanswer (Action.run_events_of_error hevent) (ingested_of_error hevent))
  | ok event =>
    have houtcome := outcome_publish hne s.bus event
    cases hrefusal : event.refusal? with
    | some reason =>
      have hrefused : Outcome producer s.bus event (.error (.invalidEvent reason)) s.bus :=
        .refused hrefusal
      exact .inl (hanswer (Action.run_events_of_refused hevent hrefusal)
        (ingested_of_outcome hevent hrefused))
    | none =>
      have hrun : (Action.respondTo producer request .events).run t s started = _ :=
        Action.run_events_of_accepted hevent hrefusal
      by_cases hovertaxes : s.bus.overtaxes = true
      · rw [if_pos hovertaxes] at hrun
        exact .inr ⟨hovertaxes, Action.run_respond_of_crashed hmethod hpath hrun⟩
      · rw [if_neg hovertaxes] at hrun
        exact .inl (hanswer hrun (ingested_of_outcome hevent houtcome))

/-- The queues as they are named by default. -/
private def usual : Producer := ⟨"server.status", "server.metrics"⟩

/-- A request with a report, behind a path with a query. -/
private def posting : Request where
  method := "POST"
  target := "/api/v1/events?from=probe"
  headers := [("Content-Type", "application/json")]
  body := Text.Utf8.encode
    "\x7b\"server_id\":\"a\",\"timestamp\":\"2025-03-14T12:00:00Z\",\"cpu\":50.5\x7d"

/-- Each queue has room for one message. -/
private def narrow : System where
  origin := .ofMillis 1728043200000
  store := .volatile
  bus := .new 1
  monitor := { settings := {} }
  scheduler := { tasks := [], timeout := 5000 }

theorem ofPath?_events : Route.ofPath? "/api/v1/events" = some .events := by
  have hsplit : "/api/v1/events".splitOn "/" = ["", "api", "v1", "events"] := by
    rw [String.splitOn, if_neg (by decide)]
    iterate 15
      rw [String.splitOnAux]
      simp +decide only [if_true, if_false]
  rw [Route.ofPath?, hsplit]
  rfl

/-- A report with a metric is accepted, and each queue gets its message. -/
theorem ingestion_told_usual :
    usual.statusQueue ≠ usual.metricsQueue ∧
      ∃ event response s', posting.event = .ok event ∧
        (Action.respond false usual posting).run 0 narrow [] = (.finished response, s', []) ∧
        response.status = 202 ∧
        s'.bus.waiting "server.metrics" = [usual.metricsMessage event] ∧
        s'.bus.waiting "server.status" = [usual.heartbeatMessage event] := by
  have hne : usual.statusQueue ≠ usual.metricsQueue := by decide
  have hpath : Route.ofPath? posting.path = some .events := by
    have hcut : posting.path = "/api/v1/events" := by decide +kernel
    rw [hcut, ofPath?_events]
  have hread : (posting.event.toOption.map fun event =>
      (event.hasMetrics, event.refusal?, (usual.publish narrow.bus event).1.toOption)) =
      some (true, none, some ()) := by
    decide +kernel
  obtain ⟨event, hevent⟩ : ∃ event, posting.event = .ok event := by
    cases hevent : posting.event with
    | ok event => exact ⟨event, rfl⟩
    | error e =>
      rw [hevent] at hread
      cases hread
  rw [hevent, Except.toOption, Option.map_some, Option.some.injEq, Prod.mk.injEq,
    Prod.mk.injEq] at hread
  obtain ⟨hmetrics, haccepted, hpublished⟩ := hread
  obtain ⟨response, s', hrun, h⟩ | ⟨hovertaxes, -⟩ :=
    (ingestion_told usual hne).2 false posting 0 narrow [] rfl hpath
  · have hroute : (Action.respondTo usual posting .events).run 0 narrow [] = _ :=
      (Action.run_events_of_accepted hevent haccepted).trans (if_neg (by decide))
    have hanswer : (Action.respond false usual posting).run 0 narrow [] = _ :=
      Action.run_respond_of_finished rfl hpath hroute
    have hstatus : response.status = 202 := by
      rw [← Activity.Progress.finished.inj (Prod.mk.inj (hanswer.symm.trans hrun)).1]
      refine (status_published_eq_202_iff event _).2 ?_
      cases hresult : (usual.publish narrow.bus event).1 with
      | ok => rfl
      | error e =>
        rw [hresult] at hpublished
        cases hpublished
    obtain ⟨other, hother, hgained⟩ := h.accepted_iff.1 hstatus
    obtain rfl : event = other := Except.ok.inj (hevent.symm.trans hother)
    rw [messages_of_hasMetrics hmetrics] at hgained
    exact ⟨hne, event, response, s', hevent, hrun, hstatus, hgained "server.metrics",
      hgained "server.status"⟩
  · exact absurd hovertaxes (by decide)

/-- A report with a metric. -/
private def busyReport : Event := ⟨"a", default, some 50.0, none, none⟩

/-- Room for one message in each queue, and one heartbeat in its queue. -/
private def heldUp : Bus :=
  (usual.publish (Bus.new 1) ⟨"b", default, none, none, none⟩).2

/-- **A torn event**: the publisher is told that the queue of heartbeats is full, and the metrics
are published. -/
theorem not_told_whole_fullStatus :
    (usual.publish heldUp busyReport).1 = .error (.queueFull "server.status" 1) ∧
      (usual.publish heldUp busyReport).2.waiting "server.status" =
        heldUp.waiting "server.status" ∧
      heldUp.waiting "server.metrics" = [] ∧
      (usual.publish heldUp busyReport).2.waiting "server.metrics" =
        [usual.metricsMessage busyReport] := by
  have htears : usual.Tears heldUp busyReport := by decide +kernel
  have hempty : heldUp.waiting "server.metrics" = [] := by decide +kernel
  obtain ⟨hresult, hgained⟩ := (publish_told (by decide) heldUp busyReport).torn htears
  have hstatus := hgained "server.status"
  have hmetrics := hgained "server.metrics"
  refine ⟨hresult, ?_, hempty, ?_⟩
  · simpa [metricsMessage, usual] using hstatus
  · simpa [hempty, metricsMessage, usual] using hmetrics

end Producer

end Pulse
