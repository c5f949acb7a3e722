import Pulse.Producer
import Pulse.Proofs.Bus.Queues

/-!
# Publishing an event

An event with metrics is two messages for two queues, and each queue lets its message in or does
not.  Is an event published as a whole or not at all?

* `Bus.Gained` says what the queues have got, each for itself.
* `Producer.Outcome` lists what publishing an event can come to, and `outcome_publish` says that
  there is nothing else.
* `Producer.Tears` — an event with metrics is torn exactly when the queue of metrics has room and
  the queue of heartbeats has none: its metrics stay behind though the publisher is told that the
  event was refused.  `Producer.publish_told` says what a publisher may conclude, and that in all
  other cases an event that is refused leaves no trace.
-/

set_option autoImplicit false

namespace Pulse

/-! ## What queues have got -/

namespace Bus

variable {bus bus' : Bus} {message : Message} {messages : List Message} {queue : String}

/-- Each queue has got those of the messages that are its own, in their order, and nothing else. -/
def Gained (before after : Bus) (messages : List Message) : Prop :=
  ∀ queue, after.waiting queue =
    before.waiting queue ++ messages.filter fun message => message.queue = queue

/-- A queue can take a further message. -/
def HasRoom (bus : Bus) (queue : String) : Prop :=
  (bus.waiting queue).length < bus.capacity

instance (bus : Bus) (queue : String) : Decidable (bus.HasRoom queue) :=
  inferInstanceAs (Decidable ((bus.waiting queue).length < bus.capacity))

theorem gained_nil (bus : Bus) : Gained bus bus [] := by
  simp [Gained]

theorem Gained.append {bus'' : Bus} {more : List Message} (h : Gained bus bus' messages)
    (h' : Gained bus' bus'' more) : Gained bus bus'' (messages ++ more) := by
  intro queue
  rw [h' queue, h queue, List.filter_append, List.append_assoc]

/-- What a queue has got is in no doubt. -/
theorem Gained.unique {messages' : List Message} (h : Gained bus bus' messages)
    (h' : Gained bus bus' messages') (queue : String) :
    messages.filter (fun message => message.queue = queue) =
      messages'.filter fun message => message.queue = queue :=
  List.append_cancel_left ((h queue).symm.trans (h' queue))

theorem publish_of_closed (h : bus.closed = true) : bus.publish message = .error .closed := by
  rw [publish, reach_of_closed h]
  rfl

/-- An open bus lets a message in iff there is room in its queue. -/
theorem publish_of_open (h : bus.closed = false) :
    bus.publish message =
      if bus.HasRoom message.queue then .ok ((bus.reached message.queue).sent message)
      else .error (.queueFull message.queue bus.capacity) := by
  have hsome : ((bus.reached message.queue).channel? message.queue).isSome := by
    simp [isSome_channel?_reached]
  obtain ⟨c, hc⟩ := Option.isSome_iff_exists.1 hsome
  rw [publish, reach_of_open h]
  show (bus.reached message.queue).send message = _
  rw [send_of_some hc, waiting_reached, capacity_reached]
  rfl

theorem gained_sent (bus : Bus) (message : Message) :
    Gained bus ((bus.reached message.queue).sent message) [message] := by
  intro queue
  rw [waiting_sent (by simp [isSome_channel?_reached]), waiting_reached]
  by_cases heq : message.queue = queue <;> simp [heq]

theorem closed_sent : (bus.sent message).closed = bus.closed :=
  rfl

theorem hasRoom_sent_of_ne (hne : message.queue ≠ queue) :
    ((bus.reached message.queue).sent message).HasRoom queue ↔ bus.HasRoom queue := by
  have hcapacity : ((bus.reached message.queue).sent message).capacity = bus.capacity :=
    capacity_reached
  rw [HasRoom, HasRoom, hcapacity, gained_sent bus message queue]
  simp [hne]

end Bus

namespace Producer

open Bus (Gained)

/-! ## The messages of an event -/

/-- The message about the metrics of an event. -/
def metricsMessage (producer : Producer) (event : Event) : Message :=
  ⟨producer.metricsQueue, .metrics, event.encode⟩

/-- The message about the heartbeat of an event. -/
def heartbeatMessage (producer : Producer) (event : Event) : Message :=
  ⟨producer.statusQueue, .heartbeat, event.encode⟩

variable {producer : Producer} {bus after : Bus} {event : Event} {result : Except BusError Unit}

theorem messages_of_hasMetrics (h : event.hasMetrics = true) :
    producer.messages event = [producer.metricsMessage event, producer.heartbeatMessage event] :=
  if_pos h

theorem messages_of_not_hasMetrics (h : event.hasMetrics = false) :
    producer.messages event = [producer.heartbeatMessage event] :=
  if_neg (by simp [h])

/-- The queue of heartbeats is to get one more message than what a torn event brings it. -/
theorem heartbeat_mem_filter_messages (producer : Producer) (event : Event) :
    producer.heartbeatMessage event ∈
      (producer.messages event).filter fun message => message.queue = producer.statusQueue := by
  rw [List.mem_filter]
  cases h : event.hasMetrics with
  | true => simp [messages_of_hasMetrics h, heartbeatMessage]
  | false => simp [messages_of_not_hasMetrics h, heartbeatMessage]

theorem publishAll_cons_of_room {message : Message} {rest : List Message}
    (hopen : bus.closed = false) (hroom : bus.HasRoom message.queue) :
    publishAll bus (message :: rest) =
      publishAll ((bus.reached message.queue).sent message) rest := by
  rw [publishAll, Bus.publish_of_open hopen, if_pos hroom]

theorem publishAll_cons_of_full {message : Message} {rest : List Message}
    (hopen : bus.closed = false) (hfull : ¬ bus.HasRoom message.queue) :
    publishAll bus (message :: rest) = (.error (.queueFull message.queue bus.capacity), bus) := by
  rw [publishAll, Bus.publish_of_open hopen, if_neg hfull]

theorem publishAll_of_closed {messages : List Message} (hclosed : bus.closed = true)
    (hne : messages ≠ []) : publishAll bus messages = (.error .closed, bus) := by
  obtain ⟨message, rest, rfl⟩ := List.exists_cons_of_ne_nil hne
  rw [publishAll, Bus.publish_of_closed hclosed]

/-! ## Outcomes -/

/-- The message about the metrics of an event is let in and the one about its heartbeat is not. -/
def Tears (producer : Producer) (bus : Bus) (event : Event) : Prop :=
  event.refusal? = none ∧ event.hasMetrics = true ∧ bus.closed = false ∧
    bus.HasRoom producer.metricsQueue ∧ ¬ bus.HasRoom producer.statusQueue

instance (producer : Producer) (bus : Bus) (event : Event) : Decidable (producer.Tears bus event) :=
  inferInstanceAs (Decidable (_ ∧ _))

/-- What publishing an event can come to: what the publisher is told, and the bus afterwards. -/
inductive Outcome (producer : Producer) (bus : Bus) (event : Event) :
    Except BusError Unit → Bus → Prop
  | refused {reason : String} (hrefused : event.refusal? = some reason) :
      Outcome producer bus event (.error (.invalidEvent reason)) bus
  | closed (haccepted : event.refusal? = none) (hclosed : bus.closed = true) :
      Outcome producer bus event (.error .closed) bus
  | full {queue : String} (haccepted : event.refusal? = none) (hopen : bus.closed = false)
      (hqueue : queue ∈ (producer.messages event).map Message.queue)
      (hfull : ¬ bus.HasRoom queue) (hwhole : ¬ producer.Tears bus event) :
      Outcome producer bus event (.error (.queueFull queue bus.capacity)) bus
  | torn {after : Bus} (htears : producer.Tears bus event)
      (hgained : Gained bus after [producer.metricsMessage event]) :
      Outcome producer bus event (.error (.queueFull producer.statusQueue bus.capacity)) after
  | published {after : Bus} (haccepted : event.refusal? = none) (hopen : bus.closed = false)
      (hroom : bus.HasRoom producer.statusQueue)
      (hgained : Gained bus after (producer.messages event)) :
      Outcome producer bus event (.ok ()) after

/-- An event without metrics is one message. -/
theorem outcome_publish_of_not_hasMetrics (haccepted : event.refusal? = none)
    (hopen : bus.closed = false) (hplain : event.hasMetrics = false) :
    Outcome producer bus event (publishAll bus (producer.messages event)).1
      (publishAll bus (producer.messages event)).2 := by
  have hwhole : ¬ producer.Tears bus event := by
    intro htears
    simp [htears.2.1] at hplain
  have hgained := Bus.gained_sent bus (producer.heartbeatMessage event)
  rw [← messages_of_not_hasMetrics hplain] at hgained
  rw [messages_of_not_hasMetrics hplain]
  by_cases hroom : bus.HasRoom producer.statusQueue
  · rw [publishAll_cons_of_room hopen hroom]
    exact .published haccepted hopen hroom hgained
  · have hqueue : producer.statusQueue ∈ (producer.messages event).map Message.queue := by
      simp [messages_of_not_hasMetrics hplain, heartbeatMessage]
    rw [publishAll_cons_of_full hopen hroom]
    exact .full haccepted hopen hqueue hroom hwhole

/-- An event with metrics is two messages, and the second may be refused. -/
theorem outcome_publish_of_hasMetrics (hne : producer.statusQueue ≠ producer.metricsQueue)
    (haccepted : event.refusal? = none) (hopen : bus.closed = false)
    (hmetrics : event.hasMetrics = true) :
    Outcome producer bus event (publishAll bus (producer.messages event)).1
      (publishAll bus (producer.messages event)).2 := by
  have hfirst := Bus.gained_sent bus (producer.metricsMessage event)
  rw [messages_of_hasMetrics hmetrics]
  by_cases hroom : bus.HasRoom producer.metricsQueue
  · rw [publishAll_cons_of_room hopen hroom]
    -- Between the messages, the bus is as it was but for the queue of metrics.
    generalize hbetween : (bus.reached (producer.metricsMessage event).queue).sent
      (producer.metricsMessage event) = between at hfirst ⊢
    have hopen' : between.closed = false := by
      rw [← hbetween, Bus.closed_sent, Bus.closed_reached, hopen]
    have hroom' : between.HasRoom producer.statusQueue ↔ bus.HasRoom producer.statusQueue := by
      rw [← hbetween]
      exact Bus.hasRoom_sent_of_ne hne.symm
    have hcapacity : between.capacity = bus.capacity := by
      rw [← hbetween]
      exact Bus.capacity_reached
    by_cases hstatus : bus.HasRoom producer.statusQueue
    · have hboth := hfirst.append (Bus.gained_sent between (producer.heartbeatMessage event))
      rw [publishAll_cons_of_room hopen' (hroom'.2 hstatus)]
      refine .published haccepted hopen hstatus ?_
      rw [messages_of_hasMetrics hmetrics]
      exact hboth
    · rw [publishAll_cons_of_full hopen' (mt hroom'.1 hstatus), hcapacity]
      exact .torn ⟨haccepted, hmetrics, hopen, hroom, hstatus⟩ hfirst
  · have hqueue : producer.metricsQueue ∈ (producer.messages event).map Message.queue := by
      simp [messages_of_hasMetrics hmetrics, metricsMessage]
    have hwhole : ¬ producer.Tears bus event := fun htears => hroom htears.2.2.2.1
    rw [publishAll_cons_of_full hopen hroom]
    exact .full haccepted hopen hqueue hroom hwhole

/-- **Publishing an event comes to what `Outcome` lists, and nothing else.** -/
theorem outcome_publish (hne : producer.statusQueue ≠ producer.metricsQueue) (bus : Bus)
    (event : Event) :
    Outcome producer bus event (producer.publish bus event).1 (producer.publish bus event).2 := by
  rw [publish]
  cases hrefusal : event.refusal? with
  | some reason => exact .refused hrefusal
  | none =>
    cases hclosed : bus.closed with
    | true =>
      have hmessages : producer.messages event ≠ [] := by
        intro hnil
        have hmem := heartbeat_mem_filter_messages producer event
        simp [hnil] at hmem
      show Outcome producer bus event (publishAll _ _).1 (publishAll _ _).2
      rw [publishAll_of_closed hclosed hmessages]
      exact .closed hrefusal hclosed
    | false =>
      cases hmetrics : event.hasMetrics with
      | true => exact outcome_publish_of_hasMetrics hne hrefusal hclosed hmetrics
      | false => exact outcome_publish_of_not_hasMetrics hrefusal hclosed hmetrics

/-! ## What a publisher may conclude -/

/-- What a publisher may conclude from what it is told. -/
structure Told (producer : Producer) (bus : Bus) (event : Event) (result : Except BusError Unit)
    (after : Bus) : Prop where
  /-- The publication succeeds exactly when all messages of the event are in their queues. -/
  ok_iff : result = .ok () ↔ Gained bus after (producer.messages event)
  /-- The publication fails for one of three reasons, and each is true. -/
  error : ∀ e, result = .error e →
    (∃ reason, e = .invalidEvent reason ∧ event.refusal? = some reason) ∨
      (e = .closed ∧ event.refusal? = none ∧ bus.closed = true) ∨
        ∃ queue ∈ (producer.messages event).map Message.queue,
          e = .queueFull queue bus.capacity ∧ event.refusal? = none ∧ bus.closed = false ∧
            ¬ bus.HasRoom queue
  /-- Unless the event is torn, a failure leaves no trace. -/
  unchanged : result ≠ .ok () → ¬ producer.Tears bus event → after = bus
  /-- If the event is torn, its metrics stay behind. -/
  torn : producer.Tears bus event →
    result = .error (.queueFull producer.statusQueue bus.capacity) ∧
      Gained bus after [producer.metricsMessage event]

/-- What falls short of the heartbeat is not all of the event. -/
theorem not_gained_messages {messages : List Message} (h : Gained bus after messages)
    (hnone : producer.heartbeatMessage event ∉ messages) :
    ¬ Gained bus after (producer.messages event) := by
  intro hall
  have hmem := heartbeat_mem_filter_messages producer event
  rw [hall.unique h, List.mem_filter] at hmem
  exact hnone hmem.1

theorem Outcome.told (h : Outcome producer bus event result after) :
    Told producer bus event result after := by
  have hnothing : ¬ Gained bus bus (producer.messages event) :=
    not_gained_messages (Bus.gained_nil bus) (by simp)
  cases h with
  | @refused reason hrefused =>
    have hwhole : ¬ producer.Tears bus event := by
      intro htears
      exact absurd htears.1 (by simp [hrefused])
    refine ⟨by simpa using hnothing, ?_, fun _ _ => rfl, fun htears => absurd htears hwhole⟩
    rintro e ⟨⟩
    exact .inl ⟨reason, rfl, hrefused⟩
  | closed haccepted hclosed =>
    have hwhole : ¬ producer.Tears bus event := by
      intro htears
      exact absurd htears.2.2.1 (by simp [hclosed])
    refine ⟨by simpa using hnothing, ?_, fun _ _ => rfl, fun htears => absurd htears hwhole⟩
    rintro e ⟨⟩
    exact .inr (.inl ⟨rfl, haccepted, hclosed⟩)
  | @full queue haccepted hopen hqueue hfull hwhole =>
    refine ⟨by simpa using hnothing, ?_, fun _ _ => rfl, fun htears => absurd htears hwhole⟩
    rintro e ⟨⟩
    exact .inr (.inr ⟨queue, hqueue, rfl, haccepted, hopen, hfull⟩)
  | torn htears hgained =>
    have hpart : ¬ Gained bus after (producer.messages event) :=
      not_gained_messages hgained (by simp [metricsMessage, heartbeatMessage])
    refine ⟨by simpa using hpart, ?_, fun _ hwhole => absurd htears hwhole,
      fun _ => ⟨rfl, hgained⟩⟩
    rintro e ⟨⟩
    have hqueue : producer.statusQueue ∈ (producer.messages event).map Message.queue := by
      simp [messages_of_hasMetrics htears.2.1, heartbeatMessage]
    exact .inr (.inr ⟨_, hqueue, rfl, htears.1, htears.2.2.1, htears.2.2.2.2⟩)
  | published haccepted hopen hroom hgained =>
    refine ⟨by simpa using hgained, ?_, fun hne => absurd rfl hne,
      fun htears => absurd hroom htears.2.2.2.2⟩
    rintro e ⟨⟩

/-- **An event is published as a whole or leaves no trace, unless it is torn.** -/
theorem publish_told (hne : producer.statusQueue ≠ producer.metricsQueue) (bus : Bus)
    (event : Event) :
    Told producer bus event (producer.publish bus event).1 (producer.publish bus event).2 :=
  (outcome_publish hne bus event).told

end Producer

end Pulse
