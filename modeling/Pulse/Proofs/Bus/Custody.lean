import Pulse.Proofs.Bus.Exchange
import Pulse.Proofs.Bus.Publishing

/-!
# Custody of messages

What does a bus owe to those who use it, and does it give it to them?

* `Exchange.Serves` — what each step of a participant does to the bus, to all queues at once.
* `Exchange.Faithful` — one subscription for each queue, no queue beyond its limit, and until the
  bus is closed nothing lost, nothing doubled, nothing out of order.
* `Exchange.afterAll_faithful` — the bus is faithful after any moves, and it is closed once somebody
  has closed it.
-/

set_option autoImplicit false

namespace Pulse

namespace Exchange

open Bus

variable {e : Exchange} {queue : String} {message : Message} {n : Nat}

/-! ## Service -/

/-- There is a queue for messages that are on their way: the bus is open, or the queue has a
subscription. -/
def Keeps (e : Exchange) (queue : String) : Prop :=
  e.bus.closed = false ∨ ∃ n, (n, queue) ∈ e.subscriptions

/-- What a bus, whose queues are limited, does at each step of a participant.  Whatever a clause
does not mention stays as it is. -/
structure Serves (e : Exchange) (limit : Nat) : Prop where
  /-- Until the bus is closed, a message finds its queue, and then it is on its way. -/
  find (message : Message) :
    e.bus.closed = false → limit ≤ maxCapacity →
      ∃ bus, e.bus.reach message.queue = .ok bus ∧ bus.view = e.bus.view ∧
        e.after (.find message) = { e with bus, sending := e.sending ++ [message] }
  /-- A message on its way is accepted if its queue is there and has room. -/
  send_room (i : Nat) (message : Message) :
    e.sending[i]? = some message → e.Keeps message.queue →
      (e.bus.waiting message.queue).length < limit →
        ∃ bus, e.bus.send message = .ok bus ∧ bus.view = e.bus.view.put message ∧
          e.after (.send i) = { e with
            bus
            sending := e.sending.eraseIdx i
            accepted := e.accepted ++ [message] }
  send_full (message : Message) :
    message ∈ e.sending → e.Keeps message.queue → (e.bus.waiting message.queue).length = limit →
      e.bus.send message = .error (.queueFull message.queue limit)
  send_gone (message : Message) :
    ¬ e.Keeps message.queue → e.bus.send message = .error .closed
  /-- Until the bus is closed, a queue without subscription is given to whoever asks for it. -/
  subscribe (queue : String) :
    e.bus.closed = false → limit ≤ maxCapacity → (∀ n, (n, queue) ∉ e.subscriptions) →
      ∃ n bus, e.bus.subscribe queue = .ok (n, bus) ∧ (∀ other, (n, other) ∉ e.subscriptions) ∧
        bus.view = e.bus.view.withHolder queue (some n) ∧
        e.after (.subscribe queue) =
          { e with bus, subscriptions := e.subscriptions ++ [(n, queue)] }
  /-- A closed bus begins nothing. -/
  begins_nothing (message : Message) (queue : String) :
    e.bus.closed = true → e.after (.find message) = e ∧ e.after (.subscribe queue) = e
  /-- A subscription receives the oldest message of its queue. -/
  receive_first (n : Nat) (queue : String) (message : Message) (rest : List Message) :
    (n, queue) ∈ e.subscriptions → e.bus.waiting queue = message :: rest →
      ∃ bus, bus.view = e.bus.view.withWaiting queue rest ∧
        e.receive n = (.message message,
          { e with bus, received := e.received ++ [(queue, message)] })
  /-- Where there is none it waits, until the bus is closed and nothing is on its way. -/
  receive_none (n : Nat) (queue : String) :
    (n, queue) ∈ e.subscriptions → e.bus.waiting queue = [] →
      e.receive n = (if e.bus.closed && !e.awaited queue then .finished else .nothing, e)
  /-- A subscription that is given up leaves a free queue, and until the bus is closed also the
  messages in it. -/
  unsubscribe (n : Nat) (queue : String) :
    (n, queue) ∈ e.subscriptions →
      ∃ bus, bus.view = (if e.bus.closed then e.bus.view.withWaiting queue []
          else e.bus.view).withHolder queue none ∧
        e.after (.unsubscribe n) =
          { e with bus, subscriptions := e.subscriptions.filter fun s => s.1 ≠ n }
  close : ∃ bus, bus.view = e.bus.view.close ∧ e.after .close = { e with bus }
  /-- Who holds a queue are the subscriptions that were not given up. -/
  holder_iff (n : Nat) (queue : String) :
    (n, queue) ∈ e.subscriptions ↔ e.bus.holder? queue = some n
  pending (queue : String) :
    e.bus.pending queue = if e.bus.closed then 0 else (e.bus.waiting queue).length
  /-- Finding the queue and sending at once. -/
  publish (message : Message) :
    e.bus.closed = false →
      if e.bus.pending message.queue = limit
      then e.bus.publish message = .error (.queueFull message.queue limit)
      else ∃ bus, e.bus.publish message = .ok bus ∧ bus.view = e.bus.view.put message
  publish_closed (message : Message) :
    e.bus.closed = true → e.bus.publish message = .error .closed

theorem Sound.holder?_eq_none_iff (h : e.Sound) :
    e.bus.holder? queue = none ↔ ∀ n, (n, queue) ∉ e.subscriptions := by
  rw [Option.eq_none_iff_forall_ne_some]
  exact forall_congr' fun n => not_congr (h.holds n queue).symm

/-- A queue that is kept takes the messages that are on their way to it. -/
theorem Sound.isSome_channel?_of_keeps (h : e.Sound) (hmem : message ∈ e.sending)
    (hkeeps : e.Keeps message.queue) : (e.bus.channel? message.queue).isSome := by
  obtain hopen | ⟨n, hn⟩ := hkeeps
  · exact h.reachable message hopen hmem
  · exact isSome_channel?_of_holder? ((h.holds n _).1 hn)

theorem Sound.channel?_of_not_keeps (h : e.Sound) (hgone : ¬ e.Keeps queue) :
    e.bus.channel? queue = none := by
  obtain ⟨hclosed, hfree⟩ := not_or.1 hgone
  rw [← Option.not_isSome_iff_eq_none]
  intro hqueue
  have hheld := h.held queue (eq_true_of_ne_false hclosed) hqueue
  rw [h.holder?_eq_none_iff.2 (not_exists.1 hfree)] at hheld
  cases hheld

/-- The queues of an open bus that the machine can make. -/
theorem overtaxes_of_le {bus : Bus} (hcapacity : bus.capacity ≤ maxCapacity) :
    bus.overtaxes = false := by
  rw [overtaxes, decide_eq_false hcapacity.not_gt, Bool.and_false]

theorem overtaxes_of_closed {bus : Bus} (hclosed : bus.closed = true) : bus.overtaxes = false := by
  rw [overtaxes, hclosed]
  rfl

theorem Sound.serves (h : e.Sound) : e.Serves e.bus.capacity where
  find message hopen hcapacity := by
    refine ⟨_, reach_of_open hopen, view_reached, ?_⟩
    show e.find message = _
    rw [Exchange.find, overtaxes_of_le hcapacity, if_neg Bool.false_ne_true, reach_of_open hopen]
  send_room i message hi hkeeps hroom := by
    have hqueue := h.isSome_channel?_of_keeps (List.mem_of_getElem? hi) hkeeps
    have hsend : e.bus.send message = .ok (e.bus.sent message) :=
      send_eq_ok_iff.2 ⟨hqueue, hroom, rfl⟩
    refine ⟨_, hsend, view_sent hqueue, ?_⟩
    show e.send i = _
    rw [Exchange.send, hi]
    dsimp only
    rw [hsend]
  send_full message hmem hkeeps hfull := by
    obtain ⟨c, hc⟩ := Option.isSome_iff_exists.1 (h.isSome_channel?_of_keeps hmem hkeeps)
    rw [send_of_some hc, if_neg hfull.not_lt]
  send_gone message hgone := send_of_none (h.channel?_of_not_keeps hgone)
  subscribe queue hopen hcapacity hfree := by
    have hsubscribe := subscribe_of_free hopen (h.holder?_eq_none_iff.2 hfree)
    refine ⟨_, _, hsubscribe, fun other hother => (h.fresh _ other hother).ne rfl,
      view_subscribed, ?_⟩
    show e.subscribe queue = _
    rw [Exchange.subscribe, overtaxes_of_le hcapacity, if_neg Bool.false_ne_true, hsubscribe]
  begins_nothing message queue hclosed := by
    constructor
    · show e.find message = e
      rw [Exchange.find, overtaxes_of_closed hclosed, if_neg Bool.false_ne_true,
        reach_of_closed hclosed]
    · show e.subscribe queue = e
      rw [Exchange.subscribe, overtaxes_of_closed hclosed, if_neg Bool.false_ne_true,
        subscribe_of_closed hclosed]
  receive_first n queue message rest hmem hwaiting := by
    have hheld := (h.holds n queue).1 hmem
    exact ⟨_, view_withWaiting (isSome_channel?_of_holder? hheld),
      h.receive_of_cons hheld hwaiting⟩
  receive_none n queue hmem := h.receive_of_nil ((h.holds n queue).1 hmem)
  unsubscribe n queue hmem := by
    refine ⟨_, h.distinct.view_unsubscribe fun other => ⟨?_, ?_⟩, rfl⟩
    · exact h.queue_eq ((h.holds n queue).1 hmem)
    · rintro rfl
      exact (h.holds n other).1 hmem
  close := ⟨_, h.distinct.view_close, rfl⟩
  holder_iff := h.holds
  pending _ := pending_eq
  publish message hopen := by
    have hbounded := h.bounded message.queue
    rw [publish_of_open hopen, pending_eq, hopen, if_neg Bool.false_ne_true]
    split_ifs with hfull hroom hroom
    · exact absurd hroom hfull.not_lt
    · rfl
    · refine ⟨_, rfl, ?_⟩
      rw [view_sent (by simp [isSome_channel?_reached]), view_reached]
    · exact absurd (Nat.lt_of_le_of_ne hbounded hfull) hroom
  publish_closed _ := publish_of_closed

/-! ## Custody -/

/-- What a bus, whose queues are limited, owes to those who use it. -/
structure Faithful (e : Exchange) (limit : Nat) : Prop where
  /-- Each step does its part. -/
  serves : e.Serves limit
  /-- A queue has one subscription at most. -/
  one_subscription (n m : Nat) (queue : String) :
    (n, queue) ∈ e.subscriptions → (m, queue) ∈ e.subscriptions → n = m
  /-- Until the bus is closed, a queue is free as long as it has no subscription. -/
  free_iff (queue : String) (c : Channel) :
    e.bus.closed = false → e.bus.channel? queue = some c →
      (c.subscriber = none ↔ ∀ n, (n, queue) ∉ e.subscriptions)
  /-- A second subscription is refused. -/
  subscribe_second (n : Nat) (queue : String) :
    e.bus.closed = false → (n, queue) ∈ e.subscriptions →
      e.bus.subscribe queue = .error (.alreadySubscribed queue)
  /-- A queue without subscription is given to whoever asks next. -/
  subscribe_next (queue : String) :
    e.bus.closed = false → (∀ n, (n, queue) ∉ e.subscriptions) →
      ∃ n bus, e.bus.subscribe queue = .ok (n, bus) ∧ bus.waiting queue = e.bus.waiting queue
  /-- Until the bus is closed, what came out of a queue and what waits in it are the accepted
  messages, in the order in which they were accepted. -/
  intact_of_open (queue : String) :
    e.bus.closed = false → e.takenFrom queue ++ e.bus.waiting queue = e.acceptedBy queue
  bounded (queue : String) : (e.bus.waiting queue).length ≤ limit
  /-- Until the bus is closed, a message is refused if its queue is full, and only then. -/
  send_eq (message : Message) :
    e.bus.closed = false → message ∈ e.sending →
      e.bus.send message =
        if (e.bus.waiting message.queue).length = limit
        then .error (.queueFull message.queue limit) else .ok (e.bus.sent message)
  /-- A refused message changes nothing. -/
  send_refused (i : Nat) (message : Message) (error : BusError) :
    e.sending[i]? = some message → e.bus.send message = .error error →
      e.after (.send i) = { e with sending := e.sending.eraseIdx i }
  /-- A closed bus begins nothing. -/
  closed_refuses (queue : String) :
    e.bus.closed = true →
      e.bus.reach queue = .error .closed ∧ e.bus.subscribe queue = .error .closed
  /-- A closed bus stays closed and gets no queue. -/
  closed_forever (moves : List Move) :
    e.bus.closed = true → (e.afterAll moves).bus.closed = true ∧
      ∀ queue, ((e.afterAll moves).bus.channel? queue).isSome → (e.bus.channel? queue).isSome
  /-- A subscription to a closed bus receives every accepted message that is left, in order, and
  ends when nothing is on its way to its queue. -/
  closed_drains (n : Nat) (queue : String) :
    e.bus.closed = true → (n, queue) ∈ e.subscriptions →
      e.takenFrom queue ++ e.bus.waiting queue = e.acceptedBy queue ∧
        (e.awaited queue = false → e.receipts n ((e.bus.waiting queue).length + 1) =
          (e.bus.waiting queue).map Receipt.message ++ [.finished])
  /-- What came out of a queue are, in any case, the messages that it accepted first. -/
  taken_prefix (queue : String) : e.takenFrom queue <+: e.acceptedBy queue
  /-- A queue loses messages when the bus is closed while the queue has no subscription, or when
  its subscription to the closed bus is given up. -/
  loss (move : Move) (queue : String) :
    e.Intact queue → ¬ (e.after move).Intact queue →
      (move = .close ∧ e.bus.closed = false ∧ ∀ n, (n, queue) ∉ e.subscriptions) ∨
        ∃ n, move = .unsubscribe n ∧ e.bus.closed = true ∧ (n, queue) ∈ e.subscriptions

theorem Sound.faithful (h : e.Sound) : e.Faithful e.bus.capacity where
  serves := h.serves
  one_subscription n m queue hn hm :=
    Option.some.inj (((h.holds n queue).1 hn).symm.trans ((h.holds m queue).1 hm))
  free_iff queue c _ hc := by
    rw [← h.holder?_eq_none_iff, holder?_of_channel? hc]
  subscribe_second n queue hopen hmem := subscribe_of_held hopen ((h.holds n queue).1 hmem)
  subscribe_next queue hopen hnone :=
    ⟨_, _, subscribe_of_free hopen (h.holder?_eq_none_iff.2 hnone), waiting_subscribed⟩
  intact_of_open queue hopen := h.intact queue (.inl hopen)
  bounded := h.bounded
  send_eq message hopen hmem := by
    obtain ⟨c, hc⟩ := Option.isSome_iff_exists.1 (h.reachable message hopen hmem)
    have hbounded := h.bounded message.queue
    rw [send_of_some hc]
    by_cases hfull : (e.bus.waiting message.queue).length = e.bus.capacity
    · rw [if_pos hfull, if_neg hfull.not_lt]
    · rw [if_neg hfull, if_pos (Nat.lt_of_le_of_ne hbounded hfull)]
  send_refused i message error hi herror := by
    show e.send i = _
    rw [send, hi]
    dsimp only
    rw [herror]
  closed_refuses queue hclosed := ⟨reach_of_closed hclosed, subscribe_of_closed hclosed⟩
  closed_forever moves hclosed := h.shut_afterAll hclosed moves
  closed_drains n queue hclosed hmem := by
    have hheld := (h.holds n queue).1 hmem
    exact ⟨h.intact queue (.inr (by rw [hheld, Option.isSome_some])),
      h.receipts_of_closed hclosed hheld⟩
  taken_prefix := h.taken
  loss move queue hintact hlost := by
    obtain ⟨hmove, hopen, hfree⟩ | ⟨n, hmove, hclosed, hheld⟩ :=
      (h.effect_after move).lost h hintact hlost
    · exact .inl ⟨hmove, hopen, h.holder?_eq_none_iff.1 hfree⟩
    · exact .inr ⟨n, hmove, hclosed, (h.holds n queue).2 hheld⟩

/-! ## After all moves -/

theorem closed_after_close (e : Exchange) : (e.after .close).bus.closed = true :=
  rfl

/-- Only a move that closes the bus closes it. -/
theorem Effect.closed_of_ne {move : Move} {e' : Exchange} (heffect : e.Effect move e')
    (hmove : move ≠ .close) : e'.bus.closed = e.bus.closed := by
  cases heffect with
  | find | subscribe => exact closed_reached
  | unsubscribe => exact closed_unsubscribe
  | close => exact absurd rfl hmove
  | _ => rfl

/-- A bus is closed once somebody has closed it. -/
theorem Sound.closed_afterAll_iff (h : e.Sound) (hopen : e.bus.closed = false)
    (moves : List Move) : (e.afterAll moves).bus.closed = true ↔ .close ∈ moves := by
  induction moves generalizing e with
  | nil => exact iff_of_false (Bool.eq_false_iff.1 hopen) List.not_mem_nil
  | cons move moves ih =>
    by_cases hmove : move = .close
    · subst hmove
      have hclosed := (h.after .close).shut_afterAll e.closed_after_close moves
      exact iff_of_true hclosed.1 List.mem_cons_self
    · have hkept := (h.effect_after move).closed_of_ne hmove
      rw [List.mem_cons, or_iff_right (Ne.symm hmove)]
      exact ih (h.after move) (hkept.trans hopen)

/-- **Custody**: whatever publishers, subscribers and the owner of a bus do, one step at a time and
in any order, the bus keeps what it accepted for those who subscribe, until somebody closes it. -/
theorem afterAll_faithful (capacity : Nat) (moves : List Move) :
    ((start capacity).afterAll moves).Faithful (max capacity 1) ∧
      (((start capacity).afterAll moves).bus.closed = true ↔ .close ∈ moves) := by
  have hsound := (sound_start capacity).afterAll moves
  have hcapacity : ((start capacity).afterAll moves).bus.capacity = max capacity 1 :=
    (sound_start capacity).capacity_afterAll moves
  refine ⟨?_, (sound_start capacity).closed_afterAll_iff rfl moves⟩
  rw [← hcapacity]
  exact hsound.faithful

private def greeting : Message := ⟨"events", .heartbeat, []⟩

private def parting : Message := ⟨"events", .metrics, []⟩

private def stray : Message := ⟨"elsewhere", .heartbeat, []⟩

/-- One message is sent before the bus is closed and one afterwards, whose queue was found in time;
a third one waits in a queue that nobody has subscribed to. -/
private def farewell : List Move :=
  [.find greeting, .subscribe "events", .send 0, .find stray, .send 0, .find parting, .close,
    .send 0]

/-- A subscription to a closed bus still finds what was accepted for it, and then the end. -/
theorem afterAll_faithful_farewell :
    let e := (start 2).afterAll farewell
    e.bus.closed = true ∧ e.accepted = [greeting, stray, parting] ∧
      e.receipts 0 3 = [.message greeting, .message parting, .finished] ∧
      e.takenFrom "elsewhere" ++ e.bus.waiting "elsewhere" ≠ e.acceptedBy "elsewhere" := by
  intro e
  have hfaithful : e.Faithful 2 := (afterAll_faithful 2 farewell).1
  have hclosed : e.bus.closed = true := (afterAll_faithful 2 farewell).2.2 (by simp [farewell])
  have hdrains := (hfaithful.closed_drains 0 "events" hclosed (by decide)).2 (by decide)
  have hwaiting : e.bus.waiting "events" = [greeting, parting] := by decide
  rw [hwaiting] at hdrains
  exact ⟨hclosed, by decide, hdrains, by decide⟩

end Exchange

end Pulse
