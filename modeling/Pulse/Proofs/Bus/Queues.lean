import Mathlib.Data.List.Nodup
import Mathlib.Logic.Function.Basic
import Pulse.Bus

/-!
# The queues of a bus

A bus is seen through two views of each of its queues: the messages that are `waiting` in it and the
subscription that holds it, `holder?`.  As long as the names of queues are `Distinct`, which every
operation keeps, each operation does something to each queue for itself, and the lemmas here say
what: `waiting_send`, `holder?_subscribed` and so on.

* `reach_eq_ok_iff`, `send_eq_ok_iff`, `subscribe_eq_ok_iff` — when an operation succeeds, and to
  what it leads.
* `receive_cases` — everything that a subscription can find.
* `view_sent`, `view_subscribed` and so on — what an operation does to all queues at once.
-/

set_option autoImplicit false

namespace Pulse.Bus

variable {bus bus' : Bus} {queue other : String} {message : Message} {n : Nat} {c : Channel}

/-! ## Names -/

/-- Queues have different names. -/
def Distinct (bus : Bus) : Prop :=
  (bus.channels.map Channel.queue).Nodup

theorem distinct_new (capacity : Nat) : (new capacity).Distinct :=
  List.nodup_nil

theorem queue_of_channel? (h : bus.channel? queue = some c) : c.queue = queue := by
  simpa using List.find?_some h

theorem Distinct.channel?_eq_some_iff (h : bus.Distinct) :
    bus.channel? queue = some c ↔ c ∈ bus.channels ∧ c.queue = queue := by
  refine ⟨fun hc => ⟨List.mem_of_find?_eq_some hc, queue_of_channel? hc⟩, ?_⟩
  rintro ⟨hmem, rfl⟩
  cases hfind : bus.channel? c.queue with
  | none =>
    have hne := List.find?_eq_none.1 hfind c hmem
    simp at hne
  | some d =>
    have hd : d ∈ bus.channels := List.mem_of_find?_eq_some hfind
    rw [List.inj_on_of_nodup_map h hd hmem (queue_of_channel? hfind)]

/-- Changing queues without changing their names. -/
theorem channel?_map {change : Channel → Channel} (hname : ∀ c, (change c).queue = c.queue) :
    ({ bus with channels := bus.channels.map change } : Bus).channel? queue =
      (bus.channel? queue).map change := by
  simp only [channel?, List.find?_map, Function.comp_def, hname]

theorem Distinct.map {change : Channel → Channel} (h : bus.Distinct)
    (hname : ∀ c, (change c).queue = c.queue) :
    ({ bus with channels := bus.channels.map change } : Bus).Distinct := by
  have hnames : Channel.queue ∘ change = Channel.queue := funext hname
  rwa [Distinct, List.map_map, hnames]

theorem Distinct.filter (h : bus.Distinct) (keep : Channel → Bool) :
    ({ bus with channels := bus.channels.filter keep } : Bus).Distinct :=
  h.sublist (List.filter_sublist.map Channel.queue)

/-- Dropping queues. -/
theorem Distinct.channel?_filter (h : bus.Distinct) (keep : Channel → Bool) :
    ({ bus with channels := bus.channels.filter keep } : Bus).channel? queue =
      (bus.channel? queue).filter keep := by
  ext c
  rw [(h.filter keep).channel?_eq_some_iff, Option.filter_eq_some_iff, h.channel?_eq_some_iff,
    List.mem_filter]
  tauto

theorem channel?_update {change : Channel → Channel} (hname : ∀ c, (change c).queue = c.queue) :
    (bus.update queue change).channel? other =
      if other = queue then (bus.channel? queue).map change else bus.channel? other := by
  rw [update, channel?_map fun c => by split_ifs <;> simp [hname]]
  cases hc : bus.channel? other with
  | none =>
    split_ifs with heq
    · rw [← heq, hc]
      rfl
    · rfl
  | some c =>
    have hqueue := queue_of_channel? hc
    split_ifs with heq
    · rw [← heq, hc, Option.map_some, Option.map_some, if_pos hqueue]
    · rw [Option.map_some, if_neg (hqueue.trans_ne heq)]

theorem Distinct.update {change : Channel → Channel} (h : bus.Distinct)
    (hname : ∀ c, (change c).queue = c.queue) : (bus.update queue change).Distinct :=
  h.map fun c => by split_ifs <;> simp [hname]

/-! ## Views -/

/-- The messages in a queue, oldest first. -/
def waiting (bus : Bus) (queue : String) : List Message :=
  (bus.channel? queue).elim [] Channel.pending

/-- The subscription that holds a queue. -/
def holder? (bus : Bus) (queue : String) : Option Nat :=
  (bus.channel? queue).bind Channel.subscriber

theorem waiting_of_channel? (h : bus.channel? queue = some c) : bus.waiting queue = c.pending := by
  rw [waiting, h, Option.elim_some]

theorem holder?_of_channel? (h : bus.channel? queue = some c) :
    bus.holder? queue = c.subscriber := by
  rw [holder?, h, Option.bind_some]

theorem waiting_of_none (h : bus.channel? queue = none) : bus.waiting queue = [] := by
  rw [waiting, h, Option.elim_none]

section

variable {change : Channel → Channel} (hname : ∀ c, (change c).queue = c.queue)
include hname

theorem isSome_channel?_update :
    ((bus.update queue change).channel? other).isSome = (bus.channel? other).isSome := by
  rw [channel?_update hname]
  split_ifs with heq
  · rw [Option.isSome_map, heq]
  · rfl

/-- Changing the messages of a queue leaves all subscriptions alone. -/
theorem holder?_update (hsubscriber : ∀ c, (change c).subscriber = c.subscriber) :
    (bus.update queue change).holder? other = bus.holder? other := by
  rw [holder?, channel?_update hname]
  split_ifs with heq
  · rw [← heq, holder?]
    cases bus.channel? other with
    | none => rfl
    | some c => exact hsubscriber c
  · rfl

/-- Changing the subscription of a queue leaves all messages alone. -/
theorem waiting_update (hpending : ∀ c, (change c).pending = c.pending) :
    (bus.update queue change).waiting other = bus.waiting other := by
  rw [waiting, channel?_update hname]
  split_ifs with heq
  · rw [← heq, waiting]
    cases bus.channel? other with
    | none => rfl
    | some c => exact hpending c
  · rfl

end

/-! ## Publishing -/

/-- The bus once a queue has been used. -/
def reached (bus : Bus) (queue : String) : Bus :=
  match bus.channel? queue with
  | some _ => bus
  | none => { bus with channels := bus.channels ++ [⟨queue, [], none⟩] }

theorem reach_of_closed (h : bus.closed = true) : bus.reach queue = .error .closed :=
  if_pos h

theorem reach_of_open (h : bus.closed = false) : bus.reach queue = .ok (bus.reached queue) := by
  rw [reach, if_neg (by simp [h]), reached]
  cases bus.channel? queue <;> rfl

theorem reach_eq_ok_iff :
    bus.reach queue = .ok bus' ↔ bus.closed = false ∧ bus' = bus.reached queue := by
  cases h : bus.closed with
  | true => simp [reach_of_closed h]
  | false => simp [reach_of_open h, eq_comm]

theorem closed_reached : (bus.reached queue).closed = bus.closed := by
  rw [reached]
  cases bus.channel? queue <;> rfl

theorem capacity_reached : (bus.reached queue).capacity = bus.capacity := by
  rw [reached]
  cases bus.channel? queue <;> rfl

theorem nextSubscription_reached :
    (bus.reached queue).nextSubscription = bus.nextSubscription := by
  rw [reached]
  cases bus.channel? queue <;> rfl

theorem channel?_reached : (bus.reached queue).channel? other =
    if other = queue then some ((bus.channel? queue).getD ⟨queue, [], none⟩)
    else bus.channel? other := by
  rw [reached]
  cases hc : bus.channel? queue with
  | some c =>
    split_ifs with heq
    · rw [heq, hc, Option.getD_some]
    · rfl
  | none =>
    show List.find? _ (bus.channels ++ [_]) = _
    rw [List.find?_append]
    split_ifs with heq
    · have hnone : bus.channels.find? (fun c => c.queue = other) = none := heq ▸ hc
      rw [hnone, heq]
      simp
    · simp [channel?, Ne.symm heq]

theorem waiting_reached : (bus.reached queue).waiting other = bus.waiting other := by
  rw [waiting, channel?_reached]
  split_ifs with heq
  · rw [heq, waiting]
    cases bus.channel? queue <;> rfl
  · rfl

theorem holder?_reached : (bus.reached queue).holder? other = bus.holder? other := by
  rw [holder?, channel?_reached]
  split_ifs with heq
  · rw [heq, holder?]
    cases bus.channel? queue <;> rfl
  · rfl

theorem isSome_channel?_reached :
    ((bus.reached queue).channel? other).isSome =
      (other = queue || (bus.channel? other).isSome) := by
  rw [channel?_reached]
  split_ifs with heq <;> simp [heq]

theorem Distinct.reached (h : bus.Distinct) (queue : String) : (bus.reached queue).Distinct := by
  rw [Bus.reached]
  cases hc : bus.channel? queue with
  | some c => exact h
  | none =>
    show List.Nodup (List.map _ (bus.channels ++ [_]))
    rw [List.map_append, List.nodup_append_comm]
    refine List.nodup_cons.2 ⟨fun hmem => ?_, h⟩
    obtain ⟨c, hc', hqueue⟩ := List.mem_map.1 hmem
    rw [h.channel?_eq_some_iff.2 ⟨hc', hqueue⟩] at hc
    cases hc

/-- The bus with one more message. -/
def sent (bus : Bus) (message : Message) : Bus :=
  bus.update message.queue fun c => { c with pending := c.pending ++ [message] }

theorem send_of_none (h : bus.channel? message.queue = none) :
    bus.send message = .error .closed := by
  rw [send, h]

theorem send_of_some (h : bus.channel? message.queue = some c) :
    bus.send message =
      if (bus.waiting message.queue).length < bus.capacity then .ok (bus.sent message)
      else .error (.queueFull message.queue bus.capacity) := by
  rw [send, waiting_of_channel? h, h]
  rfl

theorem send_eq_ok_iff : bus.send message = .ok bus' ↔
    (bus.channel? message.queue).isSome ∧ (bus.waiting message.queue).length < bus.capacity ∧
      bus' = bus.sent message := by
  cases hc : bus.channel? message.queue with
  | none => simp [send_of_none hc]
  | some c =>
    rw [send_of_some hc]
    split_ifs with hroom <;> simp [hroom, eq_comm]

theorem waiting_sent (h : (bus.channel? message.queue).isSome) :
    (bus.sent message).waiting other =
      bus.waiting other ++ if message.queue = other then [message] else [] := by
  obtain ⟨c, hc⟩ := Option.isSome_iff_exists.1 h
  have hupdate : (bus.sent message).channel? other = _ := channel?_update fun _ => rfl
  rw [hc] at hupdate
  by_cases heq : message.queue = other
  · rw [if_pos heq.symm] at hupdate
    rw [waiting_of_channel? hupdate, if_pos heq, ← heq, waiting_of_channel? hc]
  · rw [if_neg (Ne.symm heq)] at hupdate
    rw [waiting, hupdate, if_neg heq, List.append_nil, waiting]

theorem holder?_sent : (bus.sent message).holder? other = bus.holder? other :=
  holder?_update (fun _ => rfl) fun _ => rfl

theorem isSome_channel?_sent :
    ((bus.sent message).channel? other).isSome = (bus.channel? other).isSome :=
  isSome_channel?_update fun _ => rfl

theorem Distinct.sent (h : bus.Distinct) (message : Message) : (bus.sent message).Distinct :=
  h.update fun _ => rfl

/-! ## Subscribing -/

theorem subscribe_of_closed (h : bus.closed = true) : bus.subscribe queue = .error .closed := by
  rw [subscribe, reach_of_closed h]
  rfl

/-- A queue with a subscription gives out no other one. -/
theorem subscribe_of_held (hopen : bus.closed = false) (hheld : bus.holder? queue = some n) :
    bus.subscribe queue = .error (.alreadySubscribed queue) := by
  obtain ⟨⟨name, pending, subscriber⟩, hc, hsubscriber⟩ := Option.bind_eq_some_iff.1 hheld
  obtain rfl : subscriber = some n := hsubscriber
  have hreached : bus.reached queue = bus := by rw [reached, hc]
  rw [subscribe, reach_of_open hopen, hreached]
  simp only [bind, Except.bind, hc]
  rfl

/-- The bus once a queue without subscription was subscribed to. -/
def subscribed (bus : Bus) (queue : String) : Bus :=
  { (bus.reached queue).update queue
      (fun c => { c with subscriber := some bus.nextSubscription }) with
    nextSubscription := bus.nextSubscription + 1 }

/-- A queue without subscription is there for the next one. -/
theorem subscribe_of_free (hopen : bus.closed = false) (hfree : bus.holder? queue = none) :
    bus.subscribe queue = .ok (bus.nextSubscription, bus.subscribed queue) := by
  obtain ⟨⟨name, pending, subscriber⟩, hc⟩ :
      ∃ c, (bus.reached queue).channel? queue = some c :=
    ⟨_, by rw [channel?_reached, if_pos rfl]⟩
  obtain rfl : subscriber = none :=
    ((holder?_of_channel? hc).symm.trans holder?_reached).trans hfree
  rw [subscribed, ← nextSubscription_reached, subscribe, reach_of_open hopen]
  simp only [bind, Except.bind, hc]
  rfl

theorem subscribe_eq_ok_iff : bus.subscribe queue = .ok (n, bus') ↔
    bus.closed = false ∧ bus.holder? queue = none ∧ n = bus.nextSubscription ∧
      bus' = bus.subscribed queue := by
  cases hclosed : bus.closed with
  | true => simp [subscribe_of_closed hclosed]
  | false =>
    cases hheld : bus.holder? queue with
    | none => simp [subscribe_of_free hclosed hheld, eq_comm]
    | some m => simp [subscribe_of_held hclosed hheld]

theorem waiting_subscribed : (bus.subscribed queue).waiting other = bus.waiting other := by
  have h : ((bus.reached queue).update queue fun c =>
      { c with subscriber := some bus.nextSubscription }).waiting other = _ :=
    waiting_update (fun _ => rfl) fun _ => rfl
  exact h.trans waiting_reached

theorem holder?_subscribed : (bus.subscribed queue).holder? other =
    if other = queue then some bus.nextSubscription else bus.holder? other := by
  have h : (bus.subscribed queue).channel? other = _ :=
    (channel?_update fun _ => rfl : ((bus.reached queue).update queue fun c =>
      { c with subscriber := some bus.nextSubscription }).channel? other = _)
  rw [channel?_reached, channel?_reached, if_pos rfl] at h
  split_ifs with heq
  · rw [if_pos heq] at h
    exact holder?_of_channel? h
  · rw [if_neg heq, if_neg heq] at h
    rw [holder?, h, holder?]

theorem isSome_channel?_subscribed : ((bus.subscribed queue).channel? other).isSome =
    (other = queue || (bus.channel? other).isSome) := by
  have h : (((bus.reached queue).update queue fun c =>
      { c with subscriber := some bus.nextSubscription }).channel? other).isSome = _ :=
    isSome_channel?_update fun _ => rfl
  exact h.trans isSome_channel?_reached

theorem Distinct.subscribed (h : bus.Distinct) (queue : String) :
    (bus.subscribed queue).Distinct :=
  (h.reached queue).update fun _ => rfl

/-! ## Receiving -/

/-- The bus with other messages in a queue. -/
def withWaiting (bus : Bus) (queue : String) (messages : List Message) : Bus :=
  bus.update queue fun c => { c with pending := messages }

theorem waiting_withWaiting {messages : List Message} (h : (bus.channel? queue).isSome) :
    (bus.withWaiting queue messages).waiting other =
      if other = queue then messages else bus.waiting other := by
  obtain ⟨c, hc⟩ := Option.isSome_iff_exists.1 h
  have hupdate : (bus.withWaiting queue messages).channel? other = _ :=
    channel?_update fun _ => rfl
  rw [waiting, hupdate, hc]
  split_ifs <;> rfl

theorem holder?_withWaiting {messages : List Message} :
    (bus.withWaiting queue messages).holder? other = bus.holder? other :=
  holder?_update (fun _ => rfl) fun _ => rfl

theorem isSome_channel?_withWaiting {messages : List Message} :
    ((bus.withWaiting queue messages).channel? other).isSome = (bus.channel? other).isSome :=
  isSome_channel?_update fun _ => rfl

theorem Distinct.withWaiting (h : bus.Distinct) (queue : String) (messages : List Message) :
    (bus.withWaiting queue messages).Distinct :=
  h.update fun _ => rfl

/-- **What a subscription finds**: the oldest message of its queue, or that there is none, or, if
there is no such subscription, the end. -/
theorem receive_cases (h : bus.Distinct) (n : Nat) :
    (∃ queue message rest, bus.holder? queue = some n ∧ bus.waiting queue = message :: rest ∧
        bus.receive n = (.message message, bus.withWaiting queue rest)) ∨
      (∃ queue, bus.holder? queue = some n ∧ bus.waiting queue = [] ∧
        bus.receive n = (if bus.closed then .finished else .nothing, bus)) ∨
      ((∀ queue, bus.holder? queue ≠ some n) ∧ bus.receive n = (.finished, bus)) := by
  rw [receive]
  cases hfind : bus.channels.find? fun c => c.subscriber = some n with
  | none =>
    refine .inr (.inr ⟨fun queue hheld => ?_, rfl⟩)
    obtain ⟨c, hc, hsubscriber⟩ := Option.bind_eq_some_iff.1 hheld
    have hne := List.find?_eq_none.1 hfind c (List.mem_of_find?_eq_some hc)
    exact hne (decide_eq_true hsubscriber)
  | some c =>
    have hsubscriber : c.subscriber = some n := by simpa using List.find?_some hfind
    have hc := h.channel?_eq_some_iff.2 ⟨List.mem_of_find?_eq_some hfind, rfl⟩
    have hheld := (holder?_of_channel? hc).trans hsubscriber
    cases hpending : c.pending with
    | nil =>
      refine .inr (.inl ⟨_, hheld, (waiting_of_channel? hc).trans hpending, ?_⟩)
      simp only [hpending]
    | cons message rest =>
      refine .inl ⟨_, message, rest, hheld, (waiting_of_channel? hc).trans hpending, ?_⟩
      simp only [hpending, withWaiting]

/-! ## Endings -/

theorem Distinct.channel?_unsubscribe (h : bus.Distinct) :
    (bus.unsubscribe n).channel? queue =
      if bus.closed then (bus.channel? queue).filter fun c => c.subscriber ≠ some n
      else (bus.channel? queue).map fun c =>
        if c.subscriber = some n then { c with subscriber := none } else c := by
  rw [unsubscribe]
  split_ifs
  · exact h.channel?_filter _
  · exact channel?_map fun c => by split_ifs <;> rfl

theorem Distinct.unsubscribe (h : bus.Distinct) (n : Nat) : (bus.unsubscribe n).Distinct := by
  rw [Bus.unsubscribe]
  split_ifs
  · exact h.filter _
  · exact h.map fun c => by split_ifs <;> rfl

theorem closed_unsubscribe : (bus.unsubscribe n).closed = bus.closed := by
  rw [unsubscribe]
  split_ifs <;> rfl

theorem capacity_unsubscribe : (bus.unsubscribe n).capacity = bus.capacity := by
  rw [unsubscribe]
  split_ifs <;> rfl

theorem nextSubscription_unsubscribe :
    (bus.unsubscribe n).nextSubscription = bus.nextSubscription := by
  rw [unsubscribe]
  split_ifs <;> rfl

/-- Giving a subscription up frees its queue. -/
theorem Distinct.holder?_unsubscribe (h : bus.Distinct) :
    (bus.unsubscribe n).holder? queue =
      if bus.holder? queue = some n then none else bus.holder? queue := by
  rw [holder?, h.channel?_unsubscribe, holder?]
  cases bus.channel? queue with
  | none => split_ifs <;> rfl
  | some c =>
    rw [Option.bind_some, Option.filter_some, Option.map_some]
    by_cases heq : c.subscriber = some n <;> cases bus.closed <;> simp [heq]

/-- Giving a subscription up leaves its messages in the queue, unless the bus is closed. -/
theorem Distinct.waiting_unsubscribe (h : bus.Distinct) :
    (bus.unsubscribe n).waiting queue =
      if bus.closed = true ∧ bus.holder? queue = some n then [] else bus.waiting queue := by
  rw [waiting, h.channel?_unsubscribe, waiting, holder?]
  cases bus.channel? queue with
  | none => split_ifs <;> rfl
  | some c =>
    rw [Option.bind_some, Option.filter_some, Option.map_some]
    by_cases heq : c.subscriber = some n <;> cases bus.closed <;> simp [heq]

theorem Distinct.isSome_channel?_unsubscribe (h : bus.Distinct) :
    ((bus.unsubscribe n).channel? queue).isSome =
      ((bus.channel? queue).isSome && !(bus.closed && bus.holder? queue = some n)) := by
  rw [h.channel?_unsubscribe, holder?]
  cases bus.channel? queue with
  | none => split_ifs <;> rfl
  | some c =>
    rw [Option.bind_some, Option.filter_some, Option.map_some]
    by_cases heq : c.subscriber = some n <;> cases bus.closed <;> simp [heq]

theorem Distinct.channel?_close (h : bus.Distinct) :
    bus.close.channel? queue = (bus.channel? queue).filter fun c => c.subscriber.isSome :=
  h.channel?_filter _

theorem Distinct.close (h : bus.Distinct) : bus.close.Distinct :=
  h.filter _

theorem Distinct.holder?_close (h : bus.Distinct) :
    bus.close.holder? queue = bus.holder? queue := by
  rw [holder?, h.channel?_close, holder?]
  cases bus.channel? queue with
  | none => rfl
  | some c =>
    rw [Option.filter_some, Option.bind_some]
    cases hc : c.subscriber <;> simp [hc]

/-- Closing the bus drops the messages of queues without subscription. -/
theorem Distinct.waiting_close (h : bus.Distinct) :
    bus.close.waiting queue = if bus.holder? queue = none then [] else bus.waiting queue := by
  rw [waiting, h.channel?_close, waiting, holder?]
  cases bus.channel? queue with
  | none => rfl
  | some c =>
    rw [Option.filter_some, Option.bind_some]
    cases hc : c.subscriber <;> simp

theorem Distinct.isSome_channel?_close (h : bus.Distinct) :
    (bus.close.channel? queue).isSome = (bus.holder? queue).isSome := by
  rw [h.channel?_close, holder?]
  cases bus.channel? queue with
  | none => rfl
  | some c => cases hc : c.subscriber <;> simp [hc]

/-! ## All queues at once -/

/-- What can be seen of a bus: whether it is closed, and for each queue the messages in it and the
subscription that holds it. -/
@[ext]
structure View where
  closed : Bool
  waiting : String → List Message
  holder? : String → Option Nat

/-- The view of a bus. -/
def view (bus : Bus) : View := ⟨bus.closed, bus.waiting, bus.holder?⟩

namespace View

/-- A queue has other messages. -/
def withWaiting (view : View) (queue : String) (messages : List Message) : View :=
  { view with waiting := Function.update view.waiting queue messages }

/-- There is one more message at the end of its queue. -/
def put (view : View) (message : Message) : View :=
  view.withWaiting message.queue (view.waiting message.queue ++ [message])

/-- A queue is held by a subscription, or free. -/
def withHolder (view : View) (queue : String) (holder? : Option Nat) : View :=
  { view with holder? := Function.update view.holder? queue holder? }

/-- No queue is lost but those that nobody holds. -/
def close (view : View) : View where
  closed := true
  waiting := fun queue => if view.holder? queue = none then [] else view.waiting queue
  holder? := view.holder?

end View

theorem view_reached : (bus.reached queue).view = bus.view :=
  View.ext closed_reached (funext fun _ => waiting_reached) (funext fun _ => holder?_reached)

theorem view_sent (h : (bus.channel? message.queue).isSome) :
    (bus.sent message).view = bus.view.put message := by
  refine View.ext rfl (funext fun other => ?_) (funext fun _ => holder?_sent)
  show (bus.sent message).waiting other = Function.update bus.waiting _ _ other
  rw [waiting_sent h, Function.update_apply]
  by_cases heq : other = message.queue
  · rw [if_pos heq.symm, if_pos heq, heq]
    rfl
  · rw [if_neg (Ne.symm heq), if_neg heq, List.append_nil]

theorem view_subscribed :
    (bus.subscribed queue).view = bus.view.withHolder queue (some bus.nextSubscription) := by
  refine View.ext closed_reached (funext fun _ => waiting_subscribed) (funext fun other => ?_)
  show (bus.subscribed queue).holder? other = Function.update bus.holder? _ _ other
  rw [holder?_subscribed, Function.update_apply]

theorem view_withWaiting {messages : List Message} (h : (bus.channel? queue).isSome) :
    (bus.withWaiting queue messages).view = bus.view.withWaiting queue messages := by
  refine View.ext rfl (funext fun other => ?_) (funext fun _ => holder?_withWaiting)
  show (bus.withWaiting queue messages).waiting other = Function.update bus.waiting _ _ other
  rw [waiting_withWaiting h, Function.update_apply]

/-- Giving up the subscription that holds a queue, and no other one. -/
theorem Distinct.view_unsubscribe (h : bus.Distinct)
    (hholds : ∀ other, bus.holder? other = some n ↔ other = queue) :
    (bus.unsubscribe n).view =
      (if bus.closed then bus.view.withWaiting queue [] else bus.view).withHolder queue none := by
  have hwaiting (other : String) : (bus.unsubscribe n).waiting other =
      if bus.closed = true ∧ other = queue then [] else bus.waiting other := by
    simp only [h.waiting_unsubscribe, hholds]
  have hholder (other : String) : (bus.unsubscribe n).holder? other =
      if other = queue then none else bus.holder? other := by
    simp only [h.holder?_unsubscribe, hholds]
  have hclosed : (bus.unsubscribe n).closed = bus.closed := closed_unsubscribe
  rw [view, hclosed, funext hwaiting, funext hholder]
  cases hc : bus.closed <;>
    simp [View.withHolder, View.withWaiting, view, hc, Function.update_apply, funext_iff]

theorem Distinct.view_close (h : bus.Distinct) : bus.close.view = bus.view.close :=
  View.ext rfl (funext fun _ => h.waiting_close) (funext fun _ => h.holder?_close)

/-- What an open bus counts are the messages that wait; a closed bus counts none. -/
theorem pending_eq : bus.pending queue = if bus.closed then 0 else (bus.waiting queue).length := by
  rw [pending, waiting]
  cases bus.channel? queue <;> rfl

/-! ## How much queues hold -/

theorem capacity_of_publish (h : bus.publish message = .ok bus') :
    bus'.capacity = bus.capacity := by
  cases hclosed : bus.closed with
  | true =>
    rw [publish, reach_of_closed hclosed] at h
    cases h
  | false =>
    rw [publish, reach_of_open hclosed] at h
    obtain ⟨-, -, rfl⟩ := send_eq_ok_iff.1 h
    exact capacity_reached

theorem capacity_of_subscribe (h : bus.subscribe queue = .ok (n, bus')) :
    bus'.capacity = bus.capacity := by
  obtain ⟨-, -, -, rfl⟩ := subscribe_eq_ok_iff.1 h
  exact capacity_reached

theorem capacity_receive (bus : Bus) (n : Nat) : (bus.receive n).2.capacity = bus.capacity := by
  rw [receive]
  split
  · rfl
  · split <;> rfl

end Pulse.Bus
