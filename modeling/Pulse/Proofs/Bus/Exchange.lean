import Mathlib.Data.List.Infix
import Pulse.Proofs.Bus.Queues

/-!
# The traffic over a bus

Publishers, subscribers and the owner of a bus take turns in any order, and a publisher can be
interrupted between finding the queue of its message and sending the message.  Does every accepted
message come out of its queue, once, and in the order in which messages were accepted?

An `Exchange` is a bus together with the messages that are on their way to it and a ledger of what
it has accepted and given out.  A `Move` is one step of one participant.

* `Exchange.Sound` — the invariant that each move keeps.
* `Exchange.Effect` — everything that a move can do.
* `Exchange.Effect.lost` — the end of the bus costs messages of two kinds only: those in queues
  without subscription, and those that a subscription left behind.
-/

set_option autoImplicit false

namespace Pulse

/-- A bus, what is on its way to it, and what came of that. -/
structure Exchange where
  bus : Bus
  /-- The messages whose queue was found and that were not sent yet. -/
  sending : List Message
  /-- The subscriptions that were not given up, each with its queue. -/
  subscriptions : List (Nat × String)
  /-- The messages whose publication succeeded, oldest first. -/
  accepted : List Message
  /-- The messages that came out, each with the queue of the subscription, oldest first. -/
  received : List (String × Message)

/-- A step of a participant. -/
inductive Exchange.Move where
  /-- A publisher finds the queue of its message. -/
  | find (message : Message)
  /-- A publisher sends its message; they are counted as their queues were found. -/
  | send (i : Nat)
  | subscribe (queue : String)
  | receive (subscription : Nat)
  /-- A subscription is given up. -/
  | unsubscribe (subscription : Nat)
  | close

namespace Exchange

open Bus

/-! ## Moves -/

/-- A new bus that was not used. -/
def start (capacity : Nat) : Exchange := ⟨Bus.new capacity, [], [], [], []⟩

/-- A publisher finds the queue of its message.  Where the machine cannot make the queue, and where
the bus is closed, that is the end of the publication. -/
def find (e : Exchange) (message : Message) : Exchange :=
  if e.bus.overtaxes then e
  else
    match e.bus.reach message.queue with
    | .error _ => e
    | .ok bus => { e with bus, sending := e.sending ++ [message] }

/-- A publisher sends its message, which ends the publication in any case. -/
def send (e : Exchange) (i : Nat) : Exchange :=
  match e.sending[i]? with
  | none => e
  | some message =>
    match e.bus.send message with
    | .error _ => { e with sending := e.sending.eraseIdx i }
    | .ok bus =>
      { e with bus, sending := e.sending.eraseIdx i, accepted := e.accepted ++ [message] }

def subscribe (e : Exchange) (queue : String) : Exchange :=
  if e.bus.overtaxes then e
  else
    match e.bus.subscribe queue with
    | .error _ => e
    | .ok (n, bus) => { e with bus, subscriptions := e.subscriptions ++ [(n, queue)] }

/-- A message is on its way to a queue. -/
def awaited (e : Exchange) (queue : String) : Bool :=
  e.sending.any fun message => message.queue = queue

/-- What a subscription finds.  It does not end as long as a message is on its way to its queue. -/
def receive (e : Exchange) (n : Nat) : Receipt × Exchange :=
  match e.subscriptions.find? fun s => s.1 = n with
  | none => (.finished, e)
  | some (_, queue) =>
    match e.bus.receive n with
    | (.message message, bus) =>
      (.message message, { e with bus, received := e.received ++ [(queue, message)] })
    | (.nothing, _) => (.nothing, e)
    | (.finished, _) => (if e.awaited queue then .nothing else .finished, e)

def unsubscribe (e : Exchange) (n : Nat) : Exchange :=
  { e with bus := e.bus.unsubscribe n, subscriptions := e.subscriptions.filter fun s => s.1 ≠ n }

def close (e : Exchange) : Exchange :=
  { e with bus := e.bus.close }

/-- The exchange after a move. -/
def after (e : Exchange) : Move → Exchange
  | .find message => e.find message
  | .send i => e.send i
  | .subscribe queue => e.subscribe queue
  | .receive n => (e.receive n).2
  | .unsubscribe n => e.unsubscribe n
  | .close => e.close

/-- The exchange after moves, one after the other. -/
def afterAll (e : Exchange) (moves : List Move) : Exchange :=
  moves.foldl after e

/-- What a subscription finds when it looks a number of times. -/
def receipts (n : Nat) : Nat → Exchange → List Receipt
  | 0, _ => []
  | k + 1, e => (e.receive n).1 :: receipts n k (e.receive n).2

/-! ## The ledger of a queue -/

/-- The accepted messages of a queue. -/
def acceptedBy (e : Exchange) (queue : String) : List Message :=
  e.accepted.filter fun message => message.queue = queue

/-- The messages that came out of a queue, through whichever subscription. -/
def takenFrom (e : Exchange) (queue : String) : List Message :=
  (e.received.filter fun r => r.1 = queue).map Prod.snd

/-- What came out of a queue and what waits in it are the messages that it accepted. -/
def Intact (e : Exchange) (queue : String) : Prop :=
  e.takenFrom queue ++ e.bus.waiting queue = e.acceptedBy queue

variable {e : Exchange} {queue : String} {message : Message} {n : Nat}

/-- What holds of an exchange, whatever the moves were. -/
structure Sound (e : Exchange) : Prop where
  distinct : e.bus.Distinct
  bounded (queue : String) : (e.bus.waiting queue).length ≤ e.bus.capacity
  /-- The subscriptions are those that hold a queue. -/
  holds (n : Nat) (queue : String) :
    (n, queue) ∈ e.subscriptions ↔ e.bus.holder? queue = some n
  /-- A subscription is to one queue. -/
  single (n : Nat) (queue other : String) :
    (n, queue) ∈ e.subscriptions → (n, other) ∈ e.subscriptions → queue = other
  fresh (n : Nat) (queue : String) : (n, queue) ∈ e.subscriptions → n < e.bus.nextSubscription
  /-- A closed bus has no queue without subscription. -/
  held (queue : String) :
    e.bus.closed = true → (e.bus.channel? queue).isSome → (e.bus.holder? queue).isSome
  /-- An open bus keeps the queues that were found. -/
  reachable (message : Message) :
    e.bus.closed = false → message ∈ e.sending → (e.bus.channel? message.queue).isSome
  intact (queue : String) :
    e.bus.closed = false ∨ (e.bus.holder? queue).isSome → e.Intact queue
  /-- What came out of a queue are the messages that it accepted first. -/
  taken (queue : String) : e.takenFrom queue <+: e.acceptedBy queue

theorem sound_start (capacity : Nat) : (start capacity).Sound where
  distinct := distinct_new capacity
  bounded queue := Nat.zero_le _
  holds n queue := by simp [start, Bus.new, holder?, channel?]
  single n queue other h := nomatch h
  fresh n queue h := nomatch h
  held queue h := nomatch h
  reachable message _ h := nomatch h
  intact queue _ := rfl
  taken queue := List.prefix_refl []

/-! ## What each move does -/

/-- What a move does to an exchange, if it does something. -/
inductive Effect (e : Exchange) : Move → Exchange → Prop where
  | idle (move : Move) : Effect e move e
  | find (message : Message) (hopen : e.bus.closed = false) :
    Effect e (.find message) { e with
      bus := e.bus.reached message.queue
      sending := e.sending ++ [message] }
  | refuse (i : Nat) : Effect e (.send i) { e with sending := e.sending.eraseIdx i }
  | accept (i : Nat) (message : Message) (hqueue : (e.bus.channel? message.queue).isSome)
      (hroom : (e.bus.waiting message.queue).length < e.bus.capacity) :
    Effect e (.send i) { e with
      bus := e.bus.sent message
      sending := e.sending.eraseIdx i
      accepted := e.accepted ++ [message] }
  | subscribe (queue : String) (hopen : e.bus.closed = false)
      (hfree : e.bus.holder? queue = none) :
    Effect e (.subscribe queue) { e with
      bus := e.bus.subscribed queue
      subscriptions := e.subscriptions ++ [(e.bus.nextSubscription, queue)] }
  | give (n : Nat) (queue : String) (message : Message) (rest : List Message)
      (hheld : e.bus.holder? queue = some n) (hwaiting : e.bus.waiting queue = message :: rest) :
    Effect e (.receive n) { e with
      bus := e.bus.withWaiting queue rest
      received := e.received ++ [(queue, message)] }
  | unsubscribe (n : Nat) : Effect e (.unsubscribe n) (e.unsubscribe n)
  | close : Effect e .close e.close

theorem effect_find (e : Exchange) (message : Message) :
    e.Effect (.find message) (e.find message) := by
  rw [find]
  split_ifs
  · exact .idle _
  · cases h : e.bus.reach message.queue with
    | error _ => exact .idle _
    | ok bus =>
      obtain ⟨hopen, rfl⟩ := reach_eq_ok_iff.1 h
      exact .find message hopen

theorem effect_send (e : Exchange) (i : Nat) : e.Effect (.send i) (e.send i) := by
  rw [send]
  cases e.sending[i]? with
  | none => exact .idle _
  | some message =>
    dsimp only
    cases h : e.bus.send message with
    | error _ => exact .refuse i
    | ok bus =>
      obtain ⟨hqueue, hroom, rfl⟩ := send_eq_ok_iff.1 h
      exact .accept i message hqueue hroom

theorem effect_subscribe (e : Exchange) (queue : String) :
    e.Effect (.subscribe queue) (e.subscribe queue) := by
  rw [subscribe]
  split_ifs
  · exact .idle _
  · cases h : e.bus.subscribe queue with
    | error _ => exact .idle _
    | ok given =>
      obtain ⟨hopen, hfree, hn, hbus⟩ := subscribe_eq_ok_iff.1 h
      dsimp only
      rw [hn, hbus]
      exact .subscribe queue hopen hfree

/-- A subscription holds one queue. -/
theorem Sound.queue_eq (h : e.Sound) (hheld : e.bus.holder? queue = some n) {other : String}
    (hother : e.bus.holder? other = some n) : other = queue :=
  h.single n other queue ((h.holds n other).2 hother) ((h.holds n queue).2 hheld)

theorem Sound.find?_subscriptions (h : e.Sound) (hheld : e.bus.holder? queue = some n) :
    e.subscriptions.find? (fun s => s.1 = n) = some (n, queue) := by
  have hmem := (h.holds n queue).2 hheld
  cases hfind : e.subscriptions.find? fun s => s.1 = n with
  | none =>
    have hne := List.find?_eq_none.1 hfind _ hmem
    simp at hne
  | some s =>
    obtain ⟨k, other⟩ := s
    obtain rfl : k = n := by simpa using List.find?_some hfind
    rw [h.single k other queue (List.mem_of_find?_eq_some hfind) hmem]

/-- A subscription finds the oldest message of its queue. -/
theorem Sound.receive_of_cons (h : e.Sound) (hheld : e.bus.holder? queue = some n)
    {rest : List Message} (hwaiting : e.bus.waiting queue = message :: rest) :
    e.receive n = (.message message, { e with
      bus := e.bus.withWaiting queue rest
      received := e.received ++ [(queue, message)] }) := by
  rw [receive, h.find?_subscriptions hheld]
  obtain ⟨other, _, _, hother, hrest, hreceive⟩ | ⟨other, hother, hnil, _⟩ | ⟨hnone, _⟩ :=
    receive_cases h.distinct n
  · obtain rfl := h.queue_eq hheld hother
    obtain ⟨rfl, rfl⟩ := List.cons.inj (hrest.symm.trans hwaiting)
    rw [hreceive]
  · rw [h.queue_eq hheld hother, hwaiting] at hnil
    cases hnil
  · exact absurd hheld (hnone queue)

/-- A subscription whose queue is empty waits until the bus is closed and nothing is on its way. -/
theorem Sound.receive_of_nil (h : e.Sound) (hheld : e.bus.holder? queue = some n)
    (hwaiting : e.bus.waiting queue = []) :
    e.receive n = (if e.bus.closed && !e.awaited queue then .finished else .nothing, e) := by
  rw [receive, h.find?_subscriptions hheld]
  obtain ⟨other, _, _, hother, hrest, _⟩ | ⟨_, _, _, hreceive⟩ | ⟨hnone, _⟩ :=
    receive_cases h.distinct n
  · rw [h.queue_eq hheld hother, hwaiting] at hrest
    cases hrest
  · rw [hreceive]
    cases e.bus.closed <;> cases hawaited : e.awaited queue <;> simp [hawaited]
  · exact absurd hheld (hnone queue)

/-- What was given up, or never given out, finds nothing. -/
theorem receive_of_not_mem (h : ∀ queue, (n, queue) ∉ e.subscriptions) :
    e.receive n = (.finished, e) := by
  have hnone : e.subscriptions.find? (fun s => s.1 = n) = none := by
    rw [List.find?_eq_none]
    rintro ⟨k, queue⟩ hmem
    simp only [decide_eq_true_eq]
    rintro rfl
    exact h queue hmem
  rw [receive, hnone]

theorem Sound.effect_receive (h : e.Sound) (n : Nat) :
    e.Effect (.receive n) (e.receive n).2 := by
  by_cases hlive : ∃ queue, (n, queue) ∈ e.subscriptions
  · obtain ⟨queue, hmem⟩ := hlive
    have hheld := (h.holds n queue).1 hmem
    cases hwaiting : e.bus.waiting queue with
    | nil =>
      rw [h.receive_of_nil hheld hwaiting]
      exact .idle _
    | cons message rest =>
      rw [h.receive_of_cons hheld hwaiting]
      exact .give n queue message rest hheld hwaiting
  · rw [receive_of_not_mem fun queue hmem => hlive ⟨queue, hmem⟩]
    exact .idle _

/-- Everything that a move can do. -/
theorem Sound.effect_after (h : e.Sound) (move : Move) : e.Effect move (e.after move) := by
  cases move with
  | find message => exact effect_find e message
  | send i => exact effect_send e i
  | subscribe queue => exact effect_subscribe e queue
  | receive n => exact h.effect_receive n
  | unsubscribe n => exact .unsubscribe n
  | close => exact .close

/-! ## The ledger stays right -/

theorem acceptedBy_accept (bus : Bus) (sending : List Message) :
    acceptedBy { e with bus, sending, accepted := e.accepted ++ [message] } queue =
      e.acceptedBy queue ++ if message.queue = queue then [message] else [] := by
  rw [acceptedBy, List.filter_append, acceptedBy]
  by_cases heq : message.queue = queue <;> simp [heq]

theorem takenFrom_give (bus : Bus) (other : String) :
    takenFrom { e with bus, received := e.received ++ [(queue, message)] } other =
      e.takenFrom other ++ if queue = other then [message] else [] := by
  rw [takenFrom, List.filter_append, List.map_append, takenFrom]
  by_cases heq : queue = other <;> simp [heq]

theorem Intact.accept (h : e.Intact queue) (i : Nat)
    (hqueue : (e.bus.channel? message.queue).isSome) :
    Intact { e with
      bus := e.bus.sent message
      sending := e.sending.eraseIdx i
      accepted := e.accepted ++ [message] } queue := by
  rw [Intact, waiting_sent hqueue, acceptedBy_accept, ← h, List.append_assoc]
  rfl

theorem isSome_channel?_of_holder? {bus : Bus} (h : bus.holder? queue = some n) :
    (bus.channel? queue).isSome := by
  obtain ⟨c, hc, _⟩ := Option.bind_eq_some_iff.1 h
  rw [hc, Option.isSome_some]

theorem Intact.give {other : String} (h : e.Intact other) (hheld : e.bus.holder? queue = some n)
    {rest : List Message} (hwaiting : e.bus.waiting queue = message :: rest) :
    Intact { e with
      bus := e.bus.withWaiting queue rest
      received := e.received ++ [(queue, message)] } other := by
  rw [Intact, takenFrom_give, waiting_withWaiting (isSome_channel?_of_holder? hheld)]
  by_cases heq : queue = other
  · subst heq
    rw [if_pos rfl, if_pos rfl, List.append_assoc, List.singleton_append, ← hwaiting]
    exact h
  · rw [if_neg heq, if_neg (Ne.symm heq), List.append_nil]
    exact h

theorem Sound.find (h : e.Sound) (hopen : e.bus.closed = false) (message : Message) :
    Sound { e with bus := e.bus.reached message.queue, sending := e.sending ++ [message] } where
  distinct := h.distinct.reached _
  bounded queue := by
    rw [waiting_reached, capacity_reached]
    exact h.bounded queue
  holds n queue := by
    rw [holder?_reached]
    exact h.holds n queue
  single := h.single
  fresh n queue hmem := by
    rw [nextSubscription_reached]
    exact h.fresh n queue hmem
  held queue hclosed := by
    rw [closed_reached, hopen] at hclosed
    cases hclosed
  reachable other _ hmem := by
    rw [isSome_channel?_reached]
    obtain hmem | hmem := List.mem_append.1 hmem
    · simp [h.reachable other hopen hmem]
    · simp [List.mem_singleton.1 hmem]
  intact queue _ := by
    rw [Intact, waiting_reached]
    exact h.intact queue (.inl hopen)
  taken := h.taken

theorem Sound.refuse (h : e.Sound) (i : Nat) :
    Sound { e with sending := e.sending.eraseIdx i } where
  __ := h
  reachable message hopen hmem := h.reachable message hopen (List.mem_of_mem_eraseIdx hmem)

theorem Sound.accept (h : e.Sound) (i : Nat) (hqueue : (e.bus.channel? message.queue).isSome)
    (hroom : (e.bus.waiting message.queue).length < e.bus.capacity) :
    Sound { e with
      bus := e.bus.sent message
      sending := e.sending.eraseIdx i
      accepted := e.accepted ++ [message] } where
  distinct := h.distinct.sent message
  bounded queue := by
    rw [waiting_sent hqueue]
    split_ifs with heq
    · subst heq
      rw [List.length_append]
      exact hroom
    · rw [List.append_nil]
      exact h.bounded queue
  holds n queue := by
    rw [holder?_sent]
    exact h.holds n queue
  single := h.single
  fresh := h.fresh
  held queue := by
    rw [isSome_channel?_sent, holder?_sent]
    exact h.held queue
  reachable other hopen hmem := by
    rw [isSome_channel?_sent]
    exact h.reachable other hopen (List.mem_of_mem_eraseIdx hmem)
  intact queue hlive := by
    rw [holder?_sent] at hlive
    exact (h.intact queue hlive).accept i hqueue
  taken queue := by
    rw [acceptedBy_accept]
    exact (h.taken queue).trans (List.prefix_append _ _)

theorem Sound.subscribe (h : e.Sound) (hopen : e.bus.closed = false)
    (hfree : e.bus.holder? queue = none) :
    Sound { e with
      bus := e.bus.subscribed queue
      subscriptions := e.subscriptions ++ [(e.bus.nextSubscription, queue)] } where
  distinct := h.distinct.subscribed queue
  bounded other := by
    rw [waiting_subscribed]
    exact (h.bounded other).trans_eq capacity_reached.symm
  holds n other := by
    rw [holder?_subscribed, List.mem_append, List.mem_singleton, Prod.mk.injEq, h.holds n other]
    split_ifs with heq
    · subst heq
      rw [hfree]
      simp [eq_comm]
    · simp [heq]
  single n first second hfirst hsecond := by
    simp only [List.mem_append, List.mem_singleton, Prod.mk.injEq] at hfirst hsecond
    obtain hfirst | ⟨rfl, rfl⟩ := hfirst <;> obtain hsecond | ⟨hn, rfl⟩ := hsecond
    · exact h.single n first second hfirst hsecond
    · exact absurd hn (h.fresh n first hfirst).ne
    · exact absurd (h.fresh _ second hsecond) (Nat.lt_irrefl _)
    · rfl
  fresh n other hmem := by
    show n < e.bus.nextSubscription + 1
    obtain hmem | hmem := List.mem_append.1 hmem
    · exact (h.fresh n other hmem).trans (Nat.lt_succ_self _)
    · rw [(Prod.mk.inj (List.mem_singleton.1 hmem)).1]
      exact Nat.lt_succ_self _
  held other hclosed := by
    have hclosed : (e.bus.reached queue).closed = true := hclosed
    rw [closed_reached, hopen] at hclosed
    cases hclosed
  reachable message _ hmem := by
    rw [isSome_channel?_subscribed, h.reachable message hopen hmem, Bool.or_true]
  intact other _ := by
    rw [Intact, waiting_subscribed]
    exact h.intact other (.inl hopen)
  taken := h.taken

theorem Sound.give (h : e.Sound) (hheld : e.bus.holder? queue = some n) {rest : List Message}
    (hwaiting : e.bus.waiting queue = message :: rest) :
    Sound { e with
      bus := e.bus.withWaiting queue rest
      received := e.received ++ [(queue, message)] } where
  distinct := h.distinct.withWaiting queue rest
  bounded other := by
    rw [waiting_withWaiting (isSome_channel?_of_holder? hheld)]
    split_ifs
    · have hbounded := h.bounded queue
      rw [hwaiting] at hbounded
      exact (Nat.le_succ _).trans hbounded
    · exact h.bounded other
  holds n other := by
    rw [holder?_withWaiting]
    exact h.holds n other
  single := h.single
  fresh := h.fresh
  held other := by
    rw [isSome_channel?_withWaiting, holder?_withWaiting]
    exact h.held other
  reachable message hopen hmem := by
    rw [isSome_channel?_withWaiting]
    exact h.reachable message hopen hmem
  intact other hlive := by
    rw [holder?_withWaiting] at hlive
    exact (h.intact other hlive).give hheld hwaiting
  taken other := by
    rw [takenFrom_give]
    by_cases heq : queue = other
    · subst heq
      have hintact := h.intact queue (.inr (by rw [hheld, Option.isSome_some]))
      rw [Intact, hwaiting, List.append_cons] at hintact
      rw [if_pos rfl]
      exact ⟨rest, hintact⟩
    · rw [if_neg heq, List.append_nil]
      exact h.taken other

theorem Intact.unsubscribe (h : e.Intact queue) (hdistinct : e.bus.Distinct)
    (hkeeps : ¬ (e.bus.closed = true ∧ e.bus.holder? queue = some n)) :
    (e.unsubscribe n).Intact queue := by
  show e.takenFrom queue ++ (e.bus.unsubscribe n).waiting queue = e.acceptedBy queue
  rw [hdistinct.waiting_unsubscribe, if_neg hkeeps]
  exact h

theorem Sound.unsubscribe (h : e.Sound) (n : Nat) : (e.unsubscribe n).Sound where
  distinct := h.distinct.unsubscribe n
  bounded queue := by
    show ((e.bus.unsubscribe n).waiting queue).length ≤ (e.bus.unsubscribe n).capacity
    rw [h.distinct.waiting_unsubscribe, capacity_unsubscribe]
    split_ifs
    · exact Nat.zero_le _
    · exact h.bounded queue
  holds m queue := by
    show (m, queue) ∈ e.subscriptions.filter _ ↔ (e.bus.unsubscribe n).holder? queue = some m
    rw [List.mem_filter, h.holds, h.distinct.holder?_unsubscribe]
    split_ifs with hn
    · simpa [hn] using Eq.symm
    · simp only [decide_not, Bool.not_eq_true', decide_eq_false_iff_not, and_iff_left_iff_imp]
      rintro hheld rfl
      exact hn hheld
  single m queue other hqueue hother :=
    h.single m queue other (List.mem_of_mem_filter hqueue) (List.mem_of_mem_filter hother)
  fresh m queue hmem :=
    (h.fresh m queue (List.mem_of_mem_filter hmem)).trans_eq nextSubscription_unsubscribe.symm
  held queue := by
    show (e.bus.unsubscribe n).closed = true → ((e.bus.unsubscribe n).channel? queue).isSome →
      ((e.bus.unsubscribe n).holder? queue).isSome
    rw [closed_unsubscribe, h.distinct.isSome_channel?_unsubscribe,
      h.distinct.holder?_unsubscribe]
    intro hclosed hqueue
    have hheld := h.held queue hclosed
    split_ifs with hn
    · simp [hclosed, hn] at hqueue
    · simp only [Bool.and_eq_true] at hqueue
      exact hheld hqueue.1
  reachable message := by
    show (e.bus.unsubscribe n).closed = false → message ∈ e.sending →
      ((e.bus.unsubscribe n).channel? message.queue).isSome
    rw [closed_unsubscribe, h.distinct.isSome_channel?_unsubscribe]
    intro hopen hmem
    simp [h.reachable message hopen hmem, hopen]
  intact queue := by
    show (e.bus.unsubscribe n).closed = false ∨ ((e.bus.unsubscribe n).holder? queue).isSome → _
    rw [closed_unsubscribe, h.distinct.holder?_unsubscribe]
    intro hlive
    by_cases hn : e.bus.holder? queue = some n
    · have hopen : e.bus.closed = false := by simpa [hn] using hlive
      exact (h.intact queue (.inl hopen)).unsubscribe h.distinct (by simp [hopen])
    · rw [if_neg hn] at hlive
      exact (h.intact queue hlive).unsubscribe h.distinct fun hand => hn hand.2
  taken := h.taken

theorem Intact.close (h : e.Intact queue) (hdistinct : e.bus.Distinct)
    (hkeeps : e.bus.holder? queue ≠ none ∨ e.bus.waiting queue = []) :
    e.close.Intact queue := by
  show e.takenFrom queue ++ e.bus.close.waiting queue = e.acceptedBy queue
  rw [hdistinct.waiting_close]
  split_ifs with hfree
  · rw [← hkeeps.resolve_left (not_not_intro hfree)]
    exact h
  · exact h

theorem Sound.close (h : e.Sound) : e.close.Sound where
  distinct := h.distinct.close
  bounded queue := by
    show (e.bus.close.waiting queue).length ≤ e.bus.capacity
    rw [h.distinct.waiting_close]
    split_ifs
    · exact Nat.zero_le _
    · exact h.bounded queue
  holds m queue := by
    show (m, queue) ∈ e.subscriptions ↔ e.bus.close.holder? queue = some m
    rw [h.distinct.holder?_close]
    exact h.holds m queue
  single := h.single
  fresh := h.fresh
  held queue _ := by
    show (e.bus.close.channel? queue).isSome → (e.bus.close.holder? queue).isSome
    rw [h.distinct.isSome_channel?_close, h.distinct.holder?_close]
    exact id
  reachable message hopen := nomatch hopen
  intact queue hlive := by
    obtain hopen | hlive := hlive
    · cases hopen
    · have hlive : (e.bus.close.holder? queue).isSome := hlive
      rw [h.distinct.holder?_close] at hlive
      exact (h.intact queue (.inr hlive)).close h.distinct (.inl (Option.isSome_iff_ne_none.1 hlive))
  taken := h.taken

theorem Effect.sound {move : Move} {e' : Exchange} (heffect : e.Effect move e') (h : e.Sound) :
    e'.Sound := by
  cases heffect with
  | idle => exact h
  | find message hopen => exact h.find hopen message
  | refuse i => exact h.refuse i
  | accept i message hqueue hroom => exact h.accept i hqueue hroom
  | subscribe queue hopen hfree => exact h.subscribe hopen hfree
  | give n queue message rest hheld hwaiting => exact h.give hheld hwaiting
  | unsubscribe n => exact h.unsubscribe n
  | close => exact h.close

/-- One move keeps an exchange sound. -/
theorem Sound.after (h : e.Sound) (move : Move) : (e.after move).Sound :=
  (h.effect_after move).sound h

theorem Sound.afterAll (h : e.Sound) (moves : List Move) : (e.afterAll moves).Sound := by
  induction moves generalizing e with
  | nil => exact h
  | cons move moves ih => exact ih (h.after move)

/-! ## What never changes -/

theorem Effect.capacity {move : Move} {e' : Exchange} (heffect : e.Effect move e') :
    e'.bus.capacity = e.bus.capacity := by
  cases heffect with
  | find => exact capacity_reached
  | subscribe => exact capacity_reached
  | unsubscribe => exact capacity_unsubscribe
  | _ => rfl

theorem Sound.capacity_afterAll (h : e.Sound) (moves : List Move) :
    (e.afterAll moves).bus.capacity = e.bus.capacity := by
  induction moves generalizing e with
  | nil => rfl
  | cons move moves ih => exact (ih (h.after move)).trans (h.effect_after move).capacity

/-- A closed bus stays closed, and it gets no queues. -/
theorem Effect.shut {move : Move} {e' : Exchange} (heffect : e.Effect move e') (h : e.Sound)
    (hclosed : e.bus.closed = true) : e'.bus.closed = true ∧
      ∀ queue, (e'.bus.channel? queue).isSome → (e.bus.channel? queue).isSome := by
  cases heffect with
  | idle => exact ⟨hclosed, fun _ => id⟩
  | find _ hopen =>
    rw [hclosed] at hopen
    cases hopen
  | refuse => exact ⟨hclosed, fun _ => id⟩
  | accept => exact ⟨hclosed, fun _ => isSome_channel?_sent.symm.trans⟩
  | subscribe _ hopen =>
    rw [hclosed] at hopen
    cases hopen
  | give => exact ⟨hclosed, fun _ => isSome_channel?_withWaiting.symm.trans⟩
  | unsubscribe n =>
    refine ⟨closed_unsubscribe.trans hclosed, fun queue hqueue => ?_⟩
    have hsome := h.distinct.isSome_channel?_unsubscribe.symm.trans hqueue
    exact (Bool.and_eq_true_iff.1 hsome).1
  | close =>
    refine ⟨rfl, fun queue hqueue => ?_⟩
    have hheld := h.distinct.isSome_channel?_close.symm.trans hqueue
    obtain ⟨n, hn⟩ := Option.isSome_iff_exists.1 hheld
    exact isSome_channel?_of_holder? hn

theorem Sound.shut_afterAll (h : e.Sound) (hclosed : e.bus.closed = true) (moves : List Move) :
    (e.afterAll moves).bus.closed = true ∧
      ∀ queue, ((e.afterAll moves).bus.channel? queue).isSome → (e.bus.channel? queue).isSome := by
  induction moves generalizing e with
  | nil => exact ⟨hclosed, fun _ => id⟩
  | cons move moves ih =>
    obtain ⟨hafter, hqueues⟩ := (h.effect_after move).shut h hclosed
    obtain ⟨hall, hqueuesAll⟩ := ih (h.after move) hafter
    exact ⟨hall, fun queue hqueue => hqueues queue (hqueuesAll queue hqueue)⟩

/-! ## Losses -/

theorem Sound.waiting_of_free (h : e.Sound) (hclosed : e.bus.closed = true)
    (hfree : e.bus.holder? queue = none) : e.bus.waiting queue = [] := by
  apply waiting_of_none
  rw [← Option.not_isSome_iff_eq_none]
  intro hqueue
  have hheld := h.held queue hclosed hqueue
  rw [hfree] at hheld
  cases hheld

/-- **What is lost**: until a bus is closed nothing, then what waits in queues without subscription,
and after that what a subscription leaves behind when it is given up. -/
theorem Effect.lost {move : Move} {e' : Exchange} (heffect : e.Effect move e') (h : e.Sound)
    (hintact : e.Intact queue) (hlost : ¬ e'.Intact queue) :
    (move = .close ∧ e.bus.closed = false ∧ e.bus.holder? queue = none) ∨
      ∃ n, move = .unsubscribe n ∧ e.bus.closed = true ∧ e.bus.holder? queue = some n := by
  have hclosed : e'.bus.closed ≠ false := fun hopen =>
    hlost ((heffect.sound h).intact queue (.inl hopen))
  cases heffect with
  | idle => exact absurd hintact hlost
  | find _ hopen => exact absurd (closed_reached.trans hopen) hclosed
  | refuse => exact absurd hintact hlost
  | accept i _ hqueue => exact absurd (hintact.accept i hqueue) hlost
  | subscribe _ hopen => exact absurd (closed_reached.trans hopen) hclosed
  | give n _ _ _ hheld hwaiting => exact absurd (hintact.give hheld hwaiting) hlost
  | unsubscribe n =>
    refine .inr ⟨n, rfl, ?_⟩
    by_contra hkeeps
    exact hlost (hintact.unsubscribe h.distinct hkeeps)
  | close =>
    refine .inl ⟨rfl, ?_⟩
    have hfree : e.bus.holder? queue = none := by
      by_contra hheld
      exact hlost (hintact.close h.distinct (.inl hheld))
    refine ⟨?_, hfree⟩
    by_contra hclosed
    have hnil := h.waiting_of_free (eq_true_of_ne_false hclosed) hfree
    exact hlost (hintact.close h.distinct (.inr hnil))

/-! ## The end of a subscription -/

/-- **A subscription to a closed bus finds what is left in its queue**, in order, and then the
end. -/
theorem Sound.receipts_of_closed (h : e.Sound) (hclosed : e.bus.closed = true)
    (hheld : e.bus.holder? queue = some n) (hawaited : e.awaited queue = false) :
    e.receipts n ((e.bus.waiting queue).length + 1) =
      (e.bus.waiting queue).map Receipt.message ++ [.finished] := by
  generalize hwaiting : e.bus.waiting queue = messages
  induction messages generalizing e with
  | nil =>
    rw [List.length_nil, receipts, receipts, h.receive_of_nil hheld hwaiting, hclosed, hawaited]
    rfl
  | cons message rest ih =>
    have hgive := h.receive_of_cons hheld hwaiting
    rw [List.length_cons, receipts, hgive]
    refine congrArg _ (ih (h.give hheld hwaiting) hclosed ?_ hawaited ?_)
    · rw [holder?_withWaiting]
      exact hheld
    · rw [waiting_withWaiting (isSome_channel?_of_holder? hheld), if_pos rfl]

end Exchange

end Pulse
