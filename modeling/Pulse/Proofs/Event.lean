import Pulse.Producer
import Pulse.Proofs.Handler.Delivery
import Pulse.Proofs.Json.Accuracy
import Pulse.Proofs.Time.Written

/-!
# Events that are read as they were written

An event that may travel is read from its payload with the same server, the same time and the same
metrics present, whatever characters the server has and whenever it reports (`decode_eq`).  A metric
comes back as `Json.reread` says: a plain one as it was, any other up to a part in `2 ^ 49`.  So are
the messages of a producer decoded, and so are samples kept (`decode_messages`).
-/

set_option autoImplicit false

namespace Pulse

open Decimal
open Float.Model (UnpackedFloat)
open Json (Node Value ReadAs MemberReadAs Known memberOf)

namespace Event

/-! ## Metrics -/

/-- Whether a double is accepted is decided by its class and sign; zero may have either sign. -/
def acceptsUnpacked : UnpackedFloat → Bool
  | .notANumber | .infinity _ => false
  | .zero _ => true
  | .finite s .. => s == .positive

theorem acceptsMetric_eq (x : Float) : acceptsMetric x = acceptsUnpacked x.toModel.unpack := by
  have hzero : (0.0 : Float).toModel.unpack = .zero .positive := by rfl
  have hlt : decide (x < 0.0) = x.toModel.unpack.lt (.zero .positive) := by
    rw [← hzero, Bool.eq_iff_iff, decide_eq_true_iff]
    exact ⟨of_decide_eq_true, decide_eq_true⟩
  have hfinite : x.isFinite = x.toModel.unpack.isFinite := rfl
  rw [acceptsMetric, hfinite, hlt]
  cases x.toModel.unpack with
  | finite s => cases s <;> rfl
  | _ => rfl

/-- An accepted metric has a text. -/
theorem magnitude_of_accepts {x : Float} (h : acceptsMetric x = true) :
    magnitude x = .zero ∨ ∃ b, magnitude x = .finite b := by
  rw [acceptsMetric_eq] at h
  rw [magnitude_eq]
  cases hx : x.toModel.unpack with
  | notANumber => simp [hx, acceptsUnpacked] at h
  | infinity => simp [hx, acceptsUnpacked] at h
  | zero => exact .inl rfl
  | finite => exact .inr ⟨_, rfl⟩

/-- A metric that is read back is accepted again. -/
theorem acceptsMetric_reread {x : Float} (h : acceptsMetric x = true) :
    acceptsMetric (Json.reread x) = true := by
  rcases magnitude_of_accepts h with hx | ⟨b, hx⟩
  · rwa [Json.reread_of_zero hx]
  · obtain ⟨y, t, ht, hreread, -⟩ := Json.exists_isNearest_reread hx
    have hsign : isNegative x = false := by
      obtain ⟨-, hpos, hunpack⟩ := unpack_of_magnitude hx
      rw [acceptsMetric_eq, hunpack, acceptsUnpacked, signBit] at h
      by_contra hneg
      rw [if_pos (by simpa using hneg)] at h
      exact absurd h (by decide)
    rw [hreread, hsign, if_neg Bool.false_ne_true, acceptsMetric_eq]
    rcases ht.canonical with hy | ⟨m, e, hm, hy⟩
    · rw [hy]
      rfl
    · rw [hy]
      rfl

/-- The event with the metrics that a reader of its payload sees. -/
def reread (e : Event) : Event :=
  { e with
    cpu := e.cpu.map Json.reread
    ram := e.ram.map Json.reread
    disk := e.disk.map Json.reread }

/-! ## The document -/

/-- The tree as which a metric is read. -/
def metricNode (x : Float) : Node :=
  .scalar (.ok (.number (.real x)))

/-- The tree as which the members of an event are read. -/
def nodes (e : Event) : List (String × Node) :=
  [("server_id", .scalar (.ok (.text e.serverId))),
    ("timestamp", .scalar (.ok (.text e.timestamp.text)))]
    ++ e.metrics.filterMap fun m => m.2.map fun x => (m.1, metricNode x)

/-- A string in a notation of its own is decoded as it is parsed. -/
theorem parsed_text {α : Type} (expected : String) {parse : String → Except String α} {s : String}
    {a : α} (h : parse s = .ok a) :
    Json.parsed expected parse (.scalar (.ok (.text s))) = .ok a := by
  simp only [Json.parsed, Json.textAs, bind, Except.bind, h]
  rfl

theorem instant_text (t : Time.Instant) : Json.instant (.scalar (.ok (.text t.text))) = .ok t := by
  refine parsed_text _ ?_
  rw [Time.Instant.parse_text]
  rfl

/-- A member is known by the field that reads it. -/
theorem known_of_decode {α : Type} {name : String} (decode : Json.Decoder α) {node : Node} {a : α}
    (hfind : fields.fields.find? (fun f => f.name == name) =
      some ⟨name, fun node => (decode node).map fun _ => ()⟩)
    (h : decode node = .ok a) : Known fields.fields (name, node) :=
  ⟨_, hfind, congrArg (Except.map fun _ => ()) h⟩

theorem known_nodes (e : Event) : ∀ m ∈ e.nodes, Known fields.fields m := by
  intro m hm
  rcases List.mem_append.1 hm with hm | hm
  · rcases List.mem_pair.1 hm with rfl | rfl
    · exact known_of_decode Json.text rfl rfl
    · exact known_of_decode Json.instant rfl (instant_text e.timestamp)
  · obtain ⟨⟨name, x⟩, hname, hx⟩ := List.mem_filterMap.1 hm
    obtain ⟨x, rfl, rfl⟩ := Option.map_eq_some_iff.1 hx
    have hread : Json.optional Json.real (metricNode x) = .ok (some x) := rfl
    simp only [metrics, List.mem_cons, Prod.mk.injEq, List.not_mem_nil, or_false] at hname
    rcases hname with ⟨rfl, -⟩ | ⟨rfl, -⟩ | ⟨rfl, -⟩
    · exact known_of_decode (Json.optional Json.real) rfl hread
    · exact known_of_decode (Json.optional Json.real) rfl hread
    · exact known_of_decode (Json.optional Json.real) rfl hread

theorem nodup_nodes (e : Event) : (e.nodes.map (·.1)).Nodup := by
  obtain ⟨s, t, cpu, ram, disk⟩ := e
  cases cpu <;> cases ram <;> cases disk <;> simp [nodes, metrics]

theorem lookup_metric (e : Event) :
    Json.lookup e.nodes "cpu" = e.cpu.map metricNode ∧
      Json.lookup e.nodes "ram" = e.ram.map metricNode ∧
      Json.lookup e.nodes "disk" = e.disk.map metricNode := by
  obtain ⟨s, t, cpu, ram, disk⟩ := e
  cases cpu <;> cases ram <;> cases disk <;> exact ⟨rfl, rfl, rfl⟩

/-- An optional metric is built from its node, or from none. -/
theorem build_optional (name : String) (x : Option Float) (missing : String → Json.Fault)
    {lookup : String → Option Node} (h : lookup name = x.map metricNode) :
    (Json.Record.optionalField name Json.real).build missing lookup = .ok x := by
  simp only [Json.Record.optionalField, Json.Record.fieldOr, h]
  cases x <;> rfl

section

variable {α β : Type} {missing : String → Json.Fault} {lookup : String → Option Node}

theorem build_map {g : α → β} {x : Json.Record α} {a : α} (hx : x.build missing lookup = .ok a) :
    (g <$> x).build missing lookup = .ok (g a) := by
  show (do return g (← x.build missing lookup) : Except Json.Fault β) = _
  rw [hx]
  rfl

theorem build_seq {f : Json.Record (α → β)} {x : Json.Record α} {g : α → β} {a : α}
    (hf : f.build missing lookup = .ok g) (hx : x.build missing lookup = .ok a) :
    (f <*> x).build missing lookup = .ok (g a) := by
  show (do return (← f.build missing lookup) (← x.build missing lookup) : Except Json.Fault β) = _
  rw [hf, hx]
  rfl

end

/-- The event is built from the tree of its members. -/
theorem build_nodes (e : Event) (missing : String → Json.Fault) :
    fields.build missing (Json.lookup e.nodes) = .ok e := by
  obtain ⟨hcpu, hram, hdisk⟩ := e.lookup_metric
  have hid : (Json.Record.field "server_id" Json.text).build missing (Json.lookup e.nodes) =
      .ok e.serverId := rfl
  have htime : (Json.Record.field "timestamp" Json.instant).build missing (Json.lookup e.nodes) =
      .ok e.timestamp := instant_text e.timestamp
  exact build_seq (build_seq (build_seq (build_seq (build_map hid) htime)
    (build_optional "cpu" e.cpu missing hcpu)) (build_optional "ram" e.ram missing hram))
    (build_optional "disk" e.disk missing hdisk)

/-- The tree of an event is decoded as the event. -/
theorem decoder_nodes (e : Event) :
    decoder (.object 0 (e.nodes.map memberOf) .closed) = .ok e := by
  rw [decoder, Json.Record.decoder, Json.decoderAs_members e.known_nodes e.nodup_nodes]
  exact e.build_nodes _

/-- An accepted metric is read back. -/
theorem readAs_metric {x : Float} (h : acceptsMetric x = true) :
    ReadAs (.float x) (metricNode (Json.reread x)) :=
  Json.readAs_float (magnitude_of_accepts h)

theorem readAs_metrics {ms : List (String × Option Float)}
    (h : ∀ m ∈ ms, ∀ x ∈ m.2, acceptsMetric x = true) :
    List.Forall₂ MemberReadAs (ms.filterMap fun m => m.2.map fun x => (m.1, Value.float x))
      ((ms.map fun m => (m.1, m.2.map Json.reread)).filterMap fun m =>
        m.2.map fun x => (m.1, metricNode x)) := by
  induction ms with
  | nil => exact .nil
  | cons m ms ih =>
    have ih := ih fun m hm => h m (List.mem_cons_of_mem _ hm)
    obtain ⟨name, x⟩ := m
    cases x with
    | none => exact ih
    | some x => exact .cons ⟨rfl, readAs_metric (h _ List.mem_cons_self x rfl)⟩ ih

/-- The members of an event are read as the tree of the event with its metrics read back. -/
theorem readAs_members {e : Event} (h : ∀ m ∈ e.metrics, ∀ x ∈ m.2, acceptsMetric x = true) :
    List.Forall₂ MemberReadAs
      (("server_id", .text e.serverId) :: ("timestamp", .text e.timestamp.text) ::
        e.metrics.filterMap fun m => m.2.map fun x => (m.1, Value.float x))
      e.reread.nodes :=
  .cons ⟨rfl, Json.readAs_text e.serverId⟩
    (.cons ⟨rfl, Json.readAs_text e.timestamp.text⟩ (readAs_metrics h))

/-- **An accepted event is read back** with its metrics read back. -/
theorem decode_eq {e : Event} (h : ∀ m ∈ e.metrics, ∀ x ∈ m.2, acceptsMetric x = true) :
    decode e.encode = .ok e.reread := by
  have hread := Json.readDocument_written (readAs_members h) (List.cons_ne_nil _ _)
  have hencode : e.encode = Json.bytesOf e.toJson.write := Json.encode_ofList _
  rw [decode, hencode]
  exact Json.decodeAll_eq hread e.reread.decoder_nodes

/-! ## What survives -/

theorem refusedMetric?_eq_none_iff {ms : List (String × Option Float)} :
    refusedMetric? ms = none ↔ ∀ m ∈ ms, ∀ x ∈ m.2, acceptsMetric x = true := by
  induction ms with
  | nil => simp [refusedMetric?]
  | cons m ms ih =>
    obtain ⟨name, x⟩ := m
    cases x with
    | none => simpa [refusedMetric?] using ih
    | some x =>
      rw [refusedMetric?]
      split_ifs with hx
      · simpa [hx] using ih
      · simp [hx]

/-- An event is accepted if its server has a name and its metrics are accepted. -/
theorem refusal?_eq_none_iff {e : Event} :
    e.refusal? = none ↔ Text.isBlankText e.serverId = false ∧
      ∀ m ∈ e.metrics, ∀ x ∈ m.2, acceptsMetric x = true := by
  rw [refusal?, ← refusedMetric?_eq_none_iff]
  split_ifs with hblank
  · simp [hblank]
  · simp [hblank]

theorem metrics_reread (e : Event) :
    e.reread.metrics = e.metrics.map fun m => (m.1, m.2.map Json.reread) :=
  rfl

/-- What a reader sees of an event is the event exactly if its metrics survive. -/
theorem reread_eq_iff {e : Event} :
    e.reread = e ↔ ∀ m ∈ e.metrics, ∀ x ∈ m.2, Json.reread x = x := by
  constructor
  · intro heq
    have hmap {x : Option Float} (hx : x.map Json.reread = x) : ∀ y ∈ x, Json.reread y = y := by
      rintro y rfl
      exact Option.some_inj.1 hx
    have hall : ∀ m ∈ e.metrics, m.2.map Json.reread = m.2 := by
      simp only [metrics, List.mem_cons, List.not_mem_nil, or_false, forall_eq_or_imp, forall_eq]
      exact ⟨congrArg Event.cpu heq, congrArg Event.ram heq, congrArg Event.disk heq⟩
    exact fun m hm => hmap (hall m hm)
  · intro h
    obtain ⟨s, t, cpu, ram, disk⟩ := e
    have hmap (name : String) (x : Option Float)
        (hx : (name, x) ∈ metrics ⟨s, t, cpu, ram, disk⟩) : x.map Json.reread = x := by
      cases x with
      | none => rfl
      | some x => exact congrArg some (h _ hx x rfl)
    rw [reread, hmap "cpu" cpu (by simp [metrics]), hmap "ram" ram (by simp [metrics]),
      hmap "disk" disk (by simp [metrics])]

/-- What comes back of an accepted event is accepted. -/
theorem refusal?_reread {e : Event} (h : e.refusal? = none) : e.reread.refusal? = none := by
  obtain ⟨hid, hmetrics⟩ := refusal?_eq_none_iff.1 h
  refine refusal?_eq_none_iff.2 ⟨hid, fun m hm x hx => ?_⟩
  obtain ⟨m, hmem, rfl⟩ := List.mem_map.1 (metrics_reread e ▸ hm)
  obtain ⟨y, hy, rfl⟩ := Option.mem_map.1 hx
  exact acceptsMetric_reread (hmetrics m hmem y hy)

/-! ## On the bus -/

theorem payload_of_mem {producer : Producer} {e : Event} {message : Message}
    (h : message ∈ producer.messages e) : message.payload = e.encode := by
  simp only [Producer.messages] at h
  split_ifs at h
  · simp only [List.mem_cons, List.not_mem_nil, or_false] at h
    obtain h | h := h
    · rw [h]
    · rw [h]
  · rw [List.mem_singleton.1 h]

/-- What the handler of metrics does with what it reads of an event. -/
theorem handle_reread {e : Event} (h : e.refusal? = none) (hmetrics : e.hasMetrics = true)
    {store : MemoryStore} (hget : (store.get? e.serverId).isSome) (receivedAt : Time.Instant) :
    store.handle .metrics receivedAt e.reread =
      (.ok (), (store.after ⟨.heartbeat e.serverId e.timestamp receivedAt⟩).insertSample
        e.reread.sample) := by
  have hrefusal := refusal?_reread h
  have hreread : e.reread.hasMetrics = true := by
    obtain ⟨s, t, cpu, ram, disk⟩ := e
    cases cpu <;> cases ram <;> cases disk <;> exact hmetrics
  have hok : (store.handle .metrics receivedAt e.reread).1 = .ok () :=
    MemoryStore.handle_ok_iff.2 ⟨hrefusal, hget⟩
  rw [MemoryStore.handle_of_ok hok, Handler.calls, Handler.sample?, if_pos ⟨hrefusal, hreread⟩]
  rfl

/-- **An event is read as it was published**, up to the last digits of its metrics: each message
about it is decoded, and the sample that is kept of it has the metrics that were decoded.  Plain
metrics come back as they were, and others are off by little. -/
theorem decode_messages (producer : Producer) (e : Event) (h : e.refusal? = none) :
    (∀ message ∈ producer.messages e, message.decode = .ok e.reread ∧
      (message.decode = .ok e ↔ ∀ m ∈ e.metrics, ∀ x ∈ m.2, Json.reread x = x)) ∧
    (∀ m ∈ e.metrics, ∀ x ∈ m.2, (Json.IsPlain x → Json.reread x = x) ∧
      |value (Json.reread x) - value x| ≤ value x / 2 ^ 49 + 2 ^ (-1073 : Int)) ∧
    (e.hasMetrics = true → ∀ (store : MemoryStore) (receivedAt : Time.Instant),
      (store.get? e.serverId).isSome → store.handle .metrics receivedAt e.reread =
        (.ok (), (store.after ⟨.heartbeat e.serverId e.timestamp receivedAt⟩).insertSample
          ⟨e.serverId, e.timestamp, e.cpu.map Json.reread, e.ram.map Json.reread,
            e.disk.map Json.reread⟩)) := by
  refine ⟨fun message hmessage => ?_, fun m _ x _ => ?_, fun hmetrics store receivedAt hget => ?_⟩
  · have hdecode : message.decode = .ok e.reread := by
      rw [Message.decode, payload_of_mem hmessage, decode_eq (refusal?_eq_none_iff.1 h).2]
    exact ⟨hdecode, by rw [hdecode, Except.ok.injEq, reread_eq_iff]⟩
  · exact ⟨Json.reread_eq, Json.abs_value_reread_sub_le x⟩
  · exact handle_reread h hmetrics hget receivedAt

/-- The queues of the program's defaults. -/
private def defaultProducer : Producer :=
  ⟨"server.status", "server.metrics"⟩

/-- A reading at a leap second of a year with five digits, by a server with a name that has to be
escaped. -/
private def leapReading : Event :=
  ⟨"a\"\n😀", (Time.Instant.ofParts? 3000000 86399 1500000000).get rfl, some 12.5, none,
    some 4000000000000010.0⟩

/-- The reading with the disk that is read back. -/
private def leapReread : Event :=
  { leapReading with disk := some 4000000000000009.5 }

/-- The server of the reading is registered. -/
private def leapStore : MemoryStore :=
  MemoryStore.empty.register ⟨leapReading.serverId, "10.0.0.1", 30⟩

/-- The reading at a leap second is read with the server and the time as they were, and its sample
is kept with half a unit less on the disk. -/
theorem decode_messages_leapReading :
    leapReading.refusal? = none ∧
    (∀ message ∈ defaultProducer.messages leapReading, message.decode = .ok leapReread) ∧
    (leapStore.handle .metrics leapReading.timestamp leapReread).2.samplesOf leapReading.serverId =
      [leapReread.sample] := by
  have h : leapReading.refusal? = none := by decide +kernel
  have hreread : leapReading.reread = leapReread := by
    rw [reread, leapReread, leapReading]
    simp only [Option.map_some, Option.map_none, Event.mk.injEq, true_and, Option.some.injEq]
    exact ⟨by decide +kernel, by decide +kernel⟩
  obtain ⟨hdecode, -, hkept⟩ := decode_messages defaultProducer leapReading h
  have hhandle := hkept (by decide +kernel) leapStore leapReading.timestamp (by decide +kernel)
  rw [hreread] at hdecode hhandle
  refine ⟨h, fun message hmessage => (hdecode message hmessage).1, ?_⟩
  rw [hhandle]
  calc _ = [leapReading.reread.sample] := rfl
    _ = [leapReread.sample] := by rw [hreread]

/-- A reading of a disk with many digits. -/
private def longReading : Event :=
  ⟨"a", .ofMillis 1741953600000, none, none, some 4000000000000010.0⟩

/-- **Not every event is read as it was published**: a disk of `4000000000000010.0`, which the
producer accepts, is read as `4000000000000009.5`, since the ten is divided off after rounding. -/
theorem not_decode_longReading :
    longReading.refusal? = none ∧
      ∀ message ∈ defaultProducer.messages longReading,
        message.decode = .ok { longReading with disk := some 4000000000000009.5 } ∧
          message.decode ≠ .ok longReading := by
  have hmetrics : ∀ m ∈ longReading.metrics, ∀ x ∈ m.2, acceptsMetric x = true :=
    refusedMetric?_eq_none_iff.1 (by decide +kernel)
  have hreread : longReading.reread = { longReading with disk := some 4000000000000009.5 } := by
    rw [reread, longReading]
    simp only [Option.map_some, Option.map_none, Event.mk.injEq, true_and, Option.some.injEq]
    decide +kernel
  have hne : (4000000000000009.5 : Float) ≠ 4000000000000010.0 := by decide +kernel
  refine ⟨refusal?_eq_none_iff.2 ⟨by decide +kernel, hmetrics⟩, fun message hmessage => ?_⟩
  rw [Message.decode, payload_of_mem hmessage, decode_eq hmetrics, hreread]
  refine ⟨rfl, fun heq => hne ?_⟩
  exact Option.some_inj.1 (congrArg Event.disk (Except.ok.inj heq))

end Event

end Pulse
