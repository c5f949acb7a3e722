import Pulse.Proofs.Report
import Pulse.Proofs.Scheduler.Shifts
import Pulse.Proofs.System.Robust
import Pulse.System.Program

/-!
# What the program does without a crash

The steps of `System.Robust` are put together to all that the processes do between start and end:
passes and the loop of the monitor, messages and those who handle them, and the jobs of tasks.  Each
lemma says that an action endures where the assumption `J` holds and that `J` holds at its end,
whatever its result is.

The program is kept away from the end of the calendar in different ways.  A window begins within the
calendar if the server was seen before it (`ServerRecord.exists_verdict`); a report is on a day that
is followed by another one; what is too old is older than a bearable number of days.  The clock of a
loop can show the tick after next since ticks are not too far apart.
-/

set_option autoImplicit false

namespace Pulse

open Activity (Endures)
open Time (Date Instant)

/-! ## Parts that stay the same -/

namespace Monitor

variable (monitor : Monitor)

@[simp]
theorem settings_enter : monitor.enter.2.settings = monitor.settings := by
  rw [enter]
  split_ifs <;> rfl

@[simp]
theorem settings_submit (n ticket : Nat) :
    (monitor.submit n ticket).2.settings = monitor.settings := by
  rw [submit]
  split_ifs <;> rfl

variable {monitor} {monitor' : Monitor} {n : Nat}

theorem settings_startLoop {linked : Bool} (h : monitor.startLoop linked = .ok (n, monitor')) :
    monitor'.settings = monitor.settings := by
  rw [startLoop] at h
  split_ifs at h
  cases h
  rfl

theorem settings_stopLoop (h : monitor.stopLoop = .ok (n, monitor')) :
    monitor'.settings = monitor.settings := by
  rw [stopLoop] at h
  split at h
  · cases h
  · cases h
    rfl

end Monitor

theorem Bus.capacity_publishAll (bus : Bus) (messages : List Message) :
    (Producer.publishAll bus messages).2.capacity = bus.capacity := by
  induction messages generalizing bus with
  | nil => rfl
  | cons message rest ih =>
    rw [Producer.publishAll]
    cases h : bus.publish message with
    | error e => rfl
    | ok bus' => exact (ih bus').trans (Bus.capacity_of_publish h)

/-- The part of a day that has passed, unless the day is the last of the calendar. -/
theorem DailyReport.window?_cases {day : Date} {midnight : Instant} (now : Instant)
    (hmidnight : (Instant.ofDate day).add? (Time.Span.ofDays 1) = some midnight) :
    window? day now = .ok none ∨
      ∃ start stop, start ≤ stop ∧ window? day now = .ok (some (start, stop)) := by
  have hwindow : window? day now = .ok (if min midnight now ≤ Instant.ofDate day then none
      else some (Instant.ofDate day, min midnight now)) := by
    rw [window?, Instant.add, hmidnight]
    rfl
  rw [hwindow]
  split_ifs with hle
  · exact .inl rfl
  · exact .inr ⟨_, _, le_of_lt (not_le.1 hle), rfl⟩

/-- The clock can show the tick after next. -/
theorem nextTick?_ne_none {t period : Nat} (ht : t ≤ 253402300802000) (hpositive : period ≠ 0)
    (hperiod : period ≤ maxTick) (due : Nat) : nextTick? due t (Action.millisOf period) ≠ none := by
  have hmillis : Action.millisOf period = 1000 * period := Nat.mul_comm ..
  have hmissed : (t - due) % (1000 * period) < 1000 * period := Nat.mod_lt _ (by omega)
  rw [maxTick] at hperiod
  rw [nextTick?, hmillis]
  split_ifs with hlate hfits
  · simp
  · simp only [lastMoment, longestMiss] at hfits
    omega
  · simp

namespace System.Robust

open Pulse.Action

variable {origin : Instant} {J : Nat → System → List Process → Prop}
  (hJ : System.Robust origin J) {t : Nat} {s : System} {ps : List Process}
include hJ

/-! ## Passes -/

theorem endures_endDemotion (now : Instant) (t' : Nat) (u : Underway)
    {Q : RecordOutcome → Nat → System → List Process → Prop} (hs : J t s ps)
    (h : ∀ outcome t s ps, J t s ps → Q outcome t s ps) :
    Endures J Q (endDemotion now t' u) t s ps := by
  show Endures _ _ (if _ then _ else _) t s ps
  split
  · exact Endures.bind (hJ.endures_answer hs fun a t s ps hs => h _ t s ps hs)
  · exact h _ t s ps hs

theorem endures_checkRecords {settings : MonitoringSettings} (hsettings : settings.Bearable)
    (now : Instant) (steps : Nat) (todo : List ServerRecord) (underway : List Underway)
    (report : PassReport) (hs : J t s ps) {Q : PassReport → Nat → System → List Process → Prop}
    (h : ∀ report t s ps, J t s ps → Q report t s ps) :
    Endures J Q (checkRecords settings now steps todo underway report) t s ps := by
  induction steps generalizing todo underway report t s ps with
  | zero => exact h report t s ps hs
  | succ steps ih =>
    unfold checkRecords
    refine Endures.bind (Endures.clock ?_)
    split
    · next u others _ =>
      refine Endures.bind (Endures.clock (Endures.bind ?_))
      exact hJ.endures_endDemotion now t u hs fun outcome t s ps hs => ih todo others _ hs
    · split
      · next record rest =>
        split
        · have hverdict := record.exists_verdict hsettings.grace now
          refine Endures.bind (endures_checked hverdict fun verdict _ => ?_)
          cases verdict with
          | undefined | unchanged => exact ih rest underway _ hs
          | silent seenBefore =>
            exact Endures.bind (Endures.clock (Endures.bind (Endures.get (ih rest _ report hs))))
        · exact Endures.bind (Endures.waiting hs fun t s ps hs _ => ih _ _ _ hs)
      · split
        · exact h report t s ps hs
        · exact Endures.bind (Endures.waiting hs fun t s ps hs _ => ih _ _ _ hs)

theorem endures_scan {settings : MonitoringSettings} (hsettings : settings.Bearable) (now : Instant)
    {Q : PassReport → Nat → System → List Process → Prop} (hs : J t s ps)
    (h : ∀ report t s ps, J t s ps → Q report t s ps) :
    Endures J Q (scan settings now) t s ps := by
  refine Endures.bind (Endures.clock (Endures.bind (Endures.within ?_ ?_)))
  · exact fun t s ps hs => h _ t s ps hs
  refine hJ.endures_ask hs fun answer t s ps hs => ?_
  cases answer with
  | error e => exact h _ t s ps hs
  | ok records => exact hJ.endures_checkRecords hsettings now _ records [] _ hs h

/-- **A pass does not crash**: all servers are judged, whoever they are and whenever they were
seen. -/
theorem endures_pass {Q : PassOutcome → Nat → System → List Process → Prop} (hs : J t s ps)
    (h : ∀ outcome t s ps, J t s ps → Q outcome t s ps) : Endures J Q pass t s ps := by
  refine Endures.bind (hJ.endures_now hs fun now _ _ => ?_)
  refine Endures.bind (Endures.get (Endures.bind ?_))
  refine hJ.endures_modifyMonitor hs (Monitor.settings_enter _) fun s hs => ?_
  show Endures _ _ (if _ then _ else _) t s ps
  split
  · refine Endures.guarded (fun t s ps hs => hJ.frame hs {}) ?_
    refine Endures.bind (Endures.get (Endures.bind (Endures.clock (Endures.bind ?_))))
    refine hJ.endures_scan (hJ.steady hs).settings now hs fun report t s ps hs => ?_
    refine Endures.bind (Endures.clock (Endures.bind ?_))
    exact hJ.endures_modifyMonitor hs rfl fun s hs => h _ t _ ps (hJ.frame hs {})
  · exact h _ t s ps hs

/-! ### Requests -/

theorem endures_request (ticket : Nat) {Q : Monitor.Reception → Nat → System → List Process → Prop}
    (hs : J t s ps) (h : ∀ reception t s ps, J t s ps → Q reception t s ps) :
    Endures J Q (request ticket) t s ps := by
  refine Endures.bind (Endures.get ?_)
  show Endures _ _ (if _ then _ else _) t s ps
  split
  · exact Endures.bind (hJ.endures_modifyMonitor hs rfl fun s hs => h _ t s ps hs)
  · dsimp only
    cases s.monitor.attached with
    | none => exact h _ t s ps hs
    | some n =>
      exact Endures.bind (hJ.endures_modifyMonitor hs (Monitor.settings_submit ..) fun s hs =>
        h _ t s ps hs)

theorem endures_check {Q : Except MonitorError PassOutcome → Nat → System → List Process → Prop}
    (hs : J t s ps) (h : ∀ outcome t s ps, J t s ps → Q outcome t s ps) :
    Endures J Q check t s ps := by
  refine Endures.bind (Endures.get (Endures.bind ?_))
  refine hJ.endures_modifyMonitor hs rfl fun s hs => Endures.bind ?_
  refine hJ.endures_request _ hs fun reception t s ps hs => ?_
  cases reception with
  | skipped | refused e => exact h _ t s ps hs
  | accepted =>
    show Endures _ _ (awaitAnswer _) t s ps
    refine Endures.bind ⟨hs, fun t s ps hs => ⟨hJ.frame hs {}, fun _ => ?_⟩⟩
    refine Endures.bind (Endures.get (Endures.bind ?_))
    exact hJ.endures_modifyMonitor hs rfl fun s hs => h _ t s ps hs

/-! ### The loop -/

theorem endures_startMonitor (linked : Bool)
    {Q : Except MonitorError Unit → Nat → System → List Process → Prop} (hs : J t s ps)
    (h : ∀ outcome t s ps, J t s ps → Q outcome t s ps) :
    Endures J Q (startMonitor linked) t s ps := by
  refine Endures.bind (Endures.get ?_)
  cases hstart : s.monitor.startLoop linked with
  | error e => exact h _ t s ps hs
  | ok result =>
    obtain ⟨n, monitor⟩ := result
    have hsettings := Monitor.settings_startLoop hstart
    refine Endures.bind (hJ.endures_modifyMonitor hs hsettings fun s hs => ?_)
    exact Endures.bind (Endures.launch (h _ t s _ (hJ.join _ hs)))

theorem endures_stopMonitor
    {Q : Except MonitorError Unit → Nat → System → List Process → Prop} (hs : J t s ps)
    (h : ∀ outcome t s ps, J t s ps → Q outcome t s ps) : Endures J Q stopMonitor t s ps := by
  refine Endures.bind (Endures.bind (Endures.get ?_))
  cases hstop : s.monitor.stopLoop with
  | error e => exact h _ t s ps hs
  | ok result =>
    obtain ⟨n, monitor⟩ := result
    have hsettings := Monitor.settings_stopLoop hstop
    refine Endures.bind (hJ.endures_modifyMonitor hs hsettings fun s hs => ?_)
    exact Endures.bind (Endures.waiting hs fun t s ps hs _ => h _ t s ps hs)

/-- A loop can begin, since there is time between its ticks. -/
theorem endures_beginMonitor (n : Nat)
    {Q : Option Process → Nat → System → List Process → Prop} (hs : J t s ps)
    (h : ∀ next, Q next t s ps) : Endures J Q (beginMonitor n) t s ps := by
  refine Endures.bind (Endures.get ?_)
  have htick := (hJ.steady hs).settings.tick
  cases hperiod : s.monitor.settings.tickInterval with
  | none => exact h _
  | some period =>
    cases period with
    | zero => exact absurd rfl (htick 0 hperiod).1
    | succ period => exact Endures.bind (Endures.clock (h _))

omit hJ in
theorem turn_ne_fails (hs : s.Steady origin t) (horigin : origin.IsReading) (n : Nat)
    (due : Option Nat) : turn n due t s ≠ .fails := by
  have hperiod : s.monitor.settings.tickInterval.getD 1 ≠ 0 ∧
      s.monitor.settings.tickInterval.getD 1 ≤ maxTick := by
    cases hperiod : s.monitor.settings.tickInterval with
    | none => decide
    | some period => exact hs.settings.tick period hperiod
  unfold turn
  split_ifs
  · simp
  · cases s.monitor.request? n with
    | some ticket => simp
    | none =>
      cases due with
      | none => simp
      | some due =>
        obtain ⟨next, hnext⟩ := Option.ne_none_iff_exists'.1
          (nextTick?_ne_none (hs.time_le horigin) hperiod.1 hperiod.2 due)
        simp [hnext]

/-- A loop goes on, since the clock can show the tick after next. -/
theorem endures_monitorLoop (horigin : origin.IsReading) (n : Nat) (due : Option Nat)
    {Q : Option Process → Nat → System → List Process → Prop} (hs : J t s ps)
    (h : ∀ next t s ps, J t s ps → Q next t s ps) : Endures J Q (monitorLoop n due) t s ps := by
  refine Endures.bind (Endures.waiting hs fun t s ps hs _ => ?_)
  refine Endures.bind (Endures.clock (Endures.bind (Endures.get ?_)))
  cases hturn : turn n due t s with
  | ends => exact h _ t s ps hs
  | fails => exact absurd hturn (turn_ne_fails (hJ.steady hs) horigin n due)
  | meets ticket =>
    refine Endures.bind (Endures.bind (hJ.endures_modifyMonitor hs rfl fun s hs => ?_))
    refine Endures.bind (hJ.endures_pass hs fun outcome t s ps hs => ?_)
    exact hJ.endures_modifyMonitor hs rfl fun s hs => h _ t s ps hs
  | ticks next => exact Endures.bind (hJ.endures_pass hs fun outcome t s ps hs => h _ t s ps hs)
  | waits => exact h _ t s ps hs

/-! ## Messages -/

theorem endures_publish (producer : Producer) (event : Event)
    {Q : Except BusError Unit → Nat → System → List Process → Prop} (hs : J t s ps)
    (h : ∀ result t s ps, J t s ps → Q result t s ps) :
    Endures J Q (publish producer event) t s ps := by
  rw [publish]
  cases hrefusal : event.refusal? with
  | some reason => exact h _ t s ps hs
  | none =>
    refine hJ.endures_useQueues hs ?_ fun result s hs => h result t s ps hs
    rw [Producer.publish, hrefusal]
    exact Bus.capacity_publishAll ..

theorem endures_publishMessage (message : Message)
    {Q : Except BusError Unit → Nat → System → List Process → Prop} (hs : J t s ps)
    (h : ∀ result t s ps, J t s ps → Q result t s ps) :
    Endures J Q (publishMessage message) t s ps := by
  refine hJ.endures_useQueues hs ?_ fun result s hs => h result t s ps hs
  cases hpublish : s.bus.publish message with
  | error e => rfl
  | ok bus => exact Bus.capacity_of_publish hpublish

theorem endures_applyHeartbeat (event : Event)
    {Q : Except HandlerError Unit → Nat → System → List Process → Prop} (hs : J t s ps)
    (h : ∀ result t s ps, J t s ps → Q result t s ps) :
    Endures J Q (applyHeartbeat ask now event) t s ps := by
  refine Endures.bind (hJ.endures_now hs fun receivedAt _ _ => Endures.bind ?_)
  refine hJ.endures_ask hs fun answer t s ps hs => ?_
  cases answer with
  | error e => exact h _ t s ps hs
  | ok outcome => exact h _ t s ps hs

theorem endures_handle (handler : Handler) (event : Event)
    {Q : Except HandlerError Unit → Nat → System → List Process → Prop} (hs : J t s ps)
    (h : ∀ result t s ps, J t s ps → Q result t s ps) :
    Endures J Q (handler.handle ask now event) t s ps := by
  cases handler with
  | status => exact hJ.endures_applyHeartbeat event hs h
  | metrics =>
    rw [Handler.handle, applyMetrics]
    split
    · exact h _ t s ps hs
    · refine Endures.bind (hJ.endures_applyHeartbeat event hs fun result t s ps hs => ?_)
      cases result with
      | error e => exact h _ t s ps hs
      | ok _ =>
        show Endures _ _ (if _ then _ else _) t s ps
        split
        · refine Endures.bind (hJ.endures_ask hs fun answer t s ps hs => ?_)
          cases answer with
          | error e => exact h _ t s ps hs
          | ok _ => exact h _ t s ps hs
        · exact h _ t s ps hs

theorem endures_handleMessage (consumer : Consumer) (message : Message)
    {Q : Handling → Nat → System → List Process → Prop} (hs : J t s ps)
    (h : ∀ handling t s ps, J t s ps → Q handling t s ps) :
    Endures J Q (handleMessage consumer message) t s ps := by
  rw [handleMessage]
  cases consumer.handlers.dispatch? message with
  | none => exact h _ t s ps hs
  | some found =>
    obtain ⟨handler, event⟩ := found
    refine Endures.bind (Endures.clock (Endures.bind (Endures.within ?_ ?_)))
    · exact fun t s ps hs => h _ t s ps hs
    · exact hJ.endures_handle handler event hs fun result t s ps hs => h _ t s ps hs

/-- **Handling messages does not crash.** -/
theorem endures_consume (n : Nat) {Q : Option Process → Nat → System → List Process → Prop}
    (hs : J t s ps) (h : ∀ next t s ps, J t s ps → Q next t s ps) :
    Endures J Q (consume n) t s ps := by
  refine Endures.bind (Endures.waiting hs fun t s ps hs _ => Endures.bind (Endures.get ?_))
  show Endures _ _ (if _ then _ else _) t s ps
  split
  · exact h _ t s ps hs
  · cases hconsumer : s.consumer? n with
    | none => exact h _ t s ps hs
    | some consumer =>
      have hcapacity := s.bus.capacity_receive n
      generalize s.bus.receive n = received at hcapacity ⊢
      obtain ⟨receipt, bus⟩ := received
      cases receipt with
      | nothing | finished => exact h _ t s ps hs
      | message message =>
        refine Endures.bind (hJ.endures_modify hs { capacity := hcapacity } fun s hs => ?_)
        refine Endures.bind (hJ.endures_handleMessage consumer message hs ?_)
        intro handling t s ps hs
        exact Endures.bind (hJ.endures_modify hs {} fun s hs => h _ t s ps hs)

theorem endures_startConsumer (queue : String) (handlers : Handlers) (timeout : Nat)
    {Q : Except BusError Nat → Nat → System → List Process → Prop} (hs : J t s ps)
    (h : ∀ result t s ps, J t s ps → Q result t s ps) :
    Endures J Q (startConsumer queue handlers timeout) t s ps := by
  refine Endures.bind (hJ.endures_useQueues hs ?_ fun result s hs => ?_)
  · cases hsubscribe : s.bus.subscribe queue with
    | error e => rfl
    | ok subscribed => exact Bus.capacity_of_subscribe hsubscribe
  · cases result with
    | error e => exact h _ t s ps hs
    | ok n =>
      refine Endures.bind (hJ.endures_modify hs {} fun s hs => ?_)
      exact Endures.bind (Endures.launch (h _ t s _ (hJ.join _ hs)))

theorem endures_stopConsumer (n : Nat) {Q : ConsumerStats → Nat → System → List Process → Prop}
    (hs : J t s ps) (h : ∀ stats t s ps, J t s ps → Q stats t s ps) :
    Endures J Q (stopConsumer n) t s ps := by
  refine Endures.bind (hJ.endures_modify hs {} fun s hs => ?_)
  refine Endures.bind (Endures.waiting hs fun t s ps hs _ => ?_)
  exact Endures.bind (Endures.get (h _ t s ps hs))

/-! ## Jobs -/

theorem endures_rows {start stop : Instant} (hle : start ≤ stop) (changes : List Transition)
    (records : List ServerRecord)
    {Q : Except StorageError (Time.Checked (List ServerUptime)) → Nat → System → List Process →
      Prop}
    (hs : J t s ps) (herror : ∀ e t s ps, J t s ps → Q (.error e) t s ps)
    (h : ∀ rows t s ps, J t s ps → Q (.ok (.ok rows)) t s ps) :
    Endures J Q (DailyReport.rows ask start stop changes records) t s ps := by
  induction records generalizing t s ps Q with
  | nil => exact h _ t s ps hs
  | cons record rest ih =>
    refine Endures.bind (hJ.endures_ask hs fun before t s ps hs => ?_)
    cases before with
    | error e => exact herror e t s ps hs
    | ok before =>
      obtain ⟨row, hrow, -⟩ := DailyReport.exists_row hle changes record before
      dsimp only
      rw [hrow]
      refine Endures.bind (ih hs (fun e t s ps hs => ?_) fun rows t s ps hs => ?_)
      · exact herror e t s ps hs
      · exact h _ t s ps hs

theorem endures_build {day : Date} {now midnight : Instant}
    (hmidnight : (Instant.ofDate day).add? (Time.Span.ofDays 1) = some midnight)
    {Q : Time.Checked (Except ReportError DailyReport) → Nat → System → List Process → Prop}
    (hs : J t s ps) (h : ∀ result t s ps, J t s ps → Q (.ok result) t s ps) :
    Endures J Q (DailyReport.build ask day now) t s ps := by
  rcases DailyReport.window?_cases now hmidnight with hwindow | ⟨start, stop, hle, hwindow⟩
  · rw [DailyReport.build, hwindow]
    exact h _ t s ps hs
  · rw [DailyReport.build, hwindow]
    refine Endures.bind (hJ.endures_ask hs fun changes t s ps hs => ?_)
    cases changes with
    | error e => exact h _ t s ps hs
    | ok changes =>
      refine Endures.bind (hJ.endures_ask hs fun records t s ps hs => ?_)
      cases records with
      | error e => exact h _ t s ps hs
      | ok records =>
        refine Endures.bind (hJ.endures_rows hle changes _ hs (fun e t s ps hs => ?_)
          fun rows t s ps hs => ?_)
        · exact h _ t s ps hs
        · exact h _ t s ps hs

theorem endures_sendReport {day : Date} {midnight : Instant}
    (hmidnight : (Instant.ofDate day).add? (Time.Span.ofDays 1) = some midnight)
    {Q : Except ReportError DailyReport → Nat → System → List Process → Prop} (hs : J t s ps)
    (h : ∀ result t s ps, J t s ps → Q result t s ps) : Endures J Q (sendReport day) t s ps := by
  refine Endures.bind (Endures.bind (hJ.endures_now hs fun now _ _ => Endures.bind ?_))
  refine hJ.endures_build hmidnight hs fun result t s ps hs => ?_
  cases result with
  | error e => exact h _ t s ps hs
  | ok report =>
    refine Endures.bind (Endures.get ?_)
    cases s.refusal with
    | some code => exact h _ t s ps hs
    | none => exact Endures.bind (hJ.endures_modify hs {} fun s hs => h _ t s ps hs)

/-- **Reporting on the day before does not crash**: that day is followed by another one. -/
theorem endures_reportYesterday {Q : Except String Unit → Nat → System → List Process → Prop}
    (hs : J t s ps) (h : ∀ result t s ps, J t s ps → Q result t s ps) :
    Endures J Q reportYesterday t s ps := by
  refine Endures.bind (hJ.endures_now hs fun now _ _ => ?_)
  cases hday : now.date.pred? with
  | none => exact h _ t s ps hs
  | some yesterday =>
    obtain ⟨midnight, hmidnight⟩ := Instant.exists_add?_ofDate_pred hday
    refine Endures.bind (hJ.endures_sendReport hmidnight hs fun result t s ps hs => ?_)
    cases result with
    | error e => exact h _ t s ps hs
    | ok report => exact h _ t s ps hs

theorem endures_checkStatus {Q : Except String Unit → Nat → System → List Process → Prop}
    (hs : J t s ps) (h : ∀ result t s ps, J t s ps → Q result t s ps) :
    Endures J Q checkStatus t s ps := by
  refine Endures.bind (hJ.endures_check hs fun outcome t s ps hs => ?_)
  cases outcome with
  | ok outcome =>
    cases outcome with
    | skipped => exact h _ t s ps hs
    | completed report =>
      refine Endures.bind (Endures.pure ?_)
      dsimp only
      split <;> exact h _ t s ps hs
  | error e =>
    cases e with
    | notRunning =>
      refine Endures.bind (hJ.endures_pass hs fun outcome t s ps hs => ?_)
      cases outcome with
      | skipped => exact h _ t s ps hs
      | completed report =>
        refine Endures.bind (Endures.pure ?_)
        dsimp only
        split <;> exact h _ t s ps hs
    | alreadyRunning | stopped => exact h _ t s ps hs

/-- **Deleting what is old does not crash**, unless what is kept is older than the calendar. -/
theorem endures_applyRetention {days : Nat} (hdays : (days : Int) ≤ -Time.firstDay)
    {Q : Except String Unit → Nat → System → List Process → Prop} (hs : J t s ps)
    (h : ∀ result t s ps, J t s ps → Q result t s ps) :
    Endures J Q (applyRetention days) t s ps := by
  refine Endures.bind (hJ.endures_now hs fun now _ hreading => Endures.bind ?_)
  obtain ⟨cutoff, hcutoff⟩ := hreading.exists_sub?_ofDays hdays
  rw [Instant.sub, hcutoff]
  refine Endures.bind (hJ.endures_ask hs fun answer t s ps hs => ?_)
  cases answer with
  | error e => exact h _ t s ps hs
  | ok _ =>
    refine Endures.bind (hJ.endures_ask hs fun answer t s ps hs => ?_)
    cases answer with
    | error e => exact h _ t s ps hs
    | ok _ => exact h _ t s ps hs

omit hJ in
theorem endures_rehearse (n : Nat) (millis : List Nat) (failures : List (Option String))
    {Q : Except String Unit → Nat → System → List Process → Prop} (hs : J t s ps)
    (h : ∀ result t s ps, J t s ps → Q result t s ps) :
    Endures J Q (rehearse n millis failures) t s ps := by
  refine Endures.bind (endures_sleep _ hs fun t s ps hs => ?_)
  split <;> exact h _ t s ps hs

/-- **A job does not crash**, if it is no job that goes back too far. -/
theorem endures_doJob (n : Nat) {job : Job} (hjob : job.Bearable)
    {Q : Except String Unit → Nat → System → List Process → Prop} (hs : J t s ps)
    (h : ∀ result t s ps, J t s ps → Q result t s ps) : Endures J Q (doJob n job) t s ps := by
  cases job with
  | checkStatus => exact hJ.endures_checkStatus hs h
  | dailyReport => exact hJ.endures_reportYesterday hs h
  | retention days => exact hJ.endures_applyRetention hjob hs h
  | rehearsal millis failures => exact endures_rehearse n millis failures hs h

theorem endures_attempt (i : Nat)
    {Q : Option (Except String Unit) → Nat → System → List Process → Prop} (hs : J t s ps)
    (h : ∀ outcome t s ps, J t s ps → Q outcome t s ps) :
    Endures J Q (attempt (fun task => doJob task.runCount task.job) i) t s ps := by
  refine Endures.bind (Endures.get ?_)
  dsimp only
  cases htask : s.scheduler.tasks[i]? with
  | none => exact h _ t s ps hs
  | some task =>
    have hjob := (hJ.steady hs).jobs task (List.mem_of_getElem? htask)
    refine Endures.bind (Endures.clock (Endures.within (fun t s ps hs => h _ t s ps hs) ?_))
    exact hJ.endures_doJob task.runCount hjob hs fun result t s ps hs => h _ t s ps hs

end System.Robust

end Pulse
