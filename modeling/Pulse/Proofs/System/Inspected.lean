import Pulse.Proofs.Activity.Settles
import Pulse.Proofs.Monitor.Inspection
import Pulse.Proofs.System.Silence

/-!
# Passes as inspections

A pass that has the system to itself and can list the servers is an inspection of the store: what it
does with records and demotions is what can happen in one, and it goes on until nothing is left to
do.  Which demotions fail is up to the store and to the clock.

* `Action.settles_checkRecords` — a pass takes the steps of an inspection and comes to its end.
* `Inspected` — what a pass comes to: an inspection, or an error that it reports without touching
  the store.
* `inspections_exact` — what is true of all inspections and of all passes.
-/

set_option autoImplicit false

namespace Pulse

open Activity (Settles)
open Time (Instant)

/-! ## Failures -/

namespace Disturbance

/-- The store fails when it is to turn this server off. -/
def refuses (d : Disturbance) (id : String) : Bool :=
  d.failing.contains Store.Kind.demote.name || d.failingDemotions.contains id

theorem failure?_demote (d : Disturbance) (id : String) (seenBefore now : Instant) :
    d.failure? (.demote id seenBefore now) = none ↔ d.refuses id = false := by
  rw [failure?, refuses, Bool.or_eq_false_iff]
  change (if d.failing.contains Store.Kind.demote.name then _ else
    if d.failingDemotions.contains id then _ else none) = none ↔ _
  split_ifs <;> simp_all

/-- What a store in memory answers when a server is to be turned off. -/
theorem run_demote {d : Disturbance} {m : MemoryStore} {id : String} {seenBefore now : Instant}
    (h : d.refuses id = false) :
    d.run (.demote id seenBefore now) (.memory m) =
      (m.demote id seenBefore now).map fun (turned, m) => (turned, .memory m) := by
  unfold run
  rw [(d.failure?_demote id seenBefore now).2 h]
  rfl

end Disturbance

/-- A demotion of a pass, as one of an inspection.  It can be given up only if demotions are slow. -/
structure Underway.Matches (slow : Prop) (u : Underway) (p : ServerRecord × Instant) : Prop where
  serverId : u.serverId = p.1.serverId
  seenBefore : u.seenBefore = p.2
  slow : u.deadline < u.due → slow

/-- Why demotions have failed: the store refuses them, or it is too slow. -/
structure Inspection.Explained (d : Disturbance) (slow : Prop) (i : Inspection) : Prop where
  demoted : ∀ r ∈ i.demoted, d.refuses r.serverId = false
  failed : ∀ r ∈ i.failed, d.refuses r.serverId = true ∨ slow

theorem matches_takeOver {slow : Prop} {t : Nat} {underway others : List Underway} {u : Underway}
    {pairs : List (ServerRecord × Instant)} (h : takeOver t underway = some (u, others))
    (hmatch : List.Forall₂ (Underway.Matches slow) underway pairs) :
    ∃ p rest, pairs.Perm (p :: rest) ∧ u.Matches slow p ∧
      List.Forall₂ (Underway.Matches slow) others rest := by
  induction hmatch generalizing u others with
  | nil => cases h
  | @cons v p vs ps hfirst hmatch ih =>
    rw [takeOver] at h
    split at h
    · cases h
      exact ⟨p, ps, List.Perm.refl _, hfirst, hmatch⟩
    · obtain ⟨⟨w, ws⟩, hrest, heq⟩ := Option.map_eq_some_iff.1 h
      cases heq
      obtain ⟨q, qs, hperm, hmatches, hothers⟩ := ih hrest
      exact ⟨q, p :: qs, (hperm.cons p).trans (List.Perm.swap ..), hmatches, hothers.cons hfirst⟩

/-- Something that is under way has an alarm. -/
theorem exists_firstOver {underway : List Underway} (h : underway ≠ []) :
    ∃ due, firstOver underway = some due := by
  have hkept : ∀ (items : List Underway) (due : Nat), ∃ due',
      items.foldl (fun a u => Activity.earlier a (some (min u.due u.deadline))) (some due) =
        some due' := by
    intro items
    induction items with
    | nil => exact fun due => ⟨due, rfl⟩
    | cons u rest ih => exact fun due => ih _
  cases underway with
  | nil => exact absurd rfl h
  | cons u rest => exact hkept rest _

namespace Action

variable {grace : Float} {now : Instant} {m : MemoryStore} {i : Inspection} {slow : Prop} {t : Nat}
  {s : System}

/-! ## Steps of a pass -/

/-- A demotion that is over is answered or fails. -/
theorem settles_endDemotion (maxConcurrency : Nat) (hm : m.Inspectable grace now)
    (h : i.Sound grace now m) (hexplained : i.Explained s.disturbance slow)
    (hstore : s.store = .memory i.store) {p : ServerRecord × Instant}
    {rest : List (ServerRecord × Instant)} (hpick : i.underway.Perm (p :: rest)) {u : Underway}
    (hmatches : u.Matches slow p) (hover : u.isOver t = true)
    {Q : RecordOutcome → Nat → System → Prop}
    (hQ : ∀ outcome j, Inspection.Step maxConcurrency grace now i j → j.todo = i.todo →
      j.underway = rest → j.report = i.report.count outcome → j.Explained s.disturbance slow →
      Q outcome t { s with store := .memory j.store }) :
    Settles Q (endDemotion now t u) t s := by
  obtain ⟨record, cutoff⟩ := p
  have hid : u.serverId = record.serverId := hmatches.serverId
  have hcutoff : u.seenBefore = cutoff := hmatches.seenBefore
  have hsame : s = { s with store := .memory i.store } := by rw [← hstore]
  have hfails (hwhy : s.disturbance.refuses record.serverId = true ∨ slow) : Q .failed t s := by
    have hfailed : ∀ r ∈ i.failed ++ [record], s.disturbance.refuses r.serverId = true ∨ slow := by
      intro r hr
      rcases List.mem_append.1 hr with hr | hr
      · exact hexplained.failed r hr
      · rwa [List.mem_singleton.1 hr]
    have hended := hQ .failed _ (.fails hpick) rfl rfl rfl ⟨hexplained.demoted, hfailed⟩
    rw [hsame]
    exact hended
  show Settles Q (if _ then _ else _) t s
  split_ifs with hdue
  · refine Settles.bind ?_
    rw [answer, Settles, hid, hcutoff, hstore]
    cases hrefuses : s.disturbance.refuses record.serverId with
    | true =>
      have hfailure : s.disturbance.failure? (.demote record.serverId cutoff now) ≠ none := by
        rw [Ne, Disturbance.failure?_demote, hrefuses]
        exact Bool.noConfusion
      obtain ⟨e, he⟩ := Option.ne_none_iff_exists'.1 hfailure
      unfold Disturbance.run
      rw [he]
      exact hfails (.inl hrefuses)
    | false =>
      have hdemote := h.demote hm (hpick.mem_iff.2 List.mem_cons_self)
      rw [Disturbance.run_demote hrefuses, hdemote]
      refine hQ .demoted _ (.answered hpick hdemote) rfl rfl rfl ⟨fun r hr => ?_, hexplained.failed⟩
      rcases List.mem_append.1 hr with hr | hr
      · exact hexplained.demoted r hr
      · rwa [List.mem_singleton.1 hr]
  · refine hfails (.inr (hmatches.slow ?_))
    simp only [Underway.isOver, Bool.or_eq_true, decide_eq_true_eq] at hover
    omega

/-- After a wait a demotion is over. -/
theorem settles_wait {underway : List Underway} (h : underway ≠ [])
    {Q : Unit → Nat → System → Prop} (hQ : ∀ t₁, (takeOver t₁ underway).isSome = true → Q () t₁ s) :
    Settles Q (Activity.wait (fun _ => false) (firstOver underway) id (.done ()) : Action Unit)
      t s := by
  obtain ⟨due, hdue⟩ := exists_firstOver h
  rw [hdue]
  refine Settles.alarm due fun t₁ _ hrang => hQ t₁ ?_
  rw [← hdue] at hrang
  exact isSome_takeOver_of_rang hrang

/-- **A pass takes the steps of an inspection** until nothing is left to do. -/
theorem settles_checkRecords {settings : MonitoringSettings}
    (hm : m.Inspectable settings.graceMultiplier now)
    (hslow : millisOf settings.storeTimeout < s.disturbance.delay .demote → slow) {steps : Nat}
    {todo : List ServerRecord} {underway : List Underway} {report : PassReport}
    (h : Inspection.Reaches settings.maxConcurrency settings.graceMultiplier now m i)
    (htodo : i.todo = todo)
    (hunderway : List.Forall₂ (Underway.Matches slow) underway i.underway)
    (hreport : i.report = report) (hexplained : i.Explained s.disturbance slow)
    (hstore : s.store = .memory i.store)
    (hsteps : 3 * todo.length + 2 * underway.length + 1 ≤
      steps + if (takeOver t underway).isSome then 1 else 0) :
    Settles (fun report' _ s' => ∃ j,
        Inspection.Reaches settings.maxConcurrency settings.graceMultiplier now m j ∧
        j.IsFinished ∧ j.Explained s.disturbance slow ∧ report' = j.report ∧
        s' = { s with store := .memory j.store })
      (checkRecords settings now steps todo underway report) t s := by
  induction steps generalizing todo underway report t s i with
  | zero =>
    cases underway with
    | nil => simp [takeOver] at hsteps
    | cons u rest => split at hsteps <;> simp at hsteps
  | succ steps ih =>
    have hsound := Inspection.sound_of_reaches hm h
    have hlength := hunderway.length_eq
    unfold checkRecords
    refine Settles.bind (Settles.clock ?_)
    split
    · next u others htake =>
      obtain ⟨hover, hperm⟩ := perm_takeOver htake
      have hcount := hperm.length_eq
      rw [List.length_cons] at hcount
      rw [htake, Option.isSome_some, if_pos rfl] at hsteps
      obtain ⟨p, rest, hpick, hmatches, hothers⟩ := matches_takeOver htake hunderway
      refine Settles.bind (Settles.bind ?_)
      refine settles_endDemotion settings.maxConcurrency hm hsound hexplained hstore hpick
        hmatches hover ?_
      intro outcome j hstep hkept hrest hcounted hexplained'
      exact ih (s := { s with store := .memory j.store }) hslow (h.tail hstep)
        (hkept.trans htodo) (hrest ▸ hothers) (hcounted.trans (by rw [hreport])) hexplained' rfl
        (by omega)
    · next hnone =>
      rw [hnone, Option.isSome_none, if_neg Bool.false_ne_true] at hsteps
      split
      · next record rest =>
        rw [List.length_cons] at hsteps
        split
        · next hroom =>
          have hpick : i.todo.Perm (record :: rest) := by rw [htodo]
          rw [hlength] at hroom
          obtain ⟨verdict, hverdict⟩ :=
            hm.exists_verdict (hsound.mem_of_todo (hpick.mem_iff.2 List.mem_cons_self))
          refine Settles.bind ?_
          rw [hverdict]
          cases verdict with
          | undefined =>
            exact ih hslow (h.tail (.undefined hpick hroom hverdict)) rfl hunderway
              (by rw [hreport]) ⟨hexplained.demoted, hexplained.failed⟩ hstore (by omega)
          | unchanged =>
            exact ih hslow (h.tail (.unchanged hpick hroom hverdict)) rfl hunderway
              (by rw [hreport]) ⟨hexplained.demoted, hexplained.failed⟩ hstore (by omega)
          | silent cutoff =>
            let started : Underway := ⟨record.serverId, cutoff,
              t + s.disturbance.delay .demote, t + millisOf settings.storeTimeout⟩
            have hstarted : started.Matches slow (record, cutoff) :=
              ⟨rfl, rfl, fun hlt => hslow (Nat.lt_of_add_lt_add_left hlt)⟩
            have hunderway' : List.Forall₂ (Underway.Matches slow) (underway ++ [started])
                (i.underway ++ [(record, cutoff)]) :=
              List.rel_append hunderway (.cons hstarted .nil)
            refine Settles.bind (Settles.bind ?_)
            exact ih hslow (h.tail (.begins hpick hroom hverdict)) rfl hunderway' hreport
              ⟨hexplained.demoted, hexplained.failed⟩ hstore
              (by rw [List.length_append, List.length_singleton]; omega)
        · next hfull =>
          have hsome : underway ≠ [] := by
            rintro rfl
            exact hfull (by simp)
          refine Settles.bind (settles_wait hsome fun t₁ hover => ?_)
          exact ih hslow h htodo hunderway hreport hexplained hstore
            (by rw [hover, if_pos rfl, List.length_cons]; omega)
      · split
        · next hempty =>
          obtain rfl := List.isEmpty_iff.1 hempty
          have hfinished : i.IsFinished := ⟨htodo, List.length_eq_zero_iff.1 hlength.symm⟩
          exact ⟨i, h, hfinished, hexplained, hreport.symm, by rw [← hstore]⟩
        · next hmore =>
          refine Settles.bind (settles_wait (mt List.isEmpty_iff.2 hmore) fun t₁ hover => ?_)
          exact ih hslow h htodo hunderway hreport hexplained hstore
            (by rw [hover, if_pos rfl]; omega)

/-! ## Whole passes -/

/-- The servers are listed, or the store fails, or it is too slow. -/
theorem settles_list {timeout : Nat} (hstore : s.store = .memory m)
    {Q : Option (Except StorageError (List ServerRecord)) → Nat → System → Prop}
    (hlisted : s.disturbance.failure? .list = none → ∀ t₁, Q (some (.ok m.records)) t₁ s)
    (hfailed : ∀ e, s.disturbance.failure? .list = some e → ∀ t₁, Q (some (.error e)) t₁ s)
    (hslow : timeout < s.disturbance.delay .list → ∀ t₁, Q none t₁ s) :
    Settles Q (Activity.within (t + timeout) (ask .list)) t s := by
  have hanswer (t₁ : Nat) :
      Settles Q (Activity.within (t + timeout) (answer .list)) t₁ s := by
    rw [answer, Activity.within, Settles, hstore]
    unfold Disturbance.run
    cases hfailure : s.disturbance.failure? .list with
    | some e => exact hfailed e hfailure t₁
    | none =>
      have hsame : s = { s with store := .memory m } := by rw [← hstore]
      rw [hsame] at hlisted
      exact hlisted hfailure t₁
  show Settles Q (Activity.within (t + timeout) (if 0 < s.disturbance.delay .list then
    Activity.sleep (s.disturbance.delay .list) >>= fun _ => answer .list else answer .list)) t s
  split_ifs
  · refine ⟨⟨max t (min (t + s.disturbance.delay .list) (t + timeout)), le_max_left .., ?_⟩,
      fun t₁ _ hgo => ?_⟩
    · exact decide_eq_true (le_max_right ..)
    · show Settles Q (if _ then _ else _) t₁ s
      split_ifs with hdue
      · exact hanswer t₁
      · refine hslow ?_ t₁
        simp [Activity.rang, Activity.earlier] at hgo hdue
        omega
  · exact hanswer t

end Action

/-- What comes of a pass at `now` that has the system to itself. -/
inductive Inspected (settings : MonitoringSettings) (d : Disturbance) (now : Instant)
    (m : MemoryStore) (report : PassReport) (m' : MemoryStore) : Prop
  /-- The servers were listed.  Demotions fail that the store refuses, and others may if it is too
  slow. -/
  | listed (fails : String → Bool) (hlist : d.failure? .list = none)
    (hrefused : ∀ id, d.refuses id = true → fails id = true)
    (hfails : ∀ id, fails id = true →
      d.refuses id = true ∨ Action.millisOf settings.storeTimeout < d.delay .demote)
    (hswept : Swept settings.graceMultiplier now fails m report m')
  /-- The store has failed or was too slow, and nothing was done. -/
  | unlisted (error : String)
    (herror : (∃ e, d.failure? .list = some e ∧ error = e.message) ∨
      Action.millisOf settings.storeTimeout < d.delay .list ∧ error = "listing servers timed out")
    (hreport : report =
      { startedAt := now, listError := some error, duration := report.duration })
    (hstore : m' = m)

theorem Inspected.lasting {settings : MonitoringSettings} {d : Disturbance} {now : Instant}
    {m m' : MemoryStore} {report : PassReport} (h : Inspected settings d now m report m')
    (duration : Nat) : Inspected settings d now m { report with duration } m' := by
  cases h with
  | listed fails hlist hrefused hfails hswept =>
    exact .listed fails hlist hrefused hfails { hswept with }
  | unlisted error herror hreport hstore =>
    refine .unlisted error herror ?_ hstore
    rw [hreport]

namespace Action

variable {now : Instant} {m : MemoryStore} {t : Nat} {s : System}

theorem settles_scan {settings : MonitoringSettings}
    (hm : m.Inspectable settings.graceMultiplier now) (hstore : s.store = .memory m) :
    Settles (fun report _ s' => ∃ m', s' = { s with store := .memory m' } ∧
      Inspected settings s.disturbance now m report m') (scan settings now) t s := by
  have hsame : s = { s with store := .memory m } := by rw [← hstore]
  refine Settles.bind (Settles.bind (settles_list hstore ?_ ?_ ?_))
  · intro hlist t₁
    show Settles _ (checkRecords settings now (3 * m.records.length + 1) m.records [] _) t₁ s
    have hsteps : 3 * m.records.length + 2 * ([] : List Underway).length + 1 ≤
        3 * m.records.length + 1 + if (takeOver t₁ []).isSome then 1 else 0 := by
      simp [takeOver]
    refine (settles_checkRecords hm id .refl rfl .nil rfl ⟨by simp [Inspection.start],
      by simp [Inspection.start]⟩ hstore hsteps).mono ?_
    rintro report t₂ s₂ ⟨j, hreaches, hfinished, hexplained, rfl, rfl⟩
    have hsound := Inspection.sound_of_reaches hm hreaches
    obtain ⟨fails, hfits, hrefused, hfails⟩ := hsound.exists_fits hm _ hexplained.demoted
    refine ⟨j.store, rfl, .listed fails hlist hrefused (fun id hid => ?_)
      (hsound.swept hfinished hfits)⟩
    rcases hfails id hid with hrefuses | ⟨r, hr, rfl⟩
    · exact .inl hrefuses
    · exact hexplained.failed r hr
  · intro e he t₁
    exact ⟨m, hsame, .unlisted e.message (.inl ⟨e, he, rfl⟩) rfl rfl⟩
  · intro hslow t₁
    exact ⟨m, hsame, .unlisted _ (.inr ⟨hslow, rfl⟩) rfl rfl⟩

/-- **A pass that has the system to itself** comes to its end. -/
theorem settles_passAt (hm : m.Inspectable s.monitor.settings.graceMultiplier now)
    (hstore : s.store = .memory m) (hfree : s.monitor.passing = false) :
    Settles (fun outcome _ s' => ∃ report m', outcome = .completed report ∧
        s'.store = .memory m' ∧ s'.monitor.passing = false ∧
        s'.monitor.settings = s.monitor.settings ∧
        Inspected s.monitor.settings s.disturbance now m report m') (passAt now) t s := by
  have henter : s.monitor.enter = (true, { s.monitor with passing := true }) := by
    rw [Monitor.enter, hfree, if_neg Bool.false_ne_true]
  rw [passAt]
  refine Settles.bind ?_
  show Settles _ (modifyMonitor (fun _ => s.monitor.enter.2) >>= fun _ =>
    if s.monitor.enter.1 then Activity.guarded release (inspect now) else pure .skipped) t s
  rw [henter]
  refine Settles.bind (Settles.guarded (Settles.bind (Settles.bind (Settles.bind ?_))))
  let entered : System := { s with monitor := { s.monitor with passing := true } }
  refine (settles_scan (s := entered) hm hstore).mono ?_
  rintro report t₁ s₁ ⟨m', rfl, hinspected⟩
  exact ⟨_, m', rfl, rfl, rfl, rfl, hinspected.lasting _⟩

end Action

/-- **Passes are exact.**  Let the records of a store be such that they can be judged at `now`.

However the records are inspected, no arithmetic with times fails, the inspection can always go on
and does so only so many times; in the end it has turned off all servers that are due except for
those whose demotion failed, and changed nothing else.  Any demotions may fail.

A pass that has the system to itself is such an inspection, unless the servers could not be listed;
then it reports the error and changes nothing.  After a pass without failures nobody is due, and
another pass at the same moment turns nobody off. -/
theorem inspections_exact {grace : Float} {now : Instant} {m : MemoryStore}
    (hm : m.Inspectable grace now) :
    (∀ r ∈ m.records, ∃ verdict, r.verdict now grace = .ok verdict) ∧
    (∀ maxConcurrency i, Inspection.Reaches maxConcurrency grace now m i →
      (¬ i.IsFinished → ∃ j, Inspection.Step maxConcurrency grace now i j) ∧
      (∀ j, Inspection.Step maxConcurrency grace now i j → j.remaining < i.remaining) ∧
      (i.IsFinished → ∀ fails, i.Fits fails → Swept grace now fails m i.report i.store)) ∧
    (∀ maxConcurrency fails,
      ∃ i, Inspection.Reaches maxConcurrency grace now m i ∧ i.IsFinished ∧ i.Fits fails) ∧
    ∀ (s : System) (t : Nat), s.store = .memory m → s.monitor.passing = false →
      s.monitor.settings.graceMultiplier = grace →
      Settles (fun outcome _ s' => ∃ report m', outcome = .completed report ∧
        s'.store = .memory m' ∧ Inspected s.monitor.settings s.disturbance now m report m' ∧
        (report.listError = none → report.failed = 0 →
          (∀ r ∈ m'.records, r.isDue now grace = false) ∧
          ∀ t', Settles (fun again _ s'' => ∃ report', again = .completed report' ∧
            report'.demoted = 0 ∧ s''.store = s'.store) (Action.passAt now) t' s'))
        (Action.passAt now) t s := by
  refine ⟨fun r hr => hm.exists_verdict hr, fun maxConcurrency i hi => ⟨?_, ?_, ?_⟩, ?_, ?_⟩
  · intro hmore
    have hsound := Inspection.sound_of_reaches hm hi
    obtain ⟨fails, hfits, -⟩ := hsound.exists_fits hm (fun _ => false) fun _ _ => rfl
    obtain ⟨j, hstep, -⟩ := hsound.exists_step hm hmore maxConcurrency hfits
    exact ⟨j, hstep⟩
  · exact fun j hstep => hstep.remaining_lt
  · exact fun hfinished fails hfits =>
      (Inspection.sound_of_reaches hm hi).swept hfinished hfits
  · exact fun maxConcurrency fails => Inspection.exists_finished hm maxConcurrency .refl
      ⟨by simp [Inspection.start], by simp [Inspection.start]⟩
  · rintro s t hstore hfree rfl
    refine (Action.settles_passAt hm hstore hfree).mono ?_
    rintro outcome t₁ s' ⟨report, m', rfl, hstore', hfree', hsettings, hinspected⟩
    refine ⟨report, m', rfl, hstore', hinspected, fun hlisted hfailed => ?_⟩
    cases hinspected with
    | unlisted error herror hreport =>
      rw [hreport] at hlisted
      cases hlisted
    | listed fails hlist hrefused hfails hswept =>
      have hcalm := hswept.not_isDue hfailed
      refine ⟨hcalm, fun t' => ?_⟩
      rw [← hsettings] at hcalm
      have hm' := hswept.inspectable hm
      rw [← hsettings] at hm'
      refine (Action.settles_passAt hm' hstore' hfree').mono ?_
      rintro outcome t₂ s'' ⟨report', m'', rfl, hstore'', -, -, hinspected'⟩
      refine ⟨report', rfl, ?_⟩
      rw [hstore', hstore'']
      cases hinspected' with
      | unlisted error herror hreport hsame =>
        rw [hreport, hsame]
        exact ⟨rfl, rfl⟩
      | listed fails' hlist' hrefused' hfails' hswept' =>
        obtain ⟨hdemoted, -, hsame⟩ := hswept'.eq_self hcalm
        exact ⟨hdemoted, hsame ▸ rfl⟩

/-- One server is heard late, two were heard long ago, and one was never heard. -/
private def roster : MemoryStore where
  records := [
    ⟨"a", "10.0.0.1", 10, .on, some (.ofMillis 1741953600000), some (.ofMillis 1741953600000)⟩,
    ⟨"b", "10.0.0.2", 10, .on, some (.ofMillis 1741953601000), some (.ofMillis 1741953601000)⟩,
    ⟨"c", "10.0.0.3", 10, .on, some (.ofMillis 1741953640000), some (.ofMillis 1741953640000)⟩,
    .new ⟨"d", "10.0.0.4", 10⟩]
  series := []
  transitions := [⟨"a", .undefined, .on, .ofMillis 1741953600000⟩]

/-- The store fails when it is to turn off the first server. -/
private def rosterSystem : System where
  origin := .ofMillis 1741953600000
  store := .memory roster
  disturbance := { failingDemotions := ["a"] }
  bus := .new 1
  monitor := { settings := {} }
  scheduler := { timeout := 5000 }

/-- Of the two servers that were heard long ago, the one that the store does not refuse is turned
off. -/
theorem inspections_exact_roster :
    let now := Instant.ofMillis 1741953645000
    let grace := rosterSystem.monitor.settings.graceMultiplier
    let report : PassReport :=
      { startedAt := now, scanned := 4, demoted := 1, undefined := 1, failed := 1 }
    let s' := ((Action.passAt now).run 45000 rosterSystem []).2.1
    roster.Inspectable grace now ∧
      Activity.Alone (Action.passAt now) 45000 rosterSystem (.completed report) 45000 s' ∧
      s'.memory.statusOf "a" = .on ∧ s'.memory.statusOf "b" = .off ∧
      Inspected rosterSystem.monitor.settings rosterSystem.disturbance now roster report
        s'.memory := by
  intro now grace report s'
  have hm : roster.Inspectable grace now := by
    refine ⟨?_, ?_, by decide +kernel, by decide +kernel⟩
    · rw [Ordered.Ascending]
      decide +kernel
    · have hwindow : ∀ r ∈ roster.records, r.window? grace = some (Time.Span.ofMillis 20000) := by
        decide +kernel
      exact fun r hr => ⟨_, by decide, hwindow r hr⟩
  have halone : Activity.Alone (Action.passAt now) 45000 rosterSystem (.completed report) 45000 s' :=
    Action.alone_pass_of_reportOf? (by decide +kernel)
  -- the system is a variable here, so that the pass is not run by the unifier
  have hpass (s s₁ : System) (t t₁ : Nat) (hstore : s.store = .memory roster)
      (hfree : s.monitor.passing = false) (hgrace : s.monitor.settings.graceMultiplier = grace)
      (halone : Activity.Alone (Action.passAt now) t s (.completed report) t₁ s₁) :
      Inspected s.monitor.settings s.disturbance now roster report s₁.memory := by
    have hsettles := (inspections_exact hm).2.2.2 s t hstore hfree hgrace
    obtain ⟨report', m', hreport, hstore', hinspected, -⟩ := hsettles.of_alone halone
    cases hreport
    rwa [System.memory, hstore']
  exact ⟨hm, halone, by decide +kernel, by decide +kernel, hpass _ _ _ _ rfl rfl rfl halone⟩

end Pulse
