import Pulse.Proofs.System.Manned

/-!
# A system at work, in any order

The processes of a system and the errands from outside take turns in any order, and other things
happen in between.  A `Plant` is a world together with the errands that wait, and it remembers
whether any of them has crashed, which the world does not: there a process that crashed is gone.  A
`Move` is what one of them does until it waits or ends.

* `Plant.Sound` — what each move keeps, as long as the clock shows readings: `Plant.Sound.after`,
  and for all moves `Plant.Sound.afterAll`.
* `Plant.exists_afterAll_advance` — what a machine does while time passes is a row of moves.
-/

set_option autoImplicit false

namespace Pulse

open Activity (Endures Lasts)
open Time (Instant)

/-- A system at work. -/
structure Plant where
  world : World
  /-- What is left of the errands that wait. -/
  errands : List (Action Unit)
  /-- A process or an errand has crashed. -/
  crashed : Bool

/-- A stretch ended in a crash. -/
def Activity.Progress.isCrash {σ π α : Type} : Activity.Progress σ π α → Bool
  | .crashed => true
  | _ => false

namespace Plant

/-- A step of somebody. -/
inductive Move where
  | tick (ms : Nat)
  /-- Something else happens. -/
  | other (change : System → System) (frame : ∀ s : System, s.Frame (change s))
  | call (errand : Errand)
  /-- A process goes on. -/
  | resume (n : Nat)
  /-- An errand goes on. -/
  | proceed (n : Nat)
  /-- An errand is given up. -/
  | giveUp (n : Nat)

/-- A system in which nothing runs yet. -/
def start (s : System) : Plant := ⟨s.begin, [], false⟩

/-- A process goes on until it waits. -/
def work (plant : Plant) (w : Waiting System Process) : Plant :=
  let progress := (w.rest.run plant.world.time plant.world.state []).1
  { plant with
    world := plant.world.runProcess w
    crashed := plant.crashed || progress.isCrash }

/-- An errand goes on until it waits. -/
def attend (plant : Plant) (errand : Action Unit) : Plant :=
  let (progress, state, started) := errand.run plant.world.time plant.world.state []
  let plant := { plant with world := { plant.world with state }.launch started }
  match progress with
  | .waiting rest => { plant with errands := plant.errands ++ [rest] }
  | .finished () => plant
  | .crashed => { plant with crashed := true }

/-- The plant after a move. -/
def after (plant : Plant) : Move → Plant
  | .tick ms => { plant with world := { plant.world with time := plant.world.time + ms } }
  | .other change _ =>
    { plant with world := { plant.world with state := change plant.world.state } }
  | .call errand => plant.attend errand.action
  | .resume n =>
    match plant.world.waiting[n]? with
    | some w =>
      { plant with
        world := { plant.world with waiting := plant.world.waiting.eraseIdx n } }.work w
    | none => plant
  | .proceed n =>
    match plant.errands[n]? with
    | some errand => { plant with errands := plant.errands.eraseIdx n }.attend errand
    | none => plant
  | .giveUp n =>
    match plant.errands[n]? with
    | some errand =>
      { plant with
        world := { plant.world with state := errand.giveUp plant.world.state }
        errands := plant.errands.eraseIdx n }
    | none => plant

/-- The plant after moves, one after the other. -/
def afterAll (plant : Plant) (moves : List Move) : Plant :=
  moves.foldl after plant

/-! ## What each move keeps -/

/-- The processes at work. -/
def processes (plant : Plant) : List Process :=
  plant.world.waiting.map Waiting.process

open Pulse.System (InOrder)

/-- Nothing has crashed, the system is in order if `own` are at work besides, and what is left of
processes and errands goes on without a crash. -/
structure Sound (origin : Instant) (own : List Process) (plant : Plant) : Prop where
  program : plant.world.program = System.program
  safe : plant.crashed = false
  inOrder : plant.world.state.InOrder origin own plant.world.time plant.processes
  waiting : ∀ w ∈ plant.world.waiting,
    w.rest.Lasts (InOrder origin [w.process]) fun _ t s ps => s.InOrder origin [] t ps
  errands : ∀ errand ∈ plant.errands, errand.Waits ∧
    errand.Lasts (InOrder origin []) fun _ t s ps => s.InOrder origin [] t ps

namespace Sound

variable {origin : Instant} {own own' : List Process} {plant : Plant}

/-- The clock goes on, or something else happens. -/
theorem withState (h : plant.Sound origin own) {t : Nat} {s : System}
    (hs : s.InOrder origin own' t plant.processes) :
    Sound origin own' { plant with world := { plant.world with time := t, state := s } } where
  program := h.program
  safe := h.safe
  inOrder := hs
  waiting := h.waiting
  errands := h.errands

/-- Processes have been started. -/
theorem launch (h : plant.Sound origin own) (horigin : origin.IsReading) {s : System}
    (started : List Process)
    (hs : s.InOrder origin own' plant.world.time (plant.processes ++ started)) :
    Sound origin own'
      { plant with world := ({ plant.world with state := s } : World).launch started } where
  program := h.program
  safe := h.safe
  inOrder := by
    refine hs.mono ?_
    simp [Machine.launch, processes, Function.comp_def]
  waiting := by
    refine List.forall_mem_append.2 ⟨h.waiting, fun w hw => ?_⟩
    obtain ⟨p, -, rfl⟩ := List.mem_map.1 hw
    rw [h.program]
    exact fun t s ps hs => p.endures_body horigin hs
  errands := h.errands

/-- **A process goes on.** -/
theorem work {w : Waiting System Process} (h : plant.Sound origin [w.process])
    (horigin : origin.IsReading)
    (hw : w.rest.Lasts (InOrder origin [w.process]) fun _ t s ps => s.InOrder origin [] t ps) :
    (plant.work w).Sound origin [] := by
  have hJ := System.robust_inOrder origin []
  have hrun : (w.rest.run plant.world.time plant.world.state []).1.Endures
      (InOrder origin [w.process]) (fun _ t s ps => s.InOrder origin [] t ps) _ _ _ :=
    Endures.run (hw _ _ _ (by simpa using h.inOrder))
  rw [Plant.work, Machine.runProcess]
  generalize w.rest.run plant.world.time plant.world.state [] = ending at hrun ⊢
  obtain ⟨progress, s, started⟩ := ending
  cases progress with
  | finished next =>
    have hended := h.launch horigin started hrun
    have hsafe : (plant.crashed || false) = false := (Bool.or_false _).trans h.safe
    cases next with
    | none =>
      have hframe : s.Frame (plant.world.program.epilogue w.process s) := by
        rw [h.program]
        exact w.process.frame_epilogue s
      exact { hended.withState (hJ.frame hended.inOrder hframe) with safe := hsafe }
    | some p =>
      exact { hended.launch horigin [p] (hJ.join p hended.inOrder) with safe := hsafe }
  | crashed => exact hrun.elim
  | waiting rest =>
    obtain ⟨-, hs, hrest⟩ := hrun
    have hstarted := h.launch horigin started hs
    exact { hstarted with
      safe := (Bool.or_false _).trans h.safe
      inOrder := hstarted.inOrder.mono (by simp [processes])
      waiting := List.forall_mem_append.2 ⟨hstarted.waiting, List.forall_mem_singleton.2 hrest⟩ }

/-- **An errand goes on.** -/
theorem attend (h : plant.Sound origin []) (horigin : origin.IsReading) {errand : Action Unit}
    (herrand : errand.Lasts (InOrder origin []) fun _ t s ps => s.InOrder origin [] t ps) :
    (plant.attend errand).Sound origin [] := by
  have hrun : (errand.run plant.world.time plant.world.state []).1.Endures
      (InOrder origin []) (fun _ t s ps => s.InOrder origin [] t ps) _ _ _ :=
    Endures.run (herrand _ _ _ (by simpa using h.inOrder))
  rw [Plant.attend]
  generalize errand.run plant.world.time plant.world.state [] = ending at hrun ⊢
  obtain ⟨progress, s, started⟩ := ending
  cases progress with
  | finished _ => exact h.launch horigin started hrun
  | crashed => exact hrun.elim
  | waiting rest =>
    obtain ⟨hwaits, hs, hrest⟩ := hrun
    have hstarted := h.launch horigin started hs
    exact { hstarted with
      errands := List.forall_mem_append.2
        ⟨hstarted.errands, List.forall_mem_singleton.2 ⟨hwaits, hrest⟩⟩ }

/-- **Each move** keeps the system in order, as long as the clock shows readings. -/
theorem after (h : plant.Sound origin []) (horigin : origin.IsReading) (move : Move)
    (hclock : ∃ now, origin.add? (Time.Span.ofMillis (plant.after move).world.time) = some now ∧
      now.IsReading) : (plant.after move).Sound origin [] := by
  cases move with
  | tick ms =>
    refine h.withState { h.inOrder with steady := { h.inOrder.steady with reading := ?_ } }
    rw [System.moment?, h.inOrder.steady.origin_eq]
    exact hclock
  | other change frame =>
    exact h.withState ((System.robust_inOrder origin []).frame h.inOrder (frame _))
  | call errand => exact h.attend horigin fun t s ps hs => errand.endures_action hs
  | resume n =>
    rw [Plant.after]
    cases hw : plant.world.waiting[n]? with
    | none => exact h
    | some w =>
      have hperm : plant.world.waiting.Perm (w :: plant.world.waiting.eraseIdx n) := by
        obtain ⟨hn, rfl⟩ := List.getElem?_eq_some_iff.1 hw
        exact (List.getElem_cons_eraseIdx_perm hn).symm
      have hlasts := h.waiting w (List.mem_of_getElem? hw)
      refine work { h with inOrder := ?_, waiting := ?_ } horigin hlasts
      · exact h.inOrder.mono (hperm.map Waiting.process).subset
      · exact fun v hv => h.waiting v (List.mem_of_mem_eraseIdx hv)
  | proceed n =>
    rw [Plant.after]
    cases herrand : plant.errands[n]? with
    | none => exact h
    | some errand =>
      have hleft : Sound origin [] { plant with errands := plant.errands.eraseIdx n } :=
        { h with errands := fun other hother => h.errands other (List.mem_of_mem_eraseIdx hother) }
      exact hleft.attend horigin (h.errands errand (List.mem_of_getElem? herrand)).2
  | giveUp n =>
    rw [Plant.after]
    cases herrand : plant.errands[n]? with
    | none => exact h
    | some errand =>
      obtain ⟨hwaits, hlasts⟩ := h.errands errand (List.mem_of_getElem? herrand)
      have hleft : Sound origin [] { plant with errands := plant.errands.eraseIdx n } :=
        { h with errands := fun other hother => h.errands other (List.mem_of_mem_eraseIdx hother) }
      exact hleft.withState (hlasts.giveUp hwaits h.inOrder)

end Sound

/-! ## After all moves -/

section

variable {origin : Instant} {plant : Plant}

@[simp]
theorem time_attend (plant : Plant) (errand : Action Unit) :
    (plant.attend errand).world.time = plant.world.time := by
  rw [attend]
  generalize errand.run plant.world.time plant.world.state [] = ending
  obtain ⟨progress, s, started⟩ := ending
  cases progress <;> rfl

@[simp]
theorem time_work (plant : Plant) (w : Waiting System Process) :
    (plant.work w).world.time = plant.world.time := by
  rw [work, Machine.runProcess]
  generalize w.rest.run plant.world.time plant.world.state [] = ending
  obtain ⟨progress, s, started⟩ := ending
  cases progress with
  | finished next => cases next <;> rfl
  | _ => rfl

theorem time_resume (plant : Plant) (n : Nat) :
    (plant.after (.resume n)).world.time = plant.world.time := by
  rw [after]
  cases plant.world.waiting[n]? with
  | none => rfl
  | some w => exact time_work ..

/-- The clock never goes back. -/
theorem time_le_after (plant : Plant) (move : Move) :
    plant.world.time ≤ (plant.after move).world.time := by
  cases move with
  | tick ms => exact Nat.le_add_right ..
  | other change frame => exact le_rfl
  | call errand => exact (time_attend ..).ge
  | resume n => exact (time_resume ..).ge
  | proceed n =>
    rw [after]
    cases plant.errands[n]? with
    | none => exact le_rfl
    | some errand =>
      dsimp only
      rw [time_attend]
  | giveUp n =>
    rw [after]
    cases plant.errands[n]? <;> exact le_rfl

theorem time_le_afterAll (plant : Plant) (moves : List Move) :
    plant.world.time ≤ (plant.afterAll moves).world.time := by
  induction moves generalizing plant with
  | nil => exact le_rfl
  | cons move moves ih => exact (time_le_after plant move).trans (ih _)

theorem Sound.afterAll (h : plant.Sound origin []) (horigin : origin.IsReading) {moves : List Move}
    (hclock : ∀ t ≤ (plant.afterAll moves).world.time,
      ∃ now, origin.add? (Time.Span.ofMillis t) = some now ∧ now.IsReading) :
    (plant.afterAll moves).Sound origin [] := by
  induction moves generalizing plant with
  | nil => exact h
  | cons move moves ih =>
    exact ih (h.after horigin move (hclock _ (time_le_afterAll _ moves))) hclock

end

/-! ## Machines -/

/-- The process that a machine picks is one of those that wait. -/
theorem exists_getElem?_of_pick {t : Nat} {s : System}
    {waiting others : List (Waiting System Process)} {w : Waiting System Process}
    (h : Machine.pick t s waiting = some (w, others)) :
    ∃ n, waiting[n]? = some w ∧ others = waiting.eraseIdx n := by
  induction waiting generalizing w others with
  | nil => cases h
  | cons v rest ih =>
    have hlater {u : Waiting System Process} {left : List (Waiting System Process)}
        (hpick : Machine.pick t s rest = some (u, left)) :
        ∃ n, (v :: rest)[n]? = some u ∧ v :: left = (v :: rest).eraseIdx n := by
      obtain ⟨n, hn, rfl⟩ := ih hpick
      exact ⟨n + 1, hn, rfl⟩
    rw [Machine.pick] at h
    split_ifs at h
    · cases hpick : Machine.pick t s rest with
      | none =>
        simp only [hpick, Option.some.injEq, Prod.mk.injEq] at h
        obtain ⟨rfl, rfl⟩ := h
        exact ⟨0, rfl, rfl⟩
      | some picked =>
        obtain ⟨u, left⟩ := picked
        simp only [hpick] at h
        split_ifs at h
        · cases h
          exact hlater hpick
        · cases h
          exact ⟨0, rfl, rfl⟩
    · obtain ⟨⟨u, left⟩, hpick, heq⟩ := Option.map_eq_some_iff.1 h
      cases heq
      exact hlater hpick

/-- What a machine does of its own accord is a move, for which it takes no time. -/
theorem exists_after_step? (plant : Plant) {m : World} (h : plant.world.step? = some m) :
    ∃ move, (plant.after move).world = m ∧ m.time = plant.world.time := by
  obtain ⟨⟨w, others⟩, hpick, rfl⟩ := Option.map_eq_some_iff.1 h
  obtain ⟨n, hn, rfl⟩ := exists_getElem?_of_pick hpick
  have hworld : (plant.after (.resume n)).world =
      Machine.runProcess { plant.world with waiting := plant.world.waiting.eraseIdx n } w := by
    rw [after, hn]
    rfl
  exact ⟨.resume n, hworld, (congrArg Machine.time hworld).symm.trans (time_resume plant n)⟩

theorem afterAll_append (plant : Plant) (moves more : List Move) :
    plant.afterAll (moves ++ more) = (plant.afterAll moves).afterAll more :=
  List.foldl_append

theorem exists_afterAll_settle (plant : Plant) :
    ∃ moves, (plant.afterAll moves).world = plant.world.settle ∧
      plant.world.settle.time = plant.world.time := by
  rw [Machine.settle]
  generalize Machine.patience = n
  induction n generalizing plant with
  | zero => exact ⟨[], rfl, rfl⟩
  | succ n ih =>
    rw [Machine.settleFor]
    cases hstep : plant.world.step? with
    | none => exact ⟨[], rfl, rfl⟩
    | some m =>
      obtain ⟨move, rfl, htime⟩ := plant.exists_after_step? hstep
      obtain ⟨moves, hmoves, hlater⟩ := ih (plant.after move)
      exact ⟨move :: moves, hmoves, hlater.trans htime⟩

/-- The clock is set ahead. -/
theorem exists_after_time (plant : Plant) {t : Nat} (h : plant.world.time ≤ t) :
    ∃ move, (plant.after move).world = { plant.world with time := t } := by
  obtain ⟨ms, rfl⟩ := Nat.exists_eq_add_of_le h
  exact ⟨.tick ms, rfl⟩

theorem exists_afterAll_advanceFor (plant : Plant) {target : Nat} (n : Nat)
    (h : plant.world.time ≤ target) :
    ∃ moves, (plant.afterAll moves).world = plant.world.advanceFor target n := by
  induction n generalizing plant with
  | zero => exact ⟨[], rfl⟩
  | succ n ih =>
    obtain ⟨moves, hmoves, htime⟩ := plant.exists_afterAll_settle
    have hend : ∃ moves, (plant.afterAll moves).world =
        { plant.world.settle with time := target } := by
      obtain ⟨move, hmove⟩ := (plant.afterAll moves).exists_after_time (t := target)
        (by rwa [hmoves, htime])
      exact ⟨moves ++ [move], by rw [afterAll_append, ← hmoves, ← hmove]; rfl⟩
    rw [Machine.advanceFor]
    cases halarm : plant.world.settle.nextAlarm? with
    | none => exact hend
    | some alarm =>
      dsimp only
      split_ifs with hle
      · obtain ⟨move, hmove⟩ := (plant.afterAll moves).exists_after_time
          (t := max plant.world.settle.time alarm) (by rw [hmoves]; exact le_max_left ..)
        obtain ⟨more, hmore⟩ := ih ((plant.afterAll moves).after move)
          (by rw [hmove, htime]; exact max_le h hle)
        rw [hmove, hmoves] at hmore
        exact ⟨moves ++ move :: more, by rw [afterAll_append]; exact hmore⟩
      · exact hend

/-- **While time passes, a machine makes moves.** -/
theorem exists_afterAll_advance (plant : Plant) (ms : Nat) :
    ∃ moves, (plant.afterAll moves).world = plant.world.advance ms := by
  obtain ⟨moves, hmoves⟩ :=
    plant.exists_afterAll_advanceFor Machine.patience (Nat.le_add_right plant.world.time ms)
  obtain ⟨more, hmore, -⟩ := (plant.afterAll moves).exists_afterAll_settle
  exact ⟨moves ++ more, by rw [afterAll_append, hmore, hmoves]; rfl⟩

end Plant

end Pulse
