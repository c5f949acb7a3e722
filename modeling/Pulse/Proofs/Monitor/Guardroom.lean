import Pulse.Proofs.Monitor.Passes
import Pulse.Proofs.Monitor.Tickets

/-!
# The monitor at work, in any order

Callers make passes themselves or request them from a loop; loops are started, tick, are told to
stop and end; and a caller can be interrupted whenever he waits.

A `Guardroom` is a system together with its `Hand`s, which are the callers and loops that are not
done, and with a ledger.  A `Move` is what one of them does until it waits.  A request is made in
three steps, between which others can do something: looking whether a pass is under way, finding the
loop, and handing the request in.
-/

set_option autoImplicit false

namespace Pulse

open Activity (Progress)
open Time (Instant)

/-! ## Starting, stopping and waiting -/

namespace Action

theorem run_startMonitor (linked : Bool) (t : Nat) (s : System) :
    (startMonitor linked).run t s [] = match s.monitor.startLoop linked with
      | .error e => (.finished (.error e), s, [])
      | .ok (n, monitor) => (.finished (.ok ()), { s with monitor }, [.monitor n]) := by
  rw [startMonitor, run_state_bind]
  cases s.monitor.startLoop linked <;> rfl

theorem run_haltMonitor (t : Nat) (s : System) :
    haltMonitor.run t s [] = match s.monitor.stopLoop with
      | .error e => (.finished (.error e), s, [])
      | .ok (n, monitor) => (.finished (.ok n), { s with monitor }, []) := by
  rw [haltMonitor, run_state_bind]
  cases s.monitor.stopLoop <;> rfl

theorem run_beginMonitor (n t : Nat) (s : System) :
    (beginMonitor n).run t s [] = match s.monitor.settings.tickInterval with
      | none => (.finished (some (.monitorLoop n none)), s, [])
      | some 0 => (.crashed, s, [])
      | some _ => (.finished (some (.monitorLoop n (some t))), s, []) := by
  rw [beginMonitor, run_state_bind]
  rcases s.monitor.settings.tickInterval with _ | _ | _ <;> rfl

theorem meets_awaitTurn (n : Nat) (due : Option Nat) (t : Nat) (s : System) :
    Activity.Meets System.Unchanged (fun _ _ _ => True) (awaitTurn n due) t s :=
  Activity.Meets.waiting System.Unchanged.refl fun _ _ => trivial

theorem request?_of_turn {n : Nat} {due : Option Nat} {t : Nat} {s : System} {ticket : Nat}
    (h : turn n due t s = .meets ticket) : s.monitor.request? n = some ticket := by
  unfold turn at h
  grind

end Action

/-! ## The machine -/

/-- A caller or a loop that is not done. -/
inductive Guardroom.Hand where
  /-- A caller who makes a pass; `found` tells whether a pass was under way when he began. -/
  | pass (found : Bool) (rest : Action PassOutcome)
  /-- A loop that starts. -/
  | starting (n : Nat)
  /-- A loop between passes, and when it ticks next. -/
  | loop (n : Nat) (due : Option Nat)
  /-- A loop that makes a pass, for a request or because of a tick. -/
  | turn (n : Nat) (ticket due : Option Nat) (found : Bool) (rest : Action PassOutcome)
  /-- A caller who is about to look whether a pass is under way. -/
  | asking (ticket : Nat)
  /-- A caller who is about to find the loop. -/
  | finding (ticket : Nat)
  /-- A caller who is about to hand his request to a loop. -/
  | sending (ticket n : Nat)
  /-- A caller who waits for the answer of a loop. -/
  | waiting (ticket n : Nat)

namespace Guardroom.Hand

/-- The place of a hand. -/
def seat : Hand → Seat
  | pass .. => .pass
  | starting n | loop n _ => .idle n
  | turn n ticket .. => .turn n ticket
  | asking ticket | finding ticket | sending ticket _ => .early ticket
  | waiting ticket n => .waiting ticket n

/-- A process of a loop that has not begun. -/
def ofProcess? : Process → Option Hand
  | .monitor n => some (.starting n)
  | .monitorLoop n due => some (.loop n due)
  | _ => none

end Guardroom.Hand

/-- A system whose monitor is used. -/
structure Guardroom where
  time : Nat
  system : System
  hands : List Guardroom.Hand
  ledger : Ledger

namespace Guardroom

/-- A step of somebody. -/
inductive Move where
  | tick (ms : Nat)
  /-- Something else happens in the system; all that is linked may be told to stop, for one. -/
  | other (change : System → System) (leaves : ∀ s, (change s).monitor = s.monitor)
  /-- A caller begins a pass. -/
  | pass
  | passAt (now : Instant)
  /-- A caller begins a request. -/
  | check
  | start (linked : Bool)
  | stop
  /-- A hand goes on. -/
  | resume (n : Nat)
  /-- A caller who waits is interrupted. -/
  | interrupt (n : Nat)

/-- A monitor that was not used, in a system. -/
def start (s : System) : Guardroom where
  time := 0
  system := { s with monitor := { settings := s.monitor.settings } }
  hands := []
  ledger := {}

variable (room : Guardroom)

def withMonitor (monitor : Monitor) : Guardroom :=
  { room with system := { room.system with monitor } }

/-- A hand stays. -/
def stay (hand : Hand) : Guardroom :=
  { room with hands := room.hands ++ [hand] }

/-- The processes that were started join the hands. -/
def join (started : List Process) : Guardroom :=
  { room with hands := room.hands ++ started.filterMap Hand.ofProcess? }

/-- An attempt at a pass has come to its end. -/
def note (attempt : Attempt) : Guardroom :=
  { room with ledger := room.ledger.note attempt }

/-- A request returns. -/
def give (ticket : Nat) (result : Except MonitorError PassOutcome) : Guardroom :=
  { room with ledger := room.ledger.give ticket result }

/-- A loop has ended. -/
def endLoop (n : Nat) : Guardroom :=
  room.withMonitor (room.system.monitor.endLoop n)

/-- The pass of a caller has come to the end of a stretch. -/
def onPass (found : Bool) :
    Progress System Process PassOutcome × System × List Process → Guardroom
  | (.waiting rest, system, _) => { room with system }.stay (.pass found rest)
  | (.finished outcome, system, _) => { room with system }.note ⟨.caller, found, outcome⟩
  | (.crashed, system, _) => { room with system }

/-- The pass of a loop has come to the end of a stretch. -/
def onTurn (n : Nat) (ticket due : Option Nat) (found : Bool) :
    Progress System Process PassOutcome × System × List Process → Guardroom
  | (.waiting rest, system, _) => { room with system }.stay (.turn n ticket due found rest)
  | (.finished outcome, system, _) =>
    match ticket with
    | some ticket =>
      (({ room with system }.withMonitor (system.monitor.reply n ticket outcome)).note
        ⟨.request ticket, found, outcome⟩).stay (.loop n due)
    | none => ({ room with system }.note ⟨.tick, found, outcome⟩).stay (.loop n due)
  | (.crashed, system, _) => { room with system }.endLoop n

/-- The waiting of a loop is over. -/
def takeTurn (n : Nat) (due : Option Nat) : Guardroom :=
  let found := room.system.monitor.passing
  match Action.turn n due room.time room.system with
  | .ends | .fails => room.endLoop n
  | .waits => room.stay (.loop n due)
  | .ticks next =>
    room.onTurn n none (some next) found (Action.pass.run room.time room.system [])
  | .meets ticket =>
    let room := room.withMonitor (room.system.monitor.take n)
    room.onTurn n (some ticket) due found (Action.pass.run room.time room.system [])

/-- A caller hands his request to a loop. -/
def submit (ticket n : Nat) : Guardroom :=
  match room.system.monitor.submit n ticket with
  | (.accepted, monitor) => (room.withMonitor monitor).stay (.waiting ticket n)
  | (.skipped, monitor) =>
    ((room.withMonitor monitor).note
      ⟨.request ticket, (room.system.monitor.request? n).isSome, .skipped⟩).give ticket
      (.ok .skipped)
  | (.refused e, monitor) => (room.withMonitor monitor).give ticket (.error e)

/-- A hand goes on until it waits. -/
def work : Hand → Guardroom
  | .pass found rest => room.onPass found (rest.run room.time room.system [])
  | .starting n =>
    match (Action.beginMonitor n).run room.time room.system [] with
    | (.finished (some process), system, _) => { room with system }.join [process]
    | (_, system, _) => { room with system }.endLoop n
  | .loop n due =>
    match (Action.awaitTurn n due).run room.time room.system [] with
    | (.finished (), system, _) => { room with system }.takeTurn n due
    | (_, system, _) => { room with system }.stay (.loop n due)
  | .turn n ticket due found rest =>
    room.onTurn n ticket due found (rest.run room.time room.system [])
  | .asking ticket =>
    if room.system.monitor.passing then
      ((room.withMonitor room.system.monitor.skip).note
        ⟨.request ticket, true, .skipped⟩).give ticket (.ok .skipped)
    else room.stay (.finding ticket)
  | .finding ticket =>
    match room.system.monitor.attached with
    | none => room.give ticket (.error .notRunning)
    | some n => room.stay (.sending ticket n)
  | .sending ticket n => room.submit ticket n
  | .waiting ticket n =>
    match room.system.monitor.answer? ticket with
    | none => room.stay (.waiting ticket n)
    | some answer =>
      (room.withMonitor (room.system.monitor.forget ticket)).give ticket
        (Monitor.resultOf answer)

/-- A hand is interrupted, if it is that of a caller who waits. -/
def interrupt : Hand → Guardroom
  | .pass _ rest => { room with system := rest.giveUp room.system }
  | .waiting ticket _ => room.withMonitor (room.system.monitor.forget ticket)
  | hand => room.stay hand

/-- The guardroom after a move. -/
def after : Move → Guardroom
  | .tick ms => { room with time := room.time + ms }
  | .other change _ => { room with system := change room.system }
  | .pass => room.onPass room.system.monitor.passing (Action.pass.run room.time room.system [])
  | .passAt now =>
    room.onPass room.system.monitor.passing ((Action.passAt now).run room.time room.system [])
  | .check =>
    let (ticket, monitor) := room.system.monitor.draw
    (room.withMonitor monitor).stay (.asking ticket)
  | .start linked =>
    let (_, system, started) := (Action.startMonitor linked).run room.time room.system []
    { room with system }.join started
  | .stop =>
    let (_, system, _) := Action.haltMonitor.run room.time room.system []
    { room with system }
  | .resume n =>
    match room.hands[n]? with
    | some hand => { room with hands := room.hands.eraseIdx n }.work hand
    | none => room
  | .interrupt n =>
    match room.hands[n]? with
    | some hand => { room with hands := room.hands.eraseIdx n }.interrupt hand
    | none => room

/-- The guardroom after moves, one after the other. -/
def afterAll (moves : List Move) : Guardroom :=
  moves.foldl after room

end Guardroom

end Pulse
