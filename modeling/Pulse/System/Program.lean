import Pulse.Machine
import Pulse.System.Scheduling

/-!
# The program

What each process of a system does, and what its end does to the state.
-/

set_option autoImplicit false

namespace Pulse

/-- What a process does. -/
def Process.body : Process → Action (Option Process)
  | .consumer n => Action.consume n
  | .monitor n => Action.beginMonitor n
  | .monitorLoop n due => Action.monitorLoop n due
  | .driver n i => Action.beginDriver n i
  | .driverLoop n i due => Action.drive n i due
  | .run n i => Action.runTask n i
  | .pass number => do
    Action.keep number (.ok (← Action.pass))
    return none
  | .check number => do
    Action.keep number (← Action.check)
    return none

/-- The state after the end of a process. -/
def Process.epilogue : Process → System → System
  | .consumer n, s => Action.endConsumer n s
  | .monitor n, s | .monitorLoop n _, s => { s with monitor := s.monitor.endLoop n }
  | .driver n _, s | .driverLoop n _ _, s | .run n _, s =>
    { s with scheduler := s.scheduler.endProcess n }
  | .pass number, s | .check number, s =>
    if s.background.any fun b => b.1 = number then s
    else { s with background := s.background ++ [(number, .error .stopped)] }

/-- What a system does. -/
def System.program : Program System Process := ⟨Process.body, Process.epilogue⟩

/-- A system with a clock. -/
abbrev World : Type := Machine System Process

/-- A system in which nothing runs yet. -/
def System.begin (s : System) : World := Machine.start System.program s

end Pulse
