import Overseer.Application
import Overseer.Lifecycle.Daemon
import Overseer.PidFile

/-!
# Signals to a running daemon

The daemon that is meant is the process whose number stands in the PID file.
-/

namespace Overseer.Remote

/-- The process that a PID file names. -/
def target (path : Option String) (h : Host) : Except ProgramFailure Nat :=
  match path with
  | none => .error .noPidPath
  | some p =>
    match PidFile.read { path := p } h with
    | .error f => .error (.service f)
    | .ok none => .error (.noPidFile p)
    | .ok (some pid) => .ok pid

/-- Sends a control signal to the process that a PID file names. -/
def send (path : Option String) (signal : ControlSignal) :
    Act Site (Except ProgramFailure Unit) := do
  let d ← Act.get
  match target path d.app.host with
  | .error f => return .error f
  | .ok pid =>
    match ← Daemon.send signal pid with
    | .error f => return .error (.service f)
    | .ok () => return .ok ()

end Overseer.Remote
