/-!
# Failures of the daemon's services
-/

namespace Overseer

/-- Why a service could not be rendered. Paths are given as their owner wrote them. -/
inductive Failure where
  | pidFileCreation (path reason : String)
  | pidFileRead (path reason : String)
  | pidFileRemoval (path reason : String)
  | fork (reason : String)
  | signalSetup (reason : String)
  | signalSend (signal : String) (pid : Nat) (reason : String)
  | config (reason : String)
  | io (reason : String)
deriving DecidableEq, Repr

namespace Failure

def message : Failure → String
  | pidFileCreation path reason => "Failed to create PID file at " ++ path ++ ": " ++ reason
  | pidFileRead path reason => "Failed to read PID file at " ++ path ++ ": " ++ reason
  | pidFileRemoval path reason => "Failed to remove PID file at " ++ path ++ ": " ++ reason
  | fork reason => "Failed to daemonize process: " ++ reason
  | signalSetup reason => "Failed to set up signal handlers: " ++ reason
  | signalSend signal pid reason =>
    "Failed to send " ++ signal ++ " to PID " ++ toString pid ++ ": " ++ reason
  | config reason => "Configuration error: " ++ reason
  | io reason => "IO error: " ++ reason

end Failure

/-- Why a worker thread did not do its work. -/
inductive WorkerFailure where
  | spawn (name reason : String)
  | panicked (name message : String)
deriving DecidableEq, Repr

namespace WorkerFailure

def message : WorkerFailure → String
  | spawn name reason => "Failed to spawn thread '" ++ name ++ "': " ++ reason
  | panicked name text => "Thread '" ++ name ++ "' panicked: " ++ text

end WorkerFailure

/-- Why the program does not end well. -/
inductive ProgramFailure where
  | misconfigured
  | notStarted
  | notClosed
  /-- A worker could not be started. -/
  | workerRefused (f : WorkerFailure)
  /-- A worker that was stopped had failed. -/
  | workerFailed (f : WorkerFailure)
  | service (f : Failure)
  /-- There is a signal to send, but no PID file was named. -/
  | noPidPath
  | noPidFile (path : String)
deriving DecidableEq, Repr

namespace ProgramFailure

def message : ProgramFailure → String
  | misconfigured => "AppContext configuration mismatch"
  | notStarted => "Error starting the daemon"
  | notClosed => "Error closing the daemon"
  | workerRefused f => f.message
  | workerFailed f => "stopping workers: " ++ f.message
  | service f => f.message
  | noPidPath => "sending a signal requires --pidfile"
  | noPidFile path => "no PID file at " ++ path

end ProgramFailure

end Overseer
