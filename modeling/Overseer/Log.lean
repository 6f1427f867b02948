/-!
# Log records

What a part of the program says about its work: how grave it is, which part speaks, and the text.
-/

namespace Overseer

/-- How grave a record is, from the gravest. -/
inductive Level where
  | error
  | warn
  | info
  | debug
  | trace
deriving DecidableEq, Repr

namespace Level

/-- Greater levels are more talkative. -/
def rank : Level → Nat
  | error => 1
  | warn => 2
  | info => 3
  | debug => 4
  | trace => 5

def name : Level → String
  | error => "ERROR"
  | warn => "WARN"
  | info => "INFO"
  | debug => "DEBUG"
  | trace => "TRACE"

end Level

/-- The part of the program that speaks. -/
inductive Source where
  | program
  | application
  | console
  | ticker
  | lifecycle
  | signals
  | configuration
  | pidFile
  | background
  | manager
  | thread
deriving DecidableEq, Repr

/-- The name under which filters select a source. -/
def Source.path : Source → String
  | program => "taskctl"
  | application => "taskctl::app_context"
  | console => "taskctl::console"
  | ticker => "taskctl::worker"
  | lifecycle => "taskctl_daemon::daemon"
  | signals => "taskctl_daemon::signal"
  | configuration => "taskctl_daemon::config"
  | pidFile => "taskctl_daemon::pid"
  | background => "taskctl_daemon::process"
  | manager => "taskctl_workqueue::manager"
  | thread => "taskctl_workqueue::scoped"

structure Record where
  level : Level
  source : Source
  message : String
deriving DecidableEq, Repr

abbrev Records := List Record

namespace Record

/-- The record as one line, without its source. -/
def line (r : Record) : String := r.level.name ++ " " ++ r.message

/-- The record as one line that names its source. -/
def sourcedLine (r : Record) : String :=
  r.level.name ++ " " ++ r.source.path ++ ": " ++ r.message

end Record

end Overseer
