import Overseer.Failure
import Overseer.Log
import Overseer.Text.Quoted

/-!
# Configuration
-/

namespace Overseer

/-- How a daemon is to run. -/
structure Config where
  /-- Whether it goes to the background. -/
  isDaemon : Bool := false
  pidFile : Option String := none
  configFile : Option String := none
deriving DecidableEq, Repr

namespace Config

/-- Says which path is given but empty, if one is. -/
def fault? (c : Config) : Option Failure :=
  if c.pidFile = some "" then some (.config "pid_file must not be empty")
  else if c.configFile = some "" then some (.config "config_file must not be empty")
  else none

/-- Refuses empty paths. -/
def validate (c : Config) : Except Failure Unit × Records :=
  match c.fault? with
  | some f => (.error f, [])
  | none =>
    (.ok (),
      if c.pidFile.isSome && !c.isDaemon then
        [⟨.debug, .configuration, "pid_file is only written when running as a daemon"⟩]
      else [])

/-- The configuration on one line. -/
def describe (c : Config) : String :=
  let path : Option String → String
    | none => "None"
    | some p => "Some(" ++ Text.quote p ++ ")"
  "DaemonConfig \x7b is_daemon: " ++ toString c.isDaemon ++ ", pid_file: " ++ path c.pidFile ++
    ", config_file: " ++ path c.configFile ++ " \x7d"

end Config

end Overseer
