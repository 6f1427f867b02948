import Overseer.Context
import Overseer.System.FileTree

/-!
# The application

It remembers the configuration file of the last validation that passed, looks for that file at each
reload, and counts reloads and ticks. All its hooks pass, except that a file has to be there.
-/

namespace Overseer

structure Application where
  /-- The configuration file of the last validation that passed. -/
  configFile : Option String := none
  /-- How many reloads there were. The program counts in a word of 64 bits, which would start over
  after 18446744073709551616 of them; no run gets there, and the count here has no bound. -/
  reloads : Nat := 0
  /-- How many ticks there were, without a bound like the reloads. -/
  ticks : Nat := 0
deriving DecidableEq, Repr

/-- The application and the files it finds. -/
structure Site where
  app : Application := {}
  host : Host := {}
deriving DecidableEq, Repr

namespace Application

/-- What a hook comes to, what it leaves behind, and what it says. -/
abbrev Turn := Outcome × Site × Records

def say (level : Level) (message : String) : Record := ⟨level, .application, message⟩

/-- Whether the configuration file is there. -/
def lookFor (path : String) (h : Host) : Bool × Records :=
  let looking := say .debug ("Validating path: " ++ path)
  if h.pathExists path then (true, [looking])
  else (false, [looking, say .warn ("Configuration file \"" ++ path ++ "\" doesn't exist")])

/-- Passes if no path is empty and the configuration file, if one is named, is there. -/
def validate (c : Config) (s : Site) : Turn :=
  let beginning := say .info "Validating the configuration"
  match c.validate with
  | (.error f, said) =>
    (.failed, s,
      beginning :: said ++ [say .warn ("Invalid daemon configuration: " ++ f.message)])
  | (.ok (), said) =>
    let (isThere, looked) := match c.configFile with
      | some path => lookFor path s.host
      | none => (true, [])
    (.ofBool isThere,
      if isThere then { s with app := { s.app with configFile := c.configFile } } else s,
      beginning :: said ++ looked)

/-- Counts the reload and looks for the remembered file, which may be gone by now. -/
def reconfigure (s : Site) : Turn :=
  let (isThere, looked) := match s.app.configFile with
    | some path => lookFor path s.host
    | none => (true, [])
  (.ofBool isThere, { s with app := { s.app with reloads := s.app.reloads + 1 } },
    say .info "Reconfiguring the application" :: looked)

/-- Says so and passes. -/
def announce (message : String) (s : Site) : Turn := (.passed, s, [say .info message])

def start : Site → Turn := announce "Starting the application"

def restart : Site → Turn := announce "Restarting the application"

def user1 : Site → Turn := announce "Processing the USER1 signal"

def user2 : Site → Turn := announce "Processing the USER2 signal"

def shutdown : Site → Turn := announce "Shutting down the application"

/-- Counts the tick and follows the schedule. -/
def tick (least : Span) (s : Site) : Span × Site × Records :=
  (Schedule.next least, { s with app := { s.app with ticks := s.app.ticks + 1 } },
    [say .debug
      ("Processing the context, minimal duration: " ++ toString least.millis ++ " ms")])

/-- The application as daemons and workers run it. -/
def context : Context Site where
  validate c := .act (validate c)
  start := .act start
  reconfigure := .act reconfigure
  restart := .act restart
  user1 := .act user1
  user2 := .act user2
  shutdown := .act shutdown
  tick least s :=
    let (interval, s, _) := tick least s
    (.value interval, s)

end Application

end Overseer
