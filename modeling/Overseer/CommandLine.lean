import Overseer.Config
import Overseer.Signal

/-!
# Command lines

Arguments are read one after another. A parameter that has been named waits for its value, and is
looked at once its value can grow no more: when the next option is met, or at the end. Environment
variables stand in for parameters that are not given.
-/

namespace Overseer

/-- What an operator asks for. -/
structure CommandLine where
  background : Bool := false
  configFile : Option String := none
  pidFile : Option String := none
  logLevel : Option String := none
  logDir : Option String := none
  signal : Option ControlSignal := none
deriving DecidableEq, Repr

/-- The environment variables that stand in for parameters. -/
structure Environment where
  configFile : Option String := none
  pidFile : Option String := none
deriving DecidableEq, Repr

/-- Why a command line is not carried out. -/
inductive UsageFault where
  | unknownArgument
  /-- A value is missing or must not be empty. -/
  | invalidValue
  /-- A value is not one of those that have a meaning. -/
  | unknownValue
  | repeated
  /-- A switch was given a value. -/
  | needlessValue
  /-- A signal needs to be told where the PID file is. -/
  | missingParameter
  | helpAsked
  | versionAsked
deriving DecidableEq, Repr

/-- The exit status. Asking for help or for the version is no mistake. -/
def UsageFault.status : UsageFault → Nat
  | helpAsked | versionAsked => 0
  | _ => 2

/-- An option that takes a value. -/
inductive Parameter where
  | configFile
  | pidFile
  | logLevel
  | logDir
  | signal
deriving DecidableEq, Repr

/-- An option that takes none. -/
inductive Switch where
  | background
  | help
  | version
deriving DecidableEq, Repr

inductive Flag where
  | parameter (p : Parameter)
  | switch (s : Switch)
deriving DecidableEq, Repr

namespace Flag

def ofLong? (name : String) : Option Flag :=
  if name = "background" then some (switch .background)
  else if name = "cfgfile" then some (parameter .configFile)
  else if name = "pidfile" then some (parameter .pidFile)
  else if name = "log-level" then some (parameter .logLevel)
  else if name = "log-dir" then some (parameter .logDir)
  else if name = "signal" then some (parameter .signal)
  else if name = "help" then some (switch .help)
  else if name = "version" then some (switch .version)
  else none

def ofShort? : Char → Option Flag
  | 'D' => some (switch .background)
  | 'C' => some (parameter .configFile)
  | 'P' => some (parameter .pidFile)
  | 's' => some (parameter .signal)
  | 'h' => some (switch .help)
  | 'V' => some (switch .version)
  | _ => none

end Flag

namespace CommandLine

/-- Whether a parameter has been given. -/
def holds (c : CommandLine) : Parameter → Bool
  | .configFile => c.configFile.isSome
  | .pidFile => c.pidFile.isSome
  | .logLevel => c.logLevel.isSome
  | .logDir => c.logDir.isSome
  | .signal => c.signal.isSome

/-- A path must not be empty. -/
def path (value : String) : Except UsageFault (Option String) :=
  if value.isEmpty then .error .invalidValue else .ok (some value)

/-- Gives a parameter its value. -/
def give (c : CommandLine) (p : Parameter) (value : String) : Except UsageFault CommandLine :=
  match p with
  | .configFile => (path value).map fun v => { c with configFile := v }
  | .pidFile => (path value).map fun v => { c with pidFile := v }
  | .logLevel => .ok { c with logLevel := some value }
  | .logDir => (path value).map fun v => { c with logDir := v }
  | .signal =>
    match ControlSignal.parse value with
    | .ok s => .ok { c with signal := some s }
    | .error _ => .error .unknownValue

/-- Gives a parameter its value, which it must not have yet. -/
def giveOnce (c : CommandLine) (p : Parameter) (value : String) : Except UsageFault CommandLine :=
  if c.holds p then .error .repeated else c.give p value

def turnOn (c : CommandLine) : Switch → Except UsageFault CommandLine
  | .background => if c.background then .error .repeated else .ok { c with background := true }
  | .help => .error .helpAsked
  | .version => .error .versionAsked

/-- Fills in a parameter that is not given. -/
def fallBack (c : CommandLine) (p : Parameter) : Option String → Except UsageFault CommandLine
  | some value => if c.holds p then .ok c else c.give p value
  | none => .ok c

/-- The configuration that a command line describes. -/
def config (c : CommandLine) : Config := ⟨c.background, c.pidFile, c.configFile⟩

/-- A parameter that has been named, and its value if that has come. -/
structure Pending where
  parameter : Parameter
  value : Option String := none
deriving DecidableEq, Repr

/-- A command line that is being read. -/
structure Draft where
  given : CommandLine := {}
  pending : Option Pending := none
  /-- Whether two dashes have ended the options. -/
  isOver : Bool := false
deriving DecidableEq, Repr

namespace Draft

/-- Looks at the pending parameter: at whether it has a value first, then at whether it was given
before, and at the value last. -/
def settle (d : Draft) : Except UsageFault Draft :=
  match d.pending with
  | none => .ok d
  | some ⟨_, none⟩ => .error .invalidValue
  | some ⟨p, some value⟩ =>
    (d.given.giveOnce p value).map fun c => { d with given := c, pending := none }

/-- Meets a parameter, whose value may stand in the same argument. -/
def meet (d : Draft) (p : Parameter) (attached : Option String) : Except UsageFault Draft := do
  let d ← d.settle
  match attached with
  | some value => return { d with given := ← d.given.giveOnce p value }
  | none => return { d with pending := some ⟨p, none⟩ }

def turnOn (d : Draft) (s : Switch) : Except UsageFault Draft := do
  let d ← d.settle
  return { d with given := ← d.given.turnOn s }

/-- The value behind the name of an option, which may follow an equals sign. -/
def attached : List Char → Option String
  | [] => none
  | '=' :: cs => some (String.ofList cs)
  | cs => some (String.ofList cs)

/-- Reads options of one letter each. The first one that takes a value takes the rest. -/
def readShort (d : Draft) : List Char → Except UsageFault Draft
  | [] => .ok d
  | c :: cs =>
    match Flag.ofShort? c with
    | none => .error .unknownArgument
    | some (.switch s) => (d.turnOn s).bind (·.readShort cs)
    | some (.parameter p) => d.meet p (attached cs)

/-- Reads an option that is written out. -/
def readLong (d : Draft) (cs : List Char) : Except UsageFault Draft :=
  let name := String.ofList (cs.takeWhile (· ≠ '='))
  let value := attached (cs.dropWhile (· ≠ '='))
  match Flag.ofLong? name, value with
  | none, _ => .error .unknownArgument
  | some (.switch _), some _ => .error .needlessValue
  | some (.switch s), none => d.turnOn s
  | some (.parameter p), value => d.meet p value

/-- Reads an argument that is no option, so it has to be the value of the one before. -/
def readValue (d : Draft) (value : String) : Except UsageFault Draft :=
  match d.pending with
  | some ⟨p, none⟩ => .ok { d with pending := some ⟨p, some value⟩ }
  | _ => .error .unknownArgument

/-- Reads an argument. A single dash is a value. -/
def read (d : Draft) (argument : String) : Except UsageFault Draft :=
  if d.isOver then .error .unknownArgument
  else
    match argument.toList with
    | ['-', '-'] => .ok { d with isOver := true }
    | '-' :: '-' :: cs => d.readLong cs
    | '-' :: c :: cs => d.readShort (c :: cs)
    | _ => d.readValue argument

/-- What has been read, the environment taken into account. -/
def finish (d : Draft) (env : Environment) : Except UsageFault CommandLine := do
  let c := (← d.settle).given
  let c ← c.fallBack .configFile env.configFile
  let c ← c.fallBack .pidFile env.pidFile
  if c.signal.isSome && c.pidFile.isNone then throw .missingParameter
  return c

end Draft

/-- Reads the arguments behind the program's name. -/
def parse (arguments : List String) (env : Environment) : Except UsageFault CommandLine := do
  (← arguments.foldlM Draft.read {}).finish env

end CommandLine

end Overseer
