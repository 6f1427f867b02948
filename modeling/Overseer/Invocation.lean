import Overseer.CommandLine
import Overseer.Log.Filter
import Overseer.Remote
import Overseer.Session

/-!
# Calls of the program

From a command line, an environment and an input to an exit status and what was written. A call
either sends a signal to a running daemon or is a session of its own.
-/

namespace Overseer

/-- One call of the program and what it finds. -/
structure Invocation where
  arguments : List String
  environment : Environment := {}
  /-- The environment variable that holds a log filter. -/
  logFilter : Option String := none
  input : Bytes := []
  host : Host := {}
  /-- The day, as log files are named. -/
  date : String := ""
  /-- The processes of the call and of the background. -/
  pid : Nat := 2
  childPid : Nat := 3
  /-- The other processes that can be sent signals. -/
  neighbours : List Nat := []

/-- What a call leaves behind. -/
structure Report where
  status : Nat
  output : String := ""
  /-- What is written where complaints go, apart from records and from what is wrong with the
  command line. -/
  complaints : String := ""
  /-- The records that pass the filter. -/
  records : Records := []
  /-- Why there is no log. -/
  refusal : Option String := none
  host : Host

namespace Invocation

/-- How the program is called, for those who ask. -/
def usage : String :=
  "Signal-driven background task controller\n\n" ++
    "Usage: taskctl [OPTIONS]\n\n" ++
    "Options:\n" ++
    "  -D, --background             Run in the background as a daemon\n" ++
    "  -C, --cfgfile <CONFIG_FILE>  Configuration file path [env: TASKCTL_CONFIG=]\n" ++
    "  -P, --pidfile <PID_FILE>     PID file path, written after daemonizing " ++
    "[env: TASKCTL_PIDFILE=]\n" ++
    "      --log-level <LOG_LEVEL>  Log filter directive, overrides RUST_LOG\n" ++
    "      --log-dir <LOG_DIR>      Also write logs to daily rotated files in this directory\n" ++
    "  -s, --signal <SIGNAL>        Send a signal (stop, reload, user1, user2) to the daemon " ++
    "named by the PID file and exit\n" ++
    "  -h, --help                   Print help\n" ++
    "  -V, --version                Print version\n"

/-- What answers a command line that is not carried out. -/
def answer : UsageFault → String
  | .versionAsked => "taskctl " ++ version ++ "\n"
  | .helpAsked => usage
  | _ => ""

/-- The filter that a command line asks for, or the environment as far as it makes sense. -/
def chooseFilter (level : Option String) (fallback : Option String) : Except String Filter :=
  match level with
  | some text =>
    match Filter.parse text with
    | .ok f => .ok f
    | .error e => .error ("invalid log level '" ++ text ++ "': " ++ e.message)
  | none => .ok ((fallback.bind (Filter.parse · |>.toOption)).getD .standard)

/-- Makes the directory of the log and the file of the day. -/
def openLog (dir : Option String) (date : String) (h : Host) : Except String Unit × Host :=
  match dir with
  | none => (.ok (), h)
  | some d =>
    match h.makeDirectories d with
    | (.error e, h) => (.error ("creating log directory " ++ d ++ ": " ++ e.message), h)
    | (.ok (), h) =>
      let path := d ++ "/taskctl." ++ date ++ ".log"
      if h.pathExists path then (.ok (), h)
      else
        match h.write path [] with
        | .ok h => (.ok (), h)
        | .error e => (.error ("creating log file appender: " ++ e.message), h)

/-- What is said when the program does not end well. -/
def verdict (f : ProgramFailure) : Record := ⟨.error, .program, f.message⟩

/-- A call that sends a signal. -/
def notify (i : Invocation) (c : CommandLine) (signal : ControlSignal) (h : Host) :
    Exit × List JournalEntry × Host :=
  let d : Daemon Site := { app := { host := h }, pid := i.pid, neighbours := i.neighbours }
  let (r, s) := ({ daemon := d } : Session).onDaemon (Remote.send c.pidFile signal)
  (match r with
    | .returned (.ok ()) => .success
    | .returned (.error f) => .failure f
    | .panicked m => .panicked m
    | .unfinished => .unfinished, s.journal, h)

/-- A call that is a session. It hears all of its input at once, and then that there is no more. -/
def serve (i : Invocation) (c : CommandLine) (h : Host) : Exit × List JournalEntry × Host :=
  let p : Plan := { config := c.config, childPid := i.childPid }
  let s : Session := { daemon := { app := { host := h }, attached := true, pid := i.pid } }
  let s := s.settle p s.enough
  let s := s.respond p (.read (.bytes i.input))
  let s := s.respond p (.read (.bytes []))
  (s.exit?.getD .unfinished, s.journal, s.host)

/-- The journal of the process that was called, and whether another one has taken over. -/
def foreground (journal : List JournalEntry) : List JournalEntry × Bool :=
  let isFork : JournalEntry → Bool
    | .forked => true
    | _ => false
  (journal.takeWhile (!isFork ·), journal.any isFork)

/-- What the called process leaves behind. One that was taken over from has done its work. -/
def report (f : Filter) (exit : Exit) (journal : List JournalEntry) (h : Host) : Report :=
  let (journal, isForked) := foreground journal
  let said := Session.recordsOf journal
  let printed := Session.printedOf journal
  let close (status : Nat) (more : Records) (complaints : String) : Report :=
    { status := status, output := printed.output, complaints := printed.complaints ++ complaints
      records := (said ++ more).filter f.passes, host := h }
  if isForked then close 0 [] ""
  else
    match exit with
    | .success => close 0 [] ""
    | .failure e => close 1 [verdict e] ""
    | .panicked m => close 101 [] (m ++ "\n")
    | .unfinished => close 1 [] ""

/-- Carries out a call. -/
def perform (i : Invocation) : Report :=
  match CommandLine.parse i.arguments i.environment with
  | .error e => { status := e.status, output := answer e, host := i.host }
  | .ok c =>
    let refuse (reason : String) (h : Host) : Report :=
      { status := 1, refusal := some ("Failed to initialize logging: " ++ reason), host := h }
    match chooseFilter c.logLevel i.logFilter with
    | .error reason => refuse reason i.host
    | .ok f =>
      match openLog c.logDir i.date i.host with
      | (.error reason, h) => refuse reason h
      | (.ok (), h) =>
        let (exit, journal, h) := match c.signal with
          | some signal => i.notify c signal h
          | none => i.serve c h
        report f exit journal h

end Invocation

end Overseer
