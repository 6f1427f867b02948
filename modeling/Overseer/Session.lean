import Overseer.Application
import Overseer.Background
import Overseer.Console
import Overseer.Lifecycle.Daemon
import Overseer.Queue.Deque
import Overseer.Worker.Manager

/-!
# A session

The main thread of the program: it starts the daemon and the workers, polls and carries out
commands until the daemon stops, and takes everything down again. Meanwhile the console reads, the
tick worker ticks, signals arrive and files change. A list of moves, each of them a step of the main
thread or something that happens beside it, is one interleaving. The journal keeps what happened,
in order.
-/

namespace Overseer

/-- What a command writes. -/
structure Printed where
  output : String := ""
  complaints : String := ""
deriving DecidableEq, Repr

/-- The version of the program. -/
def version : String := "0.1.0"

namespace Command

/-- Carries a command out. -/
def handle {σ : Type} : Command → Act σ Printed
  | quit => do
    Act.log .info .program "Quit requested from console"
    discard (Act.request .stop)
    return {}
  | reload => do
    Act.log .info .program "Reload requested from console"
    discard (Act.request .reload)
    return {}
  | version => return { output := " v." ++ Overseer.version ++ "\n" }
  | help => return { complaints := Console.help ++ "\n" }

end Command

/-- How a session ends. -/
inductive Exit where
  | success
  | failure (f : ProgramFailure)
  | panicked (message : String)
  /-- Hooks nested deeper than was allowed. -/
  | unfinished
deriving DecidableEq, Repr

/-- Where the main thread stands. -/
inductive MainAt where
  | starting
  | polling
  /-- It waits a moment for a command. -/
  | fetching
  | handling (c : Command)
  | reporting
  /-- It is to stop the workers. -/
  | stopping
  /-- It is to close the daemon; the workers have been stopped. -/
  | closing (stopped : Except WorkerFailure Unit)
  | ended (exit : Exit)

/-- Where the console stands. -/
inductive ConsoleAt where
  /-- It waits for input. -/
  | reading
  /-- It has commands to queue, one after another, and `more` tells whether it reads on then. -/
  | queueing (todo : List Command) (more : Bool)
deriving DecidableEq, Repr

/-- The commands that the console has read and not queued. -/
def ConsoleAt.todo : ConsoleAt → List Command
  | reading => []
  | queueing todo _ => todo

/-- What can be seen of a session. -/
inductive JournalEntry where
  | daemon (e : Event Site)
  | workers (e : ManagerEvent)
  | said (r : Record)
  | printed (p : Printed)
  /-- A new process has taken over, and the one before it has ended. -/
  | forked
  /-- The PID file is given up. -/
  | unguarded (p : PidFile)

/-- What a session is to run. -/
structure Plan where
  config : Config := {}
  context : Context Site := Application.context
  /-- Hooks nest less than this deep. -/
  depth : Nat := 1
  /-- The number of the process that takes over in the background. -/
  childPid : Nat := 2

structure Session where
  daemon : Daemon Site
  manager : Manager := {}
  ticker : Ticker Site := { app := {} }
  /-- How many of the tick reports the main thread has taken. -/
  heard : Nat := 0
  /-- The bytes of a line at the console that has not ended. -/
  pending : Bytes := []
  console : ConsoleAt := .reading
  commands : Deque Command := {}
  guard : Option PidFile := none
  clock : Moment := ⟨1000000000, by decide⟩
  standing : MainAt := .starting
  journal : List JournalEntry := []

/-- What happens beside the main thread. -/
inductive Happening where
  /-- The console reads. -/
  | read (c : Console.Chunk)
  /-- The console takes its next step with what it has read. -/
  | queue
  /-- The tick worker takes its next step. -/
  | work (now : Moment)
  /-- The sleep of the tick worker is over. -/
  | elapse
  /-- A worker panics. -/
  | crash (id : TaskId) (p : Payload)
  | signal (s : OsSignal)
  /-- Somebody changes the files. -/
  | change (t : FileTree)

/-- One move of an interleaving. -/
inductive Session.Move where
  | main
  | beside (h : Happening)

namespace Session

/-- The number of the tick worker. -/
def tickTask : TaskId := 0

/-- The number of the console, which runs in the foreground only. -/
def consoleTask : TaskId := 1

/-- How long the main thread waits for a command. -/
def patience : Span := .ofMillis 200

def write (s : Session) (e : JournalEntry) : Session := { s with journal := s.journal ++ [e] }

def say (s : Session) (level : Level) (message : String) : Session :=
  s.write (.said ⟨level, .program, message⟩)

def print (s : Session) (p : Printed) : Session := s.write (.printed p)

def withHost (s : Session) (h : Host) : Session :=
  { s with daemon := { s.daemon with app := { s.daemon.app with host := h } } }

def host (s : Session) : Host := s.daemon.app.host

/-- Lets the main thread do something with the daemon. -/
def onDaemon {α : Type} (s : Session) (x : Act Site α) : Ending α × Session :=
  let (r, d) := x { s.daemon with trace := [] }
  (r, { s with
    daemon := { d with trace := [] }
    journal := s.journal ++ d.trace.map .daemon })

/-- Goes on with the workers as they are now. -/
def absorb (s : Session) (m : Manager) : Session :=
  { s with
    manager := { m with history := [] }
    journal := s.journal ++ m.history.reverse.map .workers }

/-- The tick worker as it ends once it is cancelled. -/
def lastTick (p : Plan) (s : Session) : Ticker Site :=
  Ticker.stop p.context.tick s.clock { s.ticker with app := s.daemon.app }

/-- How the body of a worker ends once it is cancelled. -/
def lastWords (p : Plan) (s : Session) (id : TaskId) : Verdict Unit :=
  if id = tickTask then (s.lastTick p).verdict?.getD (.value ()) else .value ()

/-- Whether the body of a worker has not ended. -/
def works (s : Session) (id : TaskId) : Bool :=
  match s.manager.worker? id with
  | some w => w.phase = .running
  | none => false

/-- Goes on with the tick worker as it is now. -/
def withTicker (s : Session) (t : Ticker Site) : Session :=
  { s with ticker := t, daemon := { s.daemon with app := t.app } }

/-- The manager after an operation. Workers end when they are waited for. -/
def managed (p : Plan) (s : Session) (op : ClientOp) : Manager :=
  s.manager.perform op fun id => [.finish id (s.lastWords p id)]

/-- The program ends: workers that are left are stopped, and the PID file is given up. -/
def finish (p : Plan) (s : Session) (exit : Exit) : Session :=
  let s := s.absorb (s.managed p .drop)
  let s := match s.guard with
    | none => s
    | some file =>
      let (h, said) := file.drop s.host
      let s := (s.withHost h).write (.unguarded file)
      { s with guard := none, journal := s.journal ++ said.map JournalEntry.said }
  { s with standing := .ended exit }

/-- Goes on with what was returned. Otherwise the program ends. -/
def andThen {α : Type} (p : Plan) (x : Ending α × Session) (f : α → Session → Session) : Session :=
  match x with
  | (.returned a, s) => f a s
  | (.panicked m, s) => s.finish p (.panicked m)
  | (.unfinished, s) => s.finish p .unfinished

/-- Runs the hooks of the daemon. -/
def run (p : Plan) (hook : Program Site) : Act Site Outcome := hook.run (Daemon.perform p.depth)

/-- Starts a worker, and ends the program if the system refuses it. -/
def startWorker (p : Plan) (s : Session) (name : String) (f : Session → Session) : Session :=
  let m := s.managed p (.start name none)
  let s := s.absorb m
  match m.started? with
  | some (.refused e) => s.finish p (.failure (.workerRefused e))
  | some (.panicked m) => s.finish p (.panicked m)
  | _ => f s

/-- Starts the workers. In the background there is no console. -/
def startWorkers (p : Plan) (s : Session) : Session :=
  startWorker p s "app-context" fun s =>
    if p.config.isDaemon then { s with standing := .polling }
    else
      startWorker p s "console" fun s =>
        { s.print { output := "Press the h key to display the Console Menu...\n" } with
          standing := .polling }

/-- Goes to the background, if that is asked for. -/
def detach (p : Plan) (s : Session) : Session :=
  if p.config.isDaemon then
    match Background.guardPath p.config.pidFile s.host with
    | .error f => s.finish p (.failure (.service f))
    | .ok path =>
      let s := (s.write (.said Background.leaving)).write .forked
      let s := { s with daemon := { s.daemon with pid := p.childPid } }
      let t := Background.takeOver path p.childPid s.host
      let s := s.withHost t.host
      let s := { s with journal := s.journal ++ t.said.map JournalEntry.said }
      match t.guard with
      | .error f => s.finish p (.failure (.service f))
      | .ok guard => startWorkers p { s with guard := guard }
  else startWorkers p s

/-- From the first word to the main loop. -/
def start (p : Plan) (s : Session) : Session :=
  let s := s.say .info ("Starting taskctl v" ++ version)
  andThen p (s.onDaemon Daemon.install) fun () s =>
  andThen p (s.onDaemon (Daemon.perform 1 (.bindAll p.context.hook))) fun _ s =>
  andThen p (s.onDaemon (run p (p.context.validate p.config))) fun valid s =>
  if valid.isFailed then s.finish p (.failure .misconfigured)
  else
    andThen p (s.onDaemon (Daemon.startAll (run p))) fun started s =>
    if started.isFailed then s.finish p (.failure .notStarted) else s.detach p

/-- Takes the reports of the tick worker. -/
def takeReports (s : Session) : Session :=
  let reports := s.ticker.reports.drop s.heard
  let s := reports.foldl (fun s r =>
    s.say .debug ("Application tick " ++ toString r.number ++ " (next in " ++
      toString r.interval.millis ++ " ms)")) s
  { s with heard := s.ticker.reports.length }

/-- Stops all workers. -/
def stopWorkers (p : Plan) (s : Session) : Session :=
  let s := s.say .info "The daemon process is stopping"
  let m := s.managed p .stopAll
  let s := if s.works tickTask then s.withTicker (s.lastTick p) else s
  { s.absorb m with standing := .closing (m.stoppedAll?.getD (.ok ())) }

/-- Closes the daemon. That it could not be closed weighs more than a worker that failed. -/
def close (p : Plan) (stopped : Except WorkerFailure Unit) (s : Session) : Session :=
  andThen p (s.onDaemon (Daemon.closeAll (run p))) fun closed s =>
  if closed.isFailed then s.finish p (.failure .notClosed)
  else
    match stopped with
    | .error f => s.finish p (.failure (.workerFailed f))
    | .ok () =>
      (s.say .info ("The daemon process ended successfully (" ++
        toString s.daemon.app.app.reloads ++ " reloads handled)")).finish p .success

/-- The main thread takes its next step. -/
def step (p : Plan) (s : Session) : Session :=
  match s.standing with
  | .starting => s.start p
  | .polling =>
    andThen p (s.onDaemon (Daemon.poll (run p))) fun goesOn s =>
    { s with standing := if goesOn then .fetching else .stopping }
  | .fetching =>
    match s.commands.pop s.clock .front (.upTo patience) with
    | (.got c, rest) => { s with commands := rest, standing := .handling c }
    | (.overflow, _) => s.finish p (.panicked Moment.overflow)
    | _ => { s with standing := .reporting }
  | .handling c =>
    andThen p (s.onDaemon c.handle) fun printed s =>
    { s.print printed with standing := .reporting }
  | .reporting => { s.takeReports with standing := .polling }
  | .stopping => s.stopWorkers p
  | .closing stopped => s.close p stopped
  | .ended _ => s

/-- The body of a worker ends. -/
def endWorker (s : Session) (id : TaskId) (v : Verdict Unit) : Session :=
  s.absorb (s.manager.attempt [.finish id v])

/-- The tick worker does something. -/
def onTicker (s : Session) (f : Ticker Site → Ticker Site) : Session :=
  if s.works tickTask then
    let t := f { s.ticker with app := s.daemon.app }
    let s := s.withTicker t
    match t.verdict? with
    | some v => s.endWorker tickTask v
    | none => s
  else s

/-- The console reads, unless it has not queued all it has read. -/
def hear (s : Session) (c : Console.Chunk) : Session :=
  match s.console with
  | .reading =>
    if s.works consoleTask then
      let (more, reading) := Console.forward s.pending c
      { s with
        pending := reading.pending
        console := .queueing reading.commands (more matches .ok true) }
    else s
  | .queueing _ _ => s

/-- The console queues its next command. With none left it reads on, or ends with its input. -/
def queue (s : Session) : Session :=
  if s.works consoleTask then
    match s.console with
    | .reading => s
    | .queueing (c :: todo) more =>
      { s with commands := s.commands.push .back c, console := .queueing todo more }
    | .queueing [] true => { s with console := .reading }
    | .queueing [] false => s.endWorker consoleTask (.value ())
  else s

/-- Something happens beside the main thread. -/
def happen (p : Plan) (s : Session) : Happening → Session
  | .read c => s.hear c
  | .queue => s.queue
  | .work now => { s with clock := now }.onTicker (·.work p.context.tick now)
  | .elapse => s.onTicker (·.elapse)
  | .crash id payload => s.endWorker id (.panicked payload)
  | .signal sig => (s.onDaemon (Act.modify (·.hear sig))).2
  | .change t => s.withHost { s.host with tree := t }

def move (p : Plan) (s : Session) : Session.Move → Session
  | .main => s.step p
  | .beside h => s.happen p h

/-- The session after an interleaving. -/
def play (p : Plan) (s : Session) (moves : List Session.Move) : Session := moves.foldl (move p) s

def isOver (s : Session) : Bool :=
  match s.standing with
  | .ended _ => true
  | _ => false

/-- Whether the main thread waits for something to happen. -/
def isIdle (s : Session) : Bool :=
  match s.standing with
  | .fetching => s.commands.isEmpty && s.daemon.word = .running
  | _ => false

/-- Lets the main thread go on until it has nothing to do, at most `n` steps. -/
def settle (p : Plan) (s : Session) : Nat → Session
  | 0 => s
  | n + 1 => if s.isIdle || s.isOver then s else (s.step p).settle p n

/-- Steps that are enough to carry out all commands and to end. -/
def enough (s : Session) : Nat := 4 * s.commands.size + 16

/-- Something happens, the console queues what it has read, and the main thread does what follows
from it. -/
def respond (p : Plan) (s : Session) (h : Happening) : Session :=
  let s := s.happen p h
  let s := Nat.repeat queue (s.console.todo.length + 1) s
  s.settle p s.enough

/-- The exit, once the session has ended. -/
def exit? (s : Session) : Option Exit :=
  match s.standing with
  | .ended e => some e
  | _ => none

/-- What was said, in order. -/
def recordsOf (journal : List JournalEntry) : Records :=
  journal.filterMap fun
    | .daemon (.logged r) | .workers (.logged r) | .said r => some r
    | _ => none

/-- What was written, in order. -/
def printedOf (journal : List JournalEntry) : Printed :=
  journal.foldl (fun p e =>
    match e with
    | .printed q => ⟨p.output ++ q.output, p.complaints ++ q.complaints⟩
    | _ => p) {}

end Session

end Overseer
