import Overseer.Lifecycle.Program

/-!
# The daemon

One word of state, five hook slots and the transitions between states. Requests from signal
handlers and from other threads overwrite the word at any time: `arrivals` lists the ones that
come in before each access to the word, so a daemon with its arrivals stands for one interleaving.
`trace` keeps what happened, in order.
-/

namespace Overseer

/-- What changes the word from outside. -/
inductive Arrival where
  | request (s : State)
  | signal (s : OsSignal)
deriving DecidableEq, Repr

/-- The ways from one state to the next that run a hook. -/
inductive Transition where
  | starting
  | handling (request : State)
  | closing
deriving DecidableEq, Repr

/-- The slot whose hook a transition runs. -/
def Transition.slot : Transition → Slot
  | starting => .start
  | handling request => request.slot
  | closing => .close

/-- What can be seen of a run. -/
inductive Event (σ : Type) where
  /-- The word was read. -/
  | loaded (s : State)
  /-- The word was written, by a transition or by hand. -/
  | stored (writer : Option Transition) (s : State)
  /-- A state was asked for, and either took its place in the word or was refused. -/
  | requested (s : State) (accepted : Bool)
  /-- A waiting request was taken from the word, which now says `running`. -/
  | taken (request : State)
  /-- The request was no longer in the word. -/
  | superseded (request : State)
  | bound (slot : Slot) (hook : Program σ)
  | boundAll (hooks : Slot → Program σ)
  | cleared
  /-- A transition looked its hook up and found the word as given. -/
  | invoked (t : Transition) (hook : Option (Program σ)) (word : State)
  /-- The hook of a transition came back, or there was none. -/
  | returned (t : Transition) (outcome : Outcome)
  | killed (k : Kill)
  | logged (r : Record)
  | began (op : Op σ)
  /-- An operation that had begun gave an answer. -/
  | ended (op : Op σ) (answer : Answer)

structure Daemon (σ : Type) where
  /-- The application's state. -/
  app : σ
  word : State := .start
  slots : Slot → Option (Program σ) := fun _ => none
  /-- Whether signals to this process are meant for this daemon. -/
  attached : Bool := false
  /-- Whether signals are listened to. -/
  installed : Bool := false
  /-- The process that runs the daemon. -/
  pid : Nat := 1
  /-- The other processes that can be sent signals. -/
  neighbours : List Nat := []
  arrivals : List (List Arrival) := []
  trace : List (Event σ) := []

/-- How a run ends. `unfinished` means that hooks nested deeper than was allowed. -/
inductive Ending (α : Type) where
  | returned (a : α)
  | panicked (message : String)
  | unfinished
deriving DecidableEq, Repr

/-- A run on a daemon. -/
def Act (σ α : Type) : Type := Daemon σ → Ending α × Daemon σ

variable {σ α β : Type}

namespace Act

/-- The run that returns at once. -/
def done (a : α) : Act σ α := fun d => (.returned a, d)

def panic (message : String) : Act σ α := fun d => (.panicked message, d)

def giveUp : Act σ α := fun d => (.unfinished, d)

/-- Runs on with what the first run returned. A panic skips the rest. -/
def andThen (x : Act σ α) (f : α → Act σ β) : Act σ β := fun d =>
  match x d with
  | (.returned a, d') => f a d'
  | (.panicked m, d') => (.panicked m, d')
  | (.unfinished, d') => (.unfinished, d')

instance : Monad (Act σ) where
  pure := done
  bind := andThen

/-- Makes an answer of a panic. -/
def attempt (x : Act σ Answer) : Act σ Answer := fun d =>
  match x d with
  | (.panicked m, d') => (.returned (.panicked m), d')
  | r => r

end Act

namespace Daemon

/-- Adds to the trace. -/
def note (d : Daemon σ) (e : Event σ) : Daemon σ := { d with trace := d.trace ++ [e] }

/-- Puts a request in the word, unless the daemon has stopped. -/
def ask (d : Daemon σ) (s : State) : Daemon σ :=
  if d.word = .stop then d.note (.requested s false)
  else { d with word := s }.note (.requested s true)

/-- A signal arrives. Nobody hears it before it is listened to. -/
def hear (d : Daemon σ) (s : OsSignal) : Daemon σ :=
  if d.attached && d.installed then d.ask s.requestedState else d

def receive (d : Daemon σ) : Arrival → Daemon σ
  | .request s => d.ask s
  | .signal s => d.hear s

/-- Lets in what arrives before the next access to the word. -/
def arrive (d : Daemon σ) : Daemon σ :=
  match d.arrivals with
  | [] => d
  | now :: later => now.foldl receive { d with arrivals := later }

end Daemon

namespace Act

/-- Changes the daemon. -/
def modify (f : Daemon σ → Daemon σ) : Act σ Unit := fun d => (.returned (), f d)

def get : Act σ (Daemon σ) := fun d => (.returned d, d)

def note (e : Event σ) : Act σ Unit := modify (·.note e)

def log (level : Level) (source : Source) (message : String) : Act σ Unit :=
  note (.logged ⟨level, source, message⟩)

/-- Reads the word. -/
def load : Act σ State := fun d =>
  let d := d.arrive
  (.returned d.word, d.note (.loaded d.word))

/-- Writes the word. -/
def store (writer : Option Transition) (s : State) : Act σ Unit := fun d =>
  (.returned (), { d.arrive with word := s }.note (.stored writer s))

/-- Asks for a state and tells whether it was accepted. -/
def request (s : State) : Act σ Bool := fun d =>
  let d := d.arrive
  (.returned (d.word != .stop), d.ask s)

/-- Takes a request from the word, if it is still there. -/
def take (request : State) : Act σ Bool := fun d =>
  let d := d.arrive
  if d.word = request then
    (.returned true, { d with word := .running }.note (.taken request))
  else (.returned false, d.note (.superseded request))

end Act

/-- Runs a program whose operations are performed by `perform`. -/
def Program.run (perform : Op σ → Act σ Answer) : Program σ → Act σ Outcome
  | .done o => .done o
  | .panic m => .panic m
  | .perform op next => .andThen (.attempt (perform op)) fun a => (next a).run perform
  | .touch change next => fun d =>
    let (app, records) := change d.app
    (next d.app).run perform
      { d with app := app, trace := d.trace ++ records.map .logged }

namespace Daemon

/-- Looks a transition's hook up and runs it by `run`. The slots may change meanwhile. -/
def invoke (run : Program σ → Act σ Outcome) (t : Transition) : Act σ Outcome := do
  let d ← Act.get
  let hook := d.slots t.slot
  Act.note (.invoked t hook d.word)
  let outcome ← match hook with
    | none => Act.done .unset
    | some p => run p
  Act.note (.returned t outcome)
  return outcome

/-- The daemon runs from now on, whatever was asked of it before. -/
def startAll (run : Program σ → Act σ Outcome) : Act σ Outcome := do
  Act.store (some .starting) .running
  let outcome ← invoke run .starting
  Act.log .info .lifecycle ("Daemon started (start hook: " ++ outcome.name ++ ")")
  return outcome

/-- Handles a request that was found waiting. A failed hook stops the daemon. -/
def dispatch (run : Program σ → Act σ Outcome) (request : State) : Act σ Unit := do
  if ← Act.take request then
    let outcome ← invoke run (.handling request)
    if outcome.isFailed then
      Act.store (some (.handling request)) .stop
      Act.log .warn .lifecycle (request.name ++ " hook failed, daemon stopping")
    else
      Act.log .info .lifecycle
        ("Handled " ++ request.name ++ " request (hook: " ++ outcome.name ++ ")")

/-- Handles a waiting request and tells whether the daemon goes on. -/
def poll (run : Program σ → Act σ Outcome) : Act σ Bool := do
  let current ← Act.load
  if current.isTransient then dispatch run current
  let resolved ← Act.load
  return resolved.isAlive

/-- The daemon has stopped before its last hook runs. -/
def closeAll (run : Program σ → Act σ Outcome) : Act σ Outcome := do
  Act.store (some .closing) .stop
  let outcome ← invoke run .closing
  Act.log .info .lifecycle ("Daemon closed (close hook: " ++ outcome.name ++ ")")
  return outcome

/-- Starts listening to signals. A second call does nothing. -/
def install : Act σ Unit := do
  let d ← Act.get
  unless d.installed do
    Act.modify fun d => { d with installed := true }
    Act.log .info .signals
      "OS signal handlers installed (SIGINT, SIGTERM, SIGHUP, SIGUSR1, SIGUSR2)"

/-- Whether a kill reaches the process of the daemon. -/
def isTarget (d : Daemon σ) (k : Kill) : Bool := k.target = 0 || k.target = d.pid

/-- Sends a control signal to a process. -/
def send (signal : ControlSignal) (pid : Nat) : Act σ (Except Failure Unit) := do
  match signal.order pid with
  | .error f => return .error f
  | .ok k =>
    Act.note (.killed k)
    let d ← Act.get
    if d.isTarget k || d.neighbours.contains k.target then
      if d.isTarget k then Act.modify (·.hear k.signal)
      Act.log .info .signals ("Sent " ++ signal.name ++ " to PID " ++ toString pid)
      return .ok ()
    else return .error (.signalSend signal.name pid "ESRCH: No such process")

/-- The daemon on one line: its state, and which slots are bound. -/
def describe (d : Daemon σ) : String :=
  let isBound (s : Slot) := toString (d.slots s).isSome
  "Daemon \x7b state: " ++ d.word.title ++ ", before_start: " ++ isBound .start ++
    ", before_reload: " ++ isBound .reload ++ ", on_user1: " ++ isBound .user1 ++
    ", on_user2: " ++ isBound .user2 ++ ", before_close: " ++ isBound .close ++ " \x7d"

/-- Performs an operation. The hooks it calls are run by `run`. -/
def execute (run : Program σ → Act σ Outcome) : Op σ → Act σ Answer
  | .state => do return .state (← Act.load)
  | .isRunning => do return .bool ((← Act.load) = .running)
  | .describe => do
    discard Act.load
    return .text (describe (← Act.get))
  | .request s => do return .bool (← Act.request s)
  | .requestReload => do
    discard (Act.request .reload)
    return .unit
  | .setState s => do
    Act.log .debug .lifecycle ("Daemon state set to " ++ s.name)
    Act.store none s
    return .unit
  | .startAll => do return .outcome (← startAll run)
  | .poll => do return .bool (← poll run)
  | .closeAll => do return .outcome (← closeAll run)
  | .bind slot hook => do
    Act.modify fun d =>
      { d with slots := fun s => if s = slot then some hook else d.slots s }.note (.bound slot hook)
    return .unit
  | .bindAll hooks => do
    Act.modify fun d => { d with slots := fun s => some (hooks s) }.note (.boundAll hooks)
    Act.log .debug .lifecycle "Lifecycle context bound to daemon hooks"
    return .unit
  | .clearHooks => do
    Act.modify fun d => { d with slots := fun _ => none }.note .cleared
    return .unit
  | .raise signal => do
    Act.modify fun d => d.arrive.hear signal
    return .unit
  | .send signal pid => do return .sent (← send signal pid)
  | .install => do
    install
    return .unit

/-- Performs an operation in which hooks nest less than `depth` deep. -/
def perform (depth : Nat) (op : Op σ) : Act σ Answer :=
  match depth with
  | 0 => .giveUp
  | n + 1 => do
    Act.note (.began op)
    let answer ← execute (Program.run (perform n)) op
    Act.note (.ended op answer)
    return answer

/-- What was said, in order. -/
def records (d : Daemon σ) : Records :=
  d.trace.filterMap fun
    | .logged r => some r
    | _ => none

end Daemon

end Overseer
