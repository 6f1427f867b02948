import Overseer.Worker.Thread

/-!
# The manager of workers

A table of the workers that were started and not yet stopped, behind a lock. Clients start and
stop workers; workers run, look at the manager through a handle, and end. Each client takes its
operation in steps that others may come between, so a list of actions is one interleaving. The
lock is held for the steps that change the table and never while a worker is waited for.
-/

namespace Overseer

/-- The number of a worker. Numbers are handed out in order and never twice. The program draws them
from a word of 64 bits, which would start over after 18446744073709551616 workers; no run gets
there, and the numbers here have no bound. -/
abbrev TaskId := Nat

/-- The number as the program writes it. -/
def TaskId.label (id : TaskId) : String := "task-" ++ toString id

/-- Where the thread of a worker stands. -/
inductive WorkerAt where
  | running
  | ended (verdict : Verdict Unit)
  | joined (verdict : Verdict Unit)
deriving DecidableEq, Repr

structure Worker where
  id : TaskId
  name : String
  cancelled : Bool := false
  phase : WorkerAt := .running
deriving DecidableEq, Repr

/-- What a worker sees of itself and of the manager. -/
structure WorkerView where
  id : TaskId
  name : String
  cancelled : Bool
  isAlive : Bool
  count : Nat
  isListed : Bool
deriving DecidableEq, Repr

/-- What a start comes to. -/
inductive Started where
  | ok (id : TaskId)
  | refused (f : WorkerFailure)
  | panicked (message : String)

inductive ClientOp where
  /-- The system may refuse the thread. -/
  | start (name : String) (refusal : Option String)
  | stop (id : TaskId)
  | stopAll
  /-- The manager goes away. Nobody else is using it. -/
  | drop

/-- Where a client stands. -/
inductive ClientAt where
  | outside
  | drawing (name : String) (refusal : Option String)
  | wantsStart (id : TaskId) (name : String) (refusal : Option String)
  /-- It holds the lock. -/
  | spawning (id : TaskId) (name : String) (refusal : Option String)
  /-- It holds the lock, and the worker runs. -/
  | listing (id : TaskId) (name : String)
  | wantsStop (id : TaskId)
  /-- It holds the lock. -/
  | removing (id : TaskId)
  | cancelling (id : TaskId)
  | joining (id : TaskId)
  | wantsAll (dropping : Bool)
  /-- It holds the lock. -/
  | taking (dropping : Bool)
  | cancellingAll (batch todo : List TaskId) (dropping : Bool)
  | joiningAll (batch todo : List TaskId) (failure : Option WorkerFailure) (dropping : Bool)

/-- Whether the client takes the manager away. -/
def ClientAt.isDropping : ClientAt → Bool
  | wantsAll dropping | taking dropping => dropping
  | cancellingAll _ _ dropping => dropping
  | joiningAll _ _ _ dropping => dropping
  | _ => false

/-- What can be seen of a run. -/
inductive ManagerEvent where
  | drew (who : Nat) (id : TaskId)
  | listed (id : TaskId)
  | removed (who : Nat) (ids : List TaskId)
  | cancelled (who : Nat) (id : TaskId)
  | joined (who : Nat) (id : TaskId)
  | started (who : Nat) (id : TaskId) (result : Started)
  | stopped (who : Nat) (id : TaskId) (result : Except WorkerFailure Bool)
  | stoppedAll (who : Nat) (result : Except WorkerFailure Unit)
  | dropped (who : Nat)
  | workerEnded (id : TaskId) (verdict : Verdict Unit)
  | looked (view : WorkerView)
  | logged (r : Record)

structure Manager where
  nextId : TaskId := 0
  /-- The numbers of the listed workers, ascending. -/
  table : List TaskId := []
  /-- All workers that were ever started. -/
  workers : List Worker := []
  /-- The client that holds the lock of the table. -/
  holder : Option Nat := none
  clients : List ClientAt := [.outside]
  isAlive : Bool := true
  /-- What happened, the latest first. -/
  history : List ManagerEvent := []

inductive ManagerAction where
  | begin (who : Nat) (op : ClientOp)
  /-- The next step of a client. -/
  | proceed (who : Nat)
  /-- The body of a worker ends. -/
  | finish (id : TaskId) (verdict : Verdict Unit)
  /-- A worker looks at itself and at the manager. -/
  | look (id : TaskId)
  /-- A worker cancels itself. -/
  | cancelSelf (id : TaskId)

/-- Puts a number in an ascending list. -/
def insertTask (id : TaskId) : List TaskId → List TaskId
  | [] => [id]
  | x :: xs =>
    if id < x then id :: x :: xs else if id = x then x :: xs else x :: insertTask id xs

namespace Manager

/-- The manager with `n` clients. -/
def start (n : Nat) : Manager := { clients := List.replicate n .outside }

def worker? (m : Manager) (id : TaskId) : Option Worker := m.workers.find? (·.id = id)

/-- Changes the worker with a number. -/
def update (m : Manager) (id : TaskId) (f : Worker → Worker) : Manager :=
  { m with workers := m.workers.map fun w => if w.id = id then f w else w }

def place (m : Manager) (who : Nat) (c : ClientAt) : Manager :=
  { m with clients := m.clients.set who c }

def record (m : Manager) (e : ManagerEvent) : Manager := { m with history := e :: m.history }

def log (m : Manager) (level : Level) (source : Source) (message : String) : Manager :=
  m.record (.logged ⟨level, source, message⟩)

def release (m : Manager) : Manager := { m with holder := none }

def nameOf (m : Manager) (id : TaskId) : String := ((m.worker? id).map Worker.name).getD ""

/-- The worker with its number and name, as log records mention it. -/
def mention (m : Manager) (id : TaskId) : String := id.label ++ " '" ++ m.nameOf id ++ "'"

/-- What a handle on the manager shows. -/
def count (m : Manager) : Nat := if m.isAlive then m.table.length else 0

def contains (m : Manager) (id : TaskId) : Bool := m.isAlive && m.table.contains id

def taskName? (m : Manager) (id : TaskId) : Option String :=
  if m.contains id then (m.worker? id).map Worker.name else none

def view (m : Manager) (w : Worker) : WorkerView :=
  ⟨w.id, w.name, w.cancelled, m.isAlive, m.count, m.contains w.id⟩

/-- Takes the lock and moves a client on. -/
def acquire (m : Manager) (who : Nat) (c : ClientAt) : Option Manager :=
  if m.holder.isNone then some ({ m with holder := some who }.place who c) else none

/-- Cancels a worker. -/
def cancel (m : Manager) (who : Nat) (id : TaskId) : Manager :=
  (m.update id fun w => { w with cancelled := true }).record (.cancelled who id)

/-- Joins a worker whose body has ended; `none` while it runs. -/
def joinWorker (m : Manager) (who : Nat) (id : TaskId) :
    Option (Except WorkerFailure Unit × Manager) :=
  match m.worker? id with
  | some { phase := .ended v, name, .. } =>
    some (v.result name,
      (m.update id fun w => { w with phase := .joined v }).record (.joined who id))
  | _ => none

/-- A call that stopped all workers comes back. -/
def finishAll (m : Manager) (who : Nat) (result : Except WorkerFailure Unit) (dropping : Bool) :
    Manager :=
  let m := (m.record (.stoppedAll who result)).place who .outside
  if dropping then
    let m := match result with
      | .error e => m.log .error .manager ("Worker shutdown on drop reported: " ++ e.message)
      | .ok _ => m
    { m with isAlive := false }.record (.dropped who)
  else m

/-- The next step of a client, from where it stands; `none` where it has to wait. -/
def proceed (m : Manager) (who : Nat) : ClientAt → Option Manager
  | .outside => none
  | .drawing name refusal =>
    some (({ m with nextId := m.nextId + 1 }.record (.drew who m.nextId)).place who
      (.wantsStart m.nextId name refusal))
  | .wantsStart id name refusal => m.acquire who (.spawning id name refusal)
  | .spawning id name refusal =>
    let fail (r : Started) := some ((m.release.record (.started who id r)).place who .outside)
    match nameFault? name, refusal with
    | some message, _ => fail (.panicked message)
    | none, some reason => fail (.refused (.spawn name reason))
    | none, none =>
      let w : Worker := { id := id, name := name }
      some (({ m with workers := m.workers ++ [w] }.log .debug .thread
        ("Spawned scoped thread '" ++ name ++ "'")).place who (.listing id name))
  | .listing id name =>
    let m := ({ m with table := insertTask id m.table }.record (.listed id)).release
    some (((m.log .info .manager ("Started worker " ++ id.label ++ " '" ++ name ++ "'")).record
      (.started who id (.ok id))).place who .outside)
  | .wantsStop id => m.acquire who (.removing id)
  | .removing id =>
    if m.table.contains id then
      some ((({ m with table := m.table.erase id }.record (.removed who [id])).release).place who
        (.cancelling id))
    else
      let m := m.release
      some (((m.log .debug .manager ("Stop requested for unknown worker " ++ id.label)).record
        (.stopped who id (.ok false))).place who .outside)
  | .cancelling id =>
    some ((m.cancel who id).place who (.joining id))
  | .joining id =>
    (m.joinWorker who id).map fun
      | (.ok (), m) =>
        ((m.log .info .manager ("Stopped worker " ++ m.mention id)).record
          (.stopped who id (.ok true))).place who .outside
      | (.error e, m) => (m.record (.stopped who id (.error e))).place who .outside
  | .wantsAll dropping => m.acquire who (.taking dropping)
  | .taking dropping =>
    let batch := m.table
    let m := ({ m with table := [] }.record (.removed who batch)).release
    if batch.isEmpty then some (m.finishAll who (.ok ()) dropping)
    else some (m.place who (.cancellingAll batch batch dropping))
  | .cancellingAll batch todo dropping =>
    match todo with
    | id :: rest =>
      some ((m.cancel who id).place who (.cancellingAll batch rest dropping))
    | [] => some (m.place who (.joiningAll batch batch none dropping))
  | .joiningAll batch todo failure dropping =>
    match todo with
    | id :: rest =>
      (m.joinWorker who id).map fun
        | (.ok (), m) => m.place who (.joiningAll batch rest failure dropping)
        | (.error e, m) =>
          (m.log .error .manager ("Worker " ++ m.mention id ++ " failed: " ++ e.message)).place who
            (.joiningAll batch rest (failure <|> some e) dropping)
    | [] =>
      let m := m.log .info .manager ("Stopped all " ++ toString batch.length ++ " workers")
      let result := match failure with
        | some e => .error e
        | none => .ok ()
      some (m.finishAll who result dropping)

def isOutside (m : Manager) : Bool :=
  m.clients.all fun
    | .outside => true
    | _ => false

/-- Whether operations can begin: the manager is there, and nobody takes it away. -/
def isOpen (m : Manager) : Bool := m.isAlive && m.clients.all (!·.isDropping)

/-- Begins an operation, if the client is free to. -/
def begin (m : Manager) (who : Nat) (op : ClientOp) : Option Manager :=
  match m.isOpen, m.clients[who]? with
  | true, some .outside =>
    match op with
    | .start name refusal => some (m.place who (.drawing name refusal))
    | .stop id => some (m.place who (.wantsStop id))
    | .stopAll => some (m.place who (.wantsAll false))
    | .drop => if m.isOutside then some (m.place who (.wantsAll true)) else none
  | _, _ => none

def step (m : Manager) : ManagerAction → Option Manager
  | .begin who op => m.begin who op
  | .proceed who => (m.clients[who]?).bind (m.proceed who)
  | .finish id verdict =>
    match m.worker? id with
    | some { phase := .running, .. } =>
      some ((m.update id fun w => { w with phase := .ended verdict }).record
        (.workerEnded id verdict))
    | _ => none
  | .look id =>
    match m.worker? id, m.holder with
    | some w, none => if w.phase = .running then some (m.record (.looked (m.view w))) else none
    | _, _ => none
  | .cancelSelf id =>
    match m.worker? id with
    | some { phase := .running, .. } => some (m.update id fun w => { w with cancelled := true })
    | _ => none

def run (m : Manager) : List ManagerAction → Option Manager
  | [] => some m
  | a :: as => (m.step a).bind (run · as)

/-- Takes the steps that can be taken and leaves out the others. -/
def attempt (m : Manager) (as : List ManagerAction) : Manager :=
  as.foldl (fun m a => (m.step a).getD m) m

/-- The worker that a client waits for. -/
def awaited? (m : Manager) (who : Nat) : Option TaskId :=
  match m.clients[who]? with
  | some (.joining id) | some (.joiningAll _ (id :: _) _ _) => some id
  | _ => none

/-- Lets a client proceed until it is outside, at most `n` steps. A worker it waits for does what
`react` says. -/
def complete (m : Manager) (who : Nat) (react : TaskId → List ManagerAction) : Nat → Manager
  | 0 => m
  | n + 1 =>
    match m.step (.proceed who) with
    | some m' => m'.complete who react n
    | none =>
      match m.awaited? who with
      | some id => (m.attempt (react id)).complete who react n
      | none => m

/-- Performs an operation of the first client while nobody else does anything, except that the
workers it waits for react. -/
def perform (m : Manager) (op : ClientOp) (react : TaskId → List ManagerAction) : Manager :=
  match m.begin 0 op with
  | some m' => m'.complete 0 react (4 * m'.workers.length + 8)
  | none => m

/-- What the latest start came to. -/
def started? (m : Manager) : Option Started :=
  m.history.findSome? fun
    | .started _ _ r => some r
    | _ => none

/-- What the latest stop of one worker came to. -/
def stopped? (m : Manager) : Option (Except WorkerFailure Bool) :=
  m.history.findSome? fun
    | .stopped _ _ r => some r
    | _ => none

/-- What the latest stop of all workers came to. -/
def stoppedAll? (m : Manager) : Option (Except WorkerFailure Unit) :=
  m.history.findSome? fun
    | .stoppedAll _ r => some r
    | _ => none

/-- What workers saw, the latest first. -/
def views (m : Manager) : List WorkerView :=
  m.history.filterMap fun
    | .looked v => some v
    | _ => none

/-- What was said, in order. -/
def records (m : Manager) : Records :=
  m.history.reverse.filterMap fun
    | .logged r => some r
    | _ => none

end Manager

end Overseer
