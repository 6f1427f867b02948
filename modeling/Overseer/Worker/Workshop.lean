import Overseer.Worker.Manager

/-!
# Workers that ask about the manager

The manager at work while its workers ask about it through their handles. Whether the manager is
there a worker asks without the lock. To know how many workers are listed, or whether one is, it
wants the lock of the table, gets it, reads the table and gives the lock back, and others may come
between these steps. All other steps are those of the manager, where a client now gets the lock
only if no worker has it. A list of actions, run by `run`, is one interleaving.
-/

namespace Overseer

/-- What a worker asks its handle. -/
inductive Question where
  | isAlive
  | count
  | contains (id : TaskId)
deriving DecidableEq, Repr

inductive Reply where
  | isAlive (answer : Bool)
  | count (n : Nat)
  | contains (answer : Bool)
deriving DecidableEq, Repr

/-- Where a worker stands with its questions. -/
inductive AskerAt where
  /-- It asks nothing. -/
  | working
  /-- It wants the lock. -/
  | wanting (q : Question)
  /-- It holds the lock. -/
  | reading (q : Question)
deriving DecidableEq, Repr

/-- Whether the client wants the lock. -/
def ClientAt.wantsLock : ClientAt → Bool
  | wantsStart .. | wantsStop _ | wantsAll _ => true
  | _ => false

namespace Manager

def isRunning (m : Manager) (id : TaskId) : Bool :=
  match m.worker? id with
  | some { phase := .running, .. } => true
  | _ => false

/-- The worker whose place in the table the client is about to give to another one. Its thread
would be joined with the lock held. -/
def displaced? (m : Manager) (who : Nat) : Option TaskId :=
  match m.clients[who]? with
  | some (.listing id _) => if m.table.contains id then some id else none
  | _ => none

/-- The running worker whose end the client waits for. -/
def endAwaited? (m : Manager) (who : Nat) : Option TaskId :=
  (m.awaited? who <|> m.displaced? who).filter m.isRunning

/-- What the table says. -/
def read (m : Manager) : Question → Reply
  | .isAlive => .isAlive m.isAlive
  | .count => .count m.table.length
  | .contains id => .contains (m.table.contains id)

/-- What a handle says. -/
def inform (m : Manager) : Question → Reply
  | .isAlive => .isAlive m.isAlive
  | .count => .count m.count
  | .contains id => .contains (m.contains id)

end Manager

structure Workshop where
  manager : Manager
  askers : TaskId → AskerAt := fun _ => .working
  /-- The worker that holds the lock of the table. -/
  reader : Option TaskId := none
  /-- What workers asked and were told, the latest first. -/
  answers : List (TaskId × Question × Reply) := []

inductive WorkshopAction where
  /-- A step of a client, or of a worker that does its work. -/
  | manage (a : ManagerAction)
  | ask (id : TaskId) (q : Question)
  /-- A worker that wants the lock gets it. -/
  | lock (id : TaskId)
  /-- A worker reads the table and gives the lock back. -/
  | answer (id : TaskId)

/-- A thread: one of the clients or of the workers. -/
inductive Party where
  | client (who : Nat)
  | worker (id : TaskId)
deriving DecidableEq, Repr

namespace Workshop

/-- The manager with `n` clients. -/
def start (n : Nat) : Workshop := { manager := Manager.start n }

def seat (w : Workshop) (id : TaskId) (t : AskerAt) : Workshop :=
  { w with askers := fun i => if i = id then t else w.askers i }

def tell (w : Workshop) (id : TaskId) (q : Question) (r : Reply) : Workshop :=
  { w with answers := (id, q, r) :: w.answers }

/-- Whether nobody holds the lock. -/
def isFree (w : Workshop) : Bool := w.manager.holder.isNone && w.reader.isNone

/-- Whether a step of the manager can be taken among the questions of the workers. A worker looks
by asking. -/
def admits (w : Workshop) : ManagerAction → Bool
  | .begin _ _ => true
  | .proceed who =>
    (w.manager.endAwaited? who).isNone &&
      (w.reader.isNone || (w.manager.clients[who]?).all (!·.wantsLock))
  | .finish id _ | .cancelSelf id => w.askers id = .working
  | .look _ => false

def step (w : Workshop) : WorkshopAction → Option Workshop
  | .manage a =>
    if w.admits a then (w.manager.step a).map fun m => { w with manager := m } else none
  | .ask id q =>
    if w.manager.isRunning id && w.askers id = .working then
      if q = .isAlive || !w.manager.isAlive then some (w.tell id q (w.manager.inform q))
      else some (w.seat id (.wanting q))
    else none
  | .lock id =>
    match w.askers id with
    | .wanting q =>
      if w.isFree then some { w.seat id (.reading q) with reader := some id } else none
    | _ => none
  | .answer id =>
    match w.askers id with
    | .reading q => some ({ w.seat id .working with reader := none }.tell id q (w.manager.read q))
    | _ => none

def run (w : Workshop) : List WorkshopAction → Option Workshop
  | [] => some w
  | a :: as => (w.step a).bind (run · as)

/-- The next step of a thread. A worker that asks nothing can end, if nothing else. -/
def next (w : Workshop) : Party → WorkshopAction
  | .client who => .manage (.proceed who)
  | .worker id =>
    match w.askers id with
    | .working => .manage (.finish id (.value ()))
    | .wanting _ => .lock id
    | .reading _ => .answer id

end Workshop

end Overseer
