import Overseer.Worker.Token

/-!
# Waiting for cancellation

The flag of one family among threads. A waiter checks the flag under a lock and parks, which
releases the lock in the same step; a canceller sets the flag and wakes everybody under the same
lock. The flag can also be read without the lock. A list of actions, run by `run`, is one
interleaving.
-/

namespace Overseer

/-- Where a thread stands. -/
inductive WaiterAt where
  | outside
  /-- It wants the lock to check the flag. -/
  | arriving (due : Moment)
  /-- It has the lock and is to check the flag. -/
  | checking (due : Moment)
  /-- It has found the flag unset, still has the lock and is to park. -/
  | parking (due : Moment)
  /-- It has released the lock and waits. -/
  | parked (due : Moment)
  /-- Its deadline was reached, and it wants the lock. -/
  | expired
  /-- It has the lock and is to read the flag for its answer. -/
  | leaving (timedOut : Bool)
  /-- It has its answer and is to release the lock. -/
  | answering (flag : Bool)
  /-- It wants the lock to cancel. -/
  | cancelling
  /-- It has the lock and is to set the flag. -/
  | setting
  /-- It has set the flag and is to wake everybody. -/
  | waking
  /-- It is to release the lock. -/
  | releasing
deriving DecidableEq, Repr

namespace WaiterAt

/-- Where a thread stands after everybody was woken. -/
def roused : WaiterAt → WaiterAt
  | parked due => arriving due
  | t => t

/-- Where a thread stands after it took the lock, if it wants it. -/
def locked? : WaiterAt → Option WaiterAt
  | arriving due => some (checking due)
  | expired => some (leaving true)
  | cancelling => some setting
  | _ => none

end WaiterAt

inductive WaitAction where
  | wait (who : Nat) (now : Moment) (timeout : Span)
  | cancel (who : Nat)
  /-- Reads the flag without the lock. -/
  | ask (who : Nat)
  /-- Takes the lock, which is free. -/
  | lock (who : Nat)
  /-- Takes the next step while holding the lock. -/
  | proceed (who : Nat)
  /-- A parked thread wakes although nobody woke it. -/
  | wake (who : Nat)
  /-- A parked thread finds that the clock has reached its deadline. -/
  | expire (who : Nat) (now : Moment)

inductive WaitEvent where
  | waited (who : Nat) (answer : Waited)
  | asked (who : Nat) (flag : Bool)
  | cancelled (who : Nat)
deriving DecidableEq, Repr

structure WaitingRoom where
  flag : Bool
  holder : Option Nat := none
  threads : List WaiterAt
  /-- What ended, the latest first. -/
  history : List WaitEvent := []

namespace WaitingRoom

def start (flag : Bool) (n : Nat) : WaitingRoom :=
  { flag := flag, threads := List.replicate n .outside }

def place (r : WaitingRoom) (who : Nat) (t : WaiterAt) : WaitingRoom :=
  { r with threads := r.threads.set who t }

def record (r : WaitingRoom) (e : WaitEvent) : WaitingRoom := { r with history := e :: r.history }

def release (r : WaitingRoom) : WaitingRoom := { r with holder := none }

/-- The next step of the thread that holds the lock. -/
def proceed (r : WaitingRoom) (who : Nat) : WaiterAt → Option WaitingRoom
  | .checking due => some (r.place who (if r.flag then .leaving false else .parking due))
  | .parking due => some (r.place who (.parked due)).release
  | .leaving _ => some (r.place who (.answering r.flag))
  | .answering flag => some ((r.record (.waited who (.saw flag))).place who .outside).release
  | .setting => some ({ r with flag := true }.place who .waking)
  | .waking => some ({ r with threads := r.threads.map WaiterAt.roused }.place who .releasing)
  | .releasing => some ((r.record (.cancelled who)).place who .outside).release
  | _ => none

def step (r : WaitingRoom) : WaitAction → Option WaitingRoom
  | .wait who now timeout =>
    match r.threads[who]? with
    | some .outside =>
      match now.after? timeout with
      | none => some (r.record (.waited who .overflow))
      | some due => some (r.place who (.arriving due))
    | _ => none
  | .cancel who =>
    match r.threads[who]? with
    | some .outside => some (r.place who .cancelling)
    | _ => none
  | .ask who =>
    match r.threads[who]? with
    | some .outside => some (r.record (.asked who r.flag))
    | _ => none
  | .lock who =>
    if r.holder.isSome then none
    else
      ((r.threads[who]?).bind WaiterAt.locked?).map fun t =>
        { r with holder := some who }.place who t
  | .proceed who =>
    if r.holder = some who then (r.threads[who]?).bind (r.proceed who) else none
  | .wake who =>
    match r.threads[who]? with
    | some (.parked due) => some (r.place who (.arriving due))
    | _ => none
  | .expire who now =>
    match r.threads[who]? with
    | some (.parked due) => if due.nanos ≤ now.nanos then some (r.place who .expired) else none
    | _ => none

def run (r : WaitingRoom) : List WaitAction → Option WaitingRoom
  | [] => some r
  | a :: as => (r.step a).bind (run · as)

/-- All steps of a thread that takes the lock once. -/
def session (who : Nat) : List WaitAction :=
  [.lock who, .proceed who, .proceed who, .proceed who]

/-- Takes the steps that can be taken and leaves out the others. -/
def attempt (r : WaitingRoom) (as : List WaitAction) : WaitingRoom :=
  as.foldl (fun r a => (r.step a).getD r) r

/-- `n` threads wait, another cancels, and the waiters look again. -/
def cancelWaiters (flag : Bool) (n : Nat) (now : Moment) (timeout : Span) : WaitingRoom :=
  let waiters := List.range n
  start flag (n + 1)
    |>.attempt (waiters.flatMap fun w => .wait w now timeout :: session w)
    |>.attempt (.cancel n :: session n)
    |>.attempt (waiters.flatMap session)

/-- What the waits ended with, in the order of the threads. -/
def answers (r : WaitingRoom) : List Waited :=
  (List.range r.threads.length).filterMap fun who =>
    r.history.findSome? fun
      | .waited w a => if w = who then some a else none
      | _ => none

end WaitingRoom

end Overseer
