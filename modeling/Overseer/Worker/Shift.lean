import Overseer.Queue.Ends
import Overseer.Worker.Ticker
import Overseer.Worker.Workshop

/-!
# The tick worker and those around it

The manager at work where one of its workers is the tick worker: its body takes the steps of
`Ticker` on a thread of the manager, sees the flag that the manager's clients set, and pushes its
reports access by access onto a queue whose other end is read meanwhile. A list of actions, run by
`run`, is one interleaving.
-/

namespace Overseer

/-- What the tick worker has done. -/
structure TickLog where
  /-- What the application was told at each tick and how it answered, in order. -/
  rounds : List (Span × Verdict Span) := []
  /-- How long each sleep was to last and when it was to end, in order. -/
  sleeps : List (Span × Option Moment) := []

structure Shift (σ : Type) where
  manager : Manager
  /-- The number of the tick worker. -/
  id : TaskId
  ticker : Ticker σ
  /-- The queue of the reports. -/
  ends : EndsAtWork TickReport := { chain := .empty }
  log : TickLog := {}

inductive ShiftAction (σ : Type) where
  /-- A step of a client of the manager, or of another worker. -/
  | manage (a : ManagerAction)
  /-- The tick worker takes its next step. -/
  | work (now : Moment)
  /-- Its sleep is over. -/
  | elapse
  /-- The reader of the reports begins an operation. -/
  | consume (errand : Errand)
  /-- The reader's next access. -/
  | proceed
  /-- The application changes, if only because time goes by. -/
  | alter (app : σ)

namespace Shift

variable {σ : Type}

/-- The manager with `n` clients. The worker that will have this number is the tick worker. -/
def start (n : Nat) (id : TaskId) (app : σ) : Shift σ where
  manager := Manager.start n
  id := id
  ticker := { app := app }

/-- Whether the flag of the tick worker is set. -/
def isTold (s : Shift σ) : Bool := (s.manager.worker? s.id).any (·.cancelled)

/-- The tick worker as it sees its flag. -/
def body (s : Shift σ) : Ticker σ := { s.ticker with isCancelled := s.isTold }

/-- One access to the queue; `none` where memory is at fault. -/
def access (s : Shift σ) (m : Move TickReport) : Option (Shift σ) :=
  match s.ends.step m with
  | .ok ends => some { s with ends := ends }
  | .error _ => none

def withBody (s : Shift σ) (t : Ticker σ) : Shift σ := { s with ticker := t }

/-- The next access of the push of a report. With the last one the report is out. -/
def publish (rule : TickRule σ) (s : Shift σ) (now : Moment) (interval : Span) :
    Option (Shift σ) :=
  match s.ends.producer with
  | .idle => s.access (.push ⟨s.ticker.count, interval⟩)
  | .linked _ _ => (s.access .produce).map fun s => s.withBody (s.body.work rule now)
  | _ => s.access .produce

/-- The next step of the tick worker. Its thread ends after its body. -/
def work (rule : TickRule σ) (s : Shift σ) (now : Moment) : Option (Shift σ) :=
  let t := s.body
  match t.standing with
  | .ticking =>
    let answer := (rule t.interval t.app).1
    some { s.withBody (t.work rule now) with
      log := { s.log with rounds := s.log.rounds ++ [(t.interval, answer)] } }
  | .reporting interval => s.publish rule now interval
  | .resting interval =>
    some { s.withBody (t.work rule now) with
      log := { s.log with sleeps := s.log.sleeps ++ [(interval, now.after? interval)] } }
  | .ended v => (s.manager.step (.finish s.id v)).map fun m => { s with manager := m }
  | _ => some (s.withBody (t.work rule now))

/-- Whether others can take this step. That the tick worker ends is its own affair. -/
def admits (s : Shift σ) : ManagerAction → Bool
  | .finish id _ => id ≠ s.id
  | _ => true

def step (rule : TickRule σ) (s : Shift σ) : ShiftAction σ → Option (Shift σ)
  | .manage a =>
    if s.admits a then (s.manager.step a).map fun m => { s with manager := m } else none
  | .work now => if s.manager.isRunning s.id then s.work rule now else none
  | .elapse => if s.manager.isRunning s.id then some (s.withBody s.body.elapse) else none
  | .consume errand => s.access (.consume errand)
  | .proceed => s.access .proceed
  | .alter app => some (s.withBody { s.ticker with app := app })

def run (rule : TickRule σ) (s : Shift σ) : List (ShiftAction σ) → Option (Shift σ)
  | [] => some s
  | a :: as => (s.step rule a).bind (run rule · as)

end Shift

end Overseer
