import Overseer.Lifecycle.Daemon

/-!
# The lock of the hook slots

The hook slots stand behind a lock that does not let in its own holder a second time. Here is the
daemon with that lock: whatever reads or writes the slots holds the lock meanwhile, and a
transition gives it back before it runs the hook that it has looked up. There is one thread that
runs hooks, so a run that waits for the lock waits for itself.
-/

namespace Overseer

/-- A daemon and the lock of its slots. -/
structure Guarded (σ : Type) where
  daemon : Daemon σ
  isHeld : Bool := false
  /-- The transitions whose hooks were started, and whether the lock was held at that moment. -/
  started : List (Transition × Bool) := []

/-- A run that may need the lock. It has no ending if it waits for the lock for ever. -/
def Hold (σ α : Type) : Type := Guarded σ → Option (Ending α) × Guarded σ

variable {σ α β : Type}

namespace Hold

/-- A run that has nothing to do with the lock. -/
def lift (x : Act σ α) : Hold σ α := fun g =>
  let (e, d) := x g.daemon
  (some e, { g with daemon := d })

/-- Runs on with what the first run returned. -/
def andThen (x : Hold σ α) (f : α → Hold σ β) : Hold σ β := fun g =>
  match x g with
  | (some (.returned a), g') => f a g'
  | (some (.panicked m), g') => (some (.panicked m), g')
  | (some .unfinished, g') => (some .unfinished, g')
  | (none, g') => (none, g')

instance : Monad (Hold σ) where
  pure a := lift (.done a)
  bind := andThen

/-- Makes an answer of a panic. -/
def attempt (x : Hold σ Answer) : Hold σ Answer := fun g =>
  match x g with
  | (some (.panicked m), g') => (some (.returned (.panicked m)), g')
  | r => r

/-- Holds the lock during a run, and gives it back however the run ends. -/
def locked (x : Hold σ α) : Hold σ α := fun g =>
  if g.isHeld then (none, g)
  else
    match x { g with isHeld := true } with
    | (some e, g') => (some e, { g' with isHeld := false })
    | (none, g') => (none, g')

/-- Starts the hook of a transition. -/
def start (t : Transition) : Hold σ Unit := fun g =>
  (some (.returned ()), { g with started := g.started ++ [(t, g.isHeld)] })

end Hold

/-- Runs a program whose operations are performed by `perform`. -/
def Program.runGuarded (perform : Op σ → Hold σ Answer) : Program σ → Hold σ Outcome
  | .done o => .lift (.done o)
  | .panic m => .lift (.panic m)
  | .perform op next => .andThen (.attempt (perform op)) fun a => (next a).runGuarded perform
  | .touch change next => fun g =>
    let (app, records) := change g.daemon.app
    (next g.daemon.app).runGuarded perform
      { g with daemon :=
        { g.daemon with app := app, trace := g.daemon.trace ++ records.map .logged } }

/-- The operation reads or writes the slots, other than for a transition. -/
def Op.needsLock : Op σ → Bool
  | .describe | .bind _ _ | .bindAll _ | .clearHooks => true
  | _ => false

namespace Guarded

open Hold

/-- Looks a transition's hook up. -/
def lookUp (t : Transition) : Act σ (Option (Program σ)) := do
  let d ← Act.get
  let hook := d.slots t.slot
  Act.note (.invoked t hook d.word)
  return hook

/-- Starts a hook, if there is one. -/
def call (run : Program σ → Hold σ Outcome) (t : Transition) :
    Option (Program σ) → Hold σ Outcome
  | none => return .unset
  | some p => do
    start t
    run p

/-- Looks a transition's hook up with the lock held, and runs it by `run` without. -/
def invoke (run : Program σ → Hold σ Outcome) (t : Transition) : Hold σ Outcome := do
  let hook ← locked (lift (lookUp t))
  let outcome ← call run t hook
  lift (Act.note (.returned t outcome))
  return outcome

def startAll (run : Program σ → Hold σ Outcome) : Hold σ Outcome := do
  lift (Act.store (some .starting) .running)
  let outcome ← invoke run .starting
  lift (Act.log .info .lifecycle ("Daemon started (start hook: " ++ outcome.name ++ ")"))
  return outcome

def dispatch (run : Program σ → Hold σ Outcome) (request : State) : Hold σ Unit := do
  if ← lift (Act.take request) then
    let outcome ← invoke run (.handling request)
    if outcome.isFailed then
      lift (Act.store (some (.handling request)) .stop)
      lift (Act.log .warn .lifecycle (request.name ++ " hook failed, daemon stopping"))
    else
      lift (Act.log .info .lifecycle
        ("Handled " ++ request.name ++ " request (hook: " ++ outcome.name ++ ")"))

def poll (run : Program σ → Hold σ Outcome) : Hold σ Bool := do
  let current ← lift Act.load
  if current.isTransient then dispatch run current
  let resolved ← lift Act.load
  return resolved.isAlive

def closeAll (run : Program σ → Hold σ Outcome) : Hold σ Outcome := do
  lift (Act.store (some .closing) .stop)
  let outcome ← invoke run .closing
  lift (Act.log .info .lifecycle ("Daemon closed (close hook: " ++ outcome.name ++ ")"))
  return outcome

/-- Performs an operation. What makes no transition runs no hook. -/
def execute (run : Program σ → Hold σ Outcome) : Op σ → Hold σ Answer
  | .startAll => do return .outcome (← startAll run)
  | .poll => do return .bool (← poll run)
  | .closeAll => do return .outcome (← closeAll run)
  | op =>
    let access : Hold σ Answer := lift (Daemon.execute (fun _ => .giveUp) op)
    if op.needsLock then locked access else access

/-- Performs an operation in which hooks nest less than `depth` deep. -/
def perform (depth : Nat) (op : Op σ) : Hold σ Answer :=
  match depth with
  | 0 => lift .giveUp
  | n + 1 => do
    lift (Act.note (.began op))
    let answer ← execute (Program.runGuarded (perform n)) op
    lift (Act.note (.ended op answer))
    return answer

end Guarded

end Overseer
