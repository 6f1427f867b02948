import Overseer.Lifecycle.Outcome
import Overseer.Log
import Overseer.Signal

/-!
# Hooks as programs

A hook is a program over the operations of the daemon that runs it, so it may request, poll,
start, close and rebind while it runs. What it remembers between two calls, and everything else
it touches, is the application's state `σ`.
-/

namespace Overseer

/-- The places a hook can be bound to. -/
inductive Slot where
  | start
  | reload
  | user1
  | user2
  | close
deriving DecidableEq, Repr

/-- The slot whose hook handles a request. -/
def State.slot : State → Slot
  | .reload => .reload
  | .user1 => .user1
  | _ => .user2

/-- What an operation gives back. -/
inductive Answer where
  | unit
  | bool (b : Bool)
  | state (s : State)
  | outcome (o : Outcome)
  | text (s : String)
  | sent (r : Except Failure Unit)
  /-- The operation panicked, and its caller caught the panic. -/
  | panicked (message : String)

mutual

/-- The operations of a daemon. -/
inductive Op (σ : Type) where
  | state
  | isRunning
  | describe
  /-- Asks for a state, which is refused once the daemon has stopped. -/
  | request (s : State)
  /-- Asks for a reload without hearing whether it was refused. -/
  | requestReload
  /-- Puts a state in whatever state the daemon is. -/
  | setState (s : State)
  | startAll
  /-- Handles a waiting request and tells whether the daemon goes on. -/
  | poll
  | closeAll
  | bind (slot : Slot) (hook : Program σ)
  /-- Binds all slots at once. -/
  | bindAll (hooks : Slot → Program σ)
  | clearHooks
  /-- A signal arrives at this process. -/
  | raise (signal : OsSignal)
  /-- Sends a control signal to a process. -/
  | send (signal : ControlSignal) (pid : Nat)
  /-- Starts listening to signals. -/
  | install

/-- A hook under way. -/
inductive Program (σ : Type) where
  | done (outcome : Outcome)
  | panic (message : String)
  /-- Performs an operation and goes on with what it gave back. -/
  | perform (op : Op σ) (next : Answer → Program σ)
  /-- Changes the application's state, with what is said about it. What follows may depend on the
  state before the change. -/
  | touch (change : σ → σ × Records) (next : σ → Program σ)

end

variable {σ : Type}

namespace Program

instance : Inhabited (Program σ) := ⟨.done .unset⟩

/-- The program that changes the application's state and reports an outcome. -/
def act (f : σ → Outcome × σ × Records) : Program σ :=
  .touch (fun a => (f a).2) fun a => .done (f a).1

end Program

end Overseer
