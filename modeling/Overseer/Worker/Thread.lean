import Overseer.Failure
import Overseer.Log
import Overseer.Text.Quoted
import Overseer.Text.Utf8

/-!
# Threads that are always joined

A thread runs a body that returns a value or panics. Whoever has its handle joins it, either to
get the value or because the handle goes away.
-/

namespace Overseer

/-- What a panic carries. -/
inductive Payload where
  | text (s : String)
  /-- A value that is no text. -/
  | other
deriving DecidableEq, Repr

def Payload.message : Payload → String
  | text s => s
  | other => "unknown panic payload"

/-- How a body ends. -/
inductive Verdict (α : Type) where
  | value (a : α)
  | panicked (p : Payload)
deriving DecidableEq, Repr

/-- What a joiner makes of the end of a thread. -/
def Verdict.result {α : Type} (name : String) : Verdict α → Except WorkerFailure α
  | value a => .ok a
  | panicked p => .error (.panicked name p.message)

/-- The panic of a spawn whose thread name the system cannot take, if it is one. -/
def nameFault? (name : String) : Option String :=
  let bytes := Text.encode name
  (bytes.findIdx? (· = 0)).map fun i =>
    "thread name may not contain interior null bytes: NulError(" ++ toString i ++ ", [" ++
      ", ".intercalate (bytes.map fun b => toString b.toNat) ++ "])"

/-- Where a thread stands. What its body will end with is fixed, but not yet known to others. -/
inductive ThreadAt (α : Type) where
  | running (verdict : Verdict α)
  | finished (verdict : Verdict α)
  | joined (verdict : Verdict α)
deriving DecidableEq, Repr

namespace ThreadAt

variable {α : Type}

/-- A running body ends. -/
def finish : ThreadAt α → ThreadAt α
  | running v => finished v
  | t => t

/-- Whether the body has run to its end. -/
def isOver : ThreadAt α → Bool
  | running _ => false
  | finished _ | joined _ => true

end ThreadAt

/-- The handle of a thread. Joining takes the thread's number out of it. -/
structure ScopedThread where
  name : String
  thread : Option Nat
deriving DecidableEq, Repr

/-- All threads, by number. -/
structure Crew (α : Type) where
  threads : List (ThreadAt α) := []

/-- What a spawn comes to. -/
inductive Spawned (β : Type) where
  | ok (b : β)
  | refused (f : WorkerFailure)
  | panicked (message : String)

/-- What a join comes to. -/
inductive Joined (α : Type) where
  /-- The body has not ended. -/
  | waits
  /-- The handle has no thread. -/
  | impossible
  | ended (result : Except WorkerFailure α)

namespace Crew

variable {α : Type}

/-- Starts a thread. The system may refuse one more. -/
def spawn (c : Crew α) (name : String) (verdict : Verdict α) (refusal : Option String) :
    Spawned ScopedThread × Crew α × Records :=
  match nameFault? name with
  | some message => (.panicked message, c, [])
  | none =>
    match refusal with
    | some reason => (.refused (.spawn name reason), c, [])
    | none =>
      (.ok ⟨name, some c.threads.length⟩, ⟨c.threads ++ [.running verdict]⟩,
        [⟨.debug, .thread, "Spawned scoped thread '" ++ name ++ "'"⟩])

/-- The body of a thread ends. -/
def finish (c : Crew α) (t : ScopedThread) : Crew α :=
  match t.thread with
  | some i => ⟨c.threads.modify i ThreadAt.finish⟩
  | none => c

def isFinished (c : Crew α) (t : ScopedThread) : Bool :=
  match t.thread with
  | some i => ((c.threads[i]?).map ThreadAt.isOver).getD false
  | none => true

/-- Waits for the end of the body and takes its value. -/
def join (c : Crew α) (t : ScopedThread) : Joined α × Crew α :=
  match t.thread with
  | none => (.impossible, c)
  | some i =>
    match c.threads[i]? with
    | some (.finished v) => (.ended (v.result t.name), ⟨c.threads.set i (.joined v)⟩)
    | some (.running _) => (.waits, c)
    | _ => (.impossible, c)

/-- The handle goes away, which waits for the end of the body; `none` while it has not ended. A
panic of the body is only mentioned. -/
def drop (c : Crew α) (t : ScopedThread) : Option (Crew α × Records) :=
  match c.join t with
  | (.waits, _) => none
  | (.impossible, c) => some (c, [])
  | (.ended (.ok _), c) =>
    some (c, [⟨.debug, .thread, "Scoped thread '" ++ t.name ++ "' joined on drop"⟩])
  | (.ended (.error _), c) =>
    some (c, [⟨.warn, .thread,
      "Scoped thread '" ++ t.name ++ "' panicked before it was joined"⟩])

end Crew

/-- A handle on one line. -/
def ScopedThread.describe (t : ScopedThread) : String :=
  "ScopedThread \x7b name: " ++ Text.quote t.name ++ ", joined: " ++ toString t.thread.isNone ++
    " \x7d"

end Overseer
