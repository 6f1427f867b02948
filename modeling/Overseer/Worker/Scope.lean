import Overseer.Worker.Thread

/-!
# The life of scoped threads

An owner holds the handles of threads in named places. A handle ends in a join, in a drop, when
another handle is put in its place, or while its owner unwinds from a panic. A join and a drop first
take the thread out of the handle and then wait for the end of its body; the handle that was given
to a join is dropped when the join has its result. A list of actions, run by `run`, is one order in
which the owner goes on and bodies end.
-/

namespace Overseer

/-- Where the owner stands. -/
inductive OwnerAt (α : Type) where
  /-- Inside neither a join nor a drop. -/
  | free
  /-- In a join, which has taken the thread `i` out of the handle and waits for it. -/
  | joining (t : ScopedThread) (i : Nat)
  /-- In a join, which has its result and is to drop the handle. -/
  | leaving (t : ScopedThread) (i : Nat) (r : Except WorkerFailure α)
  /-- In a drop, which has taken the thread `i` out of the handle and waits for it. -/
  | dropping (t : ScopedThread) (i : Nat)

/-- What happens around the threads, which are numbered as they are spawned. -/
inductive OwnerEvent (α : Type) where
  | spawned (i : Nat) (name : String) (verdict : Verdict α)
  /-- The system has refused a thread. -/
  | refused (f : WorkerFailure)
  /-- The body of a thread has run to its end. -/
  | ran (i : Nat)
  /-- What a thread ended with was taken out of it. -/
  | joined (i : Nat)
  /-- A join has returned. -/
  | returned (i : Nat) (r : Except WorkerFailure α)
  /-- A drop has returned. -/
  | dropped (i : Nat)
  /-- There was no thread to join. -/
  | unreachable

inductive OwnerAction (κ α : Type) where
  /-- Puts the handle of a new thread in a place. What its body will end with is fixed, and the
  system may refuse the thread. -/
  | spawn (k : κ) (name : String) (verdict : Verdict α) (refusal : Option String)
  /-- Puts the handle of another place in a place. -/
  | move (k source : κ)
  | join (k : κ)
  /-- The handle in a place goes away, also because its owner unwinds. -/
  | drop (k : κ)
  /-- The owner goes on in the join or the drop that it is in. -/
  | proceed
  /-- The body of a thread ends. -/
  | finish (i : Nat)
  /-- The owner panics. -/
  | panic (message : String)
  /-- The owner's panic is caught. -/
  | recover

/-- An owner and its threads. -/
structure Scope (κ α : Type) where
  crew : Crew α := {}
  held : κ → Option ScopedThread := fun _ => none
  stage : OwnerAt α := .free
  /-- The panic that the owner unwinds from. Nothing but handles going away happens meanwhile. -/
  unwinding : Option String := none
  log : Records := []
  /-- What has happened, the latest first. -/
  events : List (OwnerEvent α) := []

/-- The panic of a join whose handle has no thread. -/
def OwnerEvent.unreachableMessage : String :=
  "internal error: entered unreachable code: ScopedThread handle is only taken by join or drop"

namespace Scope

variable {κ α : Type} [DecidableEq κ]

def tell (s : Scope κ α) (e : OwnerEvent α) : Scope κ α := { s with events := e :: s.events }

def setPlace (s : Scope κ α) (k : κ) (t : Option ScopedThread) : Scope κ α :=
  { s with held := fun k' => if k' = k then t else s.held k' }

/-- Begins to drop a handle. There is nothing to do if it has no thread. -/
def release (s : Scope κ α) (t : ScopedThread) : Scope κ α :=
  match t.thread with
  | none => { s with stage := .free }
  | some i => { s with stage := .dropping { t with thread := none } i }

/-- Puts a handle in a place. The handle that was there goes away. -/
def put (s : Scope κ α) (k : κ) (t : ScopedThread) : Scope κ α :=
  match s.held k with
  | none => s.setPlace k (some t)
  | some old => (s.setPlace k (some t)).release old

/-- The owner goes on in the join or the drop that it is in, if it need not wait. -/
def proceed (s : Scope κ α) : Option (Scope κ α) :=
  match s.stage with
  | .free => none
  | .joining t i =>
    match s.crew.join { t with thread := some i } with
    | (.waits, _) => none
    | (.impossible, _) => some (s.tell .unreachable)
    | (.ended r, crew) => some ({ s with crew := crew, stage := .leaving t i r }.tell (.joined i))
  | .leaving t i r => some ((s.release t).tell (.returned i r))
  | .dropping t i =>
    (s.crew.drop { t with thread := some i }).map fun (crew, records) =>
      { s with
        crew := crew
        stage := .free
        log := s.log ++ records
        events := .dropped i :: .joined i :: s.events }

def step (s : Scope κ α) : OwnerAction κ α → Option (Scope κ α)
  | .spawn k name verdict refusal =>
    match s.stage, s.unwinding with
    | .free, none =>
      match s.crew.spawn name verdict refusal with
      | (.ok t, crew, records) =>
        let s' := { s with crew := crew, log := s.log ++ records }
        some ((s'.tell (.spawned s.crew.threads.length name verdict)).put k t)
      | (.refused f, crew, records) =>
        some ({ s with crew := crew, log := s.log ++ records }.tell (.refused f))
      | (.panicked m, crew, records) =>
        some { s with crew := crew, log := s.log ++ records, unwinding := some m }
    | _, _ => none
  | .move k source =>
    match s.stage, s.unwinding, s.held source with
    | .free, none, some t => some ((s.setPlace source none).put k t)
    | _, _, _ => none
  | .join k =>
    match s.stage, s.unwinding, s.held k with
    | .free, none, some t =>
      match t.thread with
      | some i => some { s.setPlace k none with stage := .joining { t with thread := none } i }
      | none =>
        some { (s.setPlace k none).tell .unreachable with
          unwinding := some OwnerEvent.unreachableMessage }
    | _, _, _ => none
  | .drop k =>
    match s.stage, s.held k with
    | .free, some t => some ((s.setPlace k none).release t)
    | _, _ => none
  | .proceed => s.proceed
  | .finish i =>
    match s.crew.threads[i]? with
    | some (.running _) =>
      some ({ s with crew := ⟨s.crew.threads.modify i ThreadAt.finish⟩ }.tell (.ran i))
    | _ => none
  | .panic m =>
    match s.stage, s.unwinding with
    | .free, none => some { s with unwinding := some m }
    | _, _ => none
  | .recover =>
    match s.stage, s.unwinding with
    | .free, some _ => some { s with unwinding := none }
    | _, _ => none

def run (s : Scope κ α) : List (OwnerAction κ α) → Option (Scope κ α)
  | [] => some s
  | a :: as => (s.step a).bind (run · as)

end Scope

end Overseer
