import Overseer.Queue.Deque

/-!
# The double-ended queue among threads

The queue stands behind a lock, and callers that find it empty park until somebody pushes. A push
and its notification are two steps: the lock is released in between. A parked caller may also wake
for no reason, or because its deadline is reached. A list of actions, run by `run`, is one
interleaving of the callers. A copy is a queue of its own, with a lock and callers of its own.
-/

namespace Overseer

/-- Where a caller stands. -/
inductive Caller where
  /-- Not inside an operation. -/
  | outside
  /-- It has pushed and is to notify. -/
  | notifying
  /-- It has released the lock and waits, with a deadline or without. -/
  | parked (e : End) (timed : Bool)
  /-- It was woken and is to look again. -/
  | woken (e : End) (timed : Bool)
  /-- Its deadline was reached, and it is to look for the last time. -/
  | expired (e : End)
deriving DecidableEq, Repr

def Caller.isParked : Caller → Bool
  | parked .. => true
  | _ => false

/-- One step of one caller. Callers are numbered. -/
inductive DequeAction (α : Type) where
  | push (who : Nat) (e : End) (a : α)
  /-- Wakes one parked caller, or none if none is parked. -/
  | notify (who : Nat) (whom : Option Nat)
  | pop (who : Nat) (e : End) (p : Patience) (now : Moment)
  /-- A parked caller wakes although nobody notified it. -/
  | wake (who : Nat)
  /-- A parked caller reaches its deadline. -/
  | expire (who : Nat)
  /-- A caller that is awake again takes the lock and looks for an element. -/
  | look (who : Nat)
  | clear (who : Nat)
  /-- Copies the elements into a queue of their own. -/
  | copy (who : Nat)

/-- What a section under the lock did. -/
inductive DequeEvent (α : Type) where
  | pushed (who : Nat) (e : End) (a : α)
  | popped (who : Nat) (e : End) (a : α)
  /-- A caller went away with nothing, after a deadline or because it would not wait. -/
  | gaveUp (who : Nat) (timed : Bool)
  | overflowed (who : Nat)
  | cleared (as : List α)
  | copied (who : Nat) (copy : Deque α)

structure Monitor (α : Type) where
  queue : Deque α
  callers : List Caller
  /-- What the sections did, the latest first. -/
  history : List (DequeEvent α) := []

namespace Monitor

variable {α : Type}

/-- The queue with `n` callers outside. -/
def start (queue : Deque α) (n : Nat) : Monitor α := ⟨queue, List.replicate n .outside, []⟩

def place (m : Monitor α) (who : Nat) (c : Caller) : Monitor α :=
  { m with callers := m.callers.set who c }

def record (m : Monitor α) (e : DequeEvent α) : Monitor α := { m with history := e :: m.history }

/-- Takes an element for a caller under the lock; where there is none the caller goes on as
`otherwise` says. -/
def serve (m : Monitor α) (who : Nat) (e : End) (otherwise : Monitor α) : Monitor α :=
  match m.queue.take? e with
  | some (a, rest) => { m with queue := rest }.record (.popped who e a) |>.place who .outside
  | none => otherwise

/-- One step, where the caller stands where the step begins. -/
def step (m : Monitor α) : DequeAction α → Option (Monitor α)
  | .push who e a =>
    match m.callers[who]? with
    | some .outside =>
      some ({ m with queue := m.queue.push e a }.record (.pushed who e a) |>.place who .notifying)
    | _ => none
  | .notify who whom =>
    match m.callers[who]?, whom with
    | some .notifying, none =>
      if m.callers.any Caller.isParked then none else some (m.place who .outside)
    | some .notifying, some other =>
      match m.callers[other]? with
      | some (.parked e timed) => some (m.place who .outside |>.place other (.woken e timed))
      | _ => none
    | _, _ => none
  | .pop who e p now =>
    match m.callers[who]? with
    | some .outside =>
      if p.overflows now then some (m.record (.overflowed who))
      else
        some <| m.serve who e <|
          match p with
          | .never => m.record (.gaveUp who false)
          | .forever => m.place who (.parked e false)
          | .upTo _ => m.place who (.parked e true)
    | _ => none
  | .wake who =>
    match m.callers[who]? with
    | some (.parked e timed) => some (m.place who (.woken e timed))
    | _ => none
  | .expire who =>
    match m.callers[who]? with
    | some (.parked e true) => some (m.place who (.expired e))
    | _ => none
  | .look who =>
    match m.callers[who]? with
    | some (.woken e timed) => some (m.serve who e (m.place who (.parked e timed)))
    | some (.expired e) =>
      some (m.serve who e (m.record (.gaveUp who true) |>.place who .outside))
    | _ => none
  | .clear who =>
    match m.callers[who]? with
    | some .outside => some ({ m with queue := m.queue.clear }.record (.cleared m.queue.toList))
    | _ => none
  | .copy who =>
    match m.callers[who]? with
    | some .outside => some (m.record (.copied who m.queue))
    | _ => none

/-- Runs the steps in order, if each can be taken. -/
def run (m : Monitor α) : List (DequeAction α) → Option (Monitor α)
  | [] => some m
  | a :: as => (m.step a).bind (run · as)

/-- The first caller that stands as `p` says. -/
def first? (m : Monitor α) (p : Caller → Bool) : Option Nat := m.callers.findIdx? p

/-- What a scheduler lets happen next: a notification, or a look of a caller that is awake. -/
def next? (m : Monitor α) : Option (DequeAction α) :=
  match m.first? (· = .notifying) with
  | some who => some (.notify who (m.first? Caller.isParked))
  | none =>
    (m.first? fun
      | .woken .. | .expired _ => true
      | _ => false).map .look

/-- Lets happen what is next, at most `n` times. -/
def settle (m : Monitor α) : Nat → Monitor α
  | 0 => m
  | n + 1 =>
    match m.next?.bind m.step with
    | some m' => m'.settle n
    | none => m

/-- Takes a step and lets happen what follows from it: a notification wakes one caller, and each
caller that is awake looks once. -/
def act (m : Monitor α) (a : DequeAction α) : Monitor α :=
  match m.step a with
  | some m' => m'.settle (2 * m'.callers.length)
  | none => m

/-- What a caller got, once it is outside again. -/
def takings (m : Monitor α) : List (Option α) :=
  m.history.reverse.filterMap fun
    | .popped _ _ a => some (some a)
    | .gaveUp .. => some none
    | _ => none

end Monitor

/-- Deques side by side, each with a lock and callers of its own. A thread is a caller of each of
them; that it is inside one operation at a time is not asked for. -/
structure Deques (α : Type) where
  threads : Nat
  monitors : List (Monitor α)

namespace Deques

variable {α : Type}

/-- One deque, with nobody inside. -/
def start (queue : Deque α) (n : Nat) : Deques α := ⟨n, [.start queue n]⟩

/-- The deques that a section on `m` makes. -/
def made (s : Deques α) (m : Monitor α) : DequeAction α → List (Monitor α)
  | .copy _ => [.start m.queue s.threads]
  | _ => []

/-- One step of a caller of the `i`-th deque. A copy goes behind the other deques. -/
def step (s : Deques α) (i : Nat) (a : DequeAction α) : Option (Deques α) :=
  match s.monitors[i]? with
  | none => none
  | some m => (m.step a).map fun m' => { s with monitors := s.monitors.set i m' ++ s.made m a }

def run (s : Deques α) : List (Nat × DequeAction α) → Option (Deques α)
  | [] => some s
  | (i, a) :: acts => (s.step i a).bind (run · acts)

end Deques

end Overseer
