import Overseer.Span

/-!
# The double-ended queue

A list of elements that grows and shrinks at both ends. Taking an element can mean waiting for
one; what a single caller gets then is told by `pop`.
-/

namespace Overseer

inductive End where
  | front
  | back
deriving DecidableEq, Repr

/-- How long a caller waits for an element. -/
inductive Patience where
  | never
  | forever
  | upTo (timeout : Span)
deriving DecidableEq, Repr

/-- Whether the wait has a deadline that the clock cannot show. -/
def Patience.overflows (now : Moment) : Patience → Bool
  | upTo timeout => (now.after? timeout).isNone
  | never | forever => false

/-- The elements, from front to back. -/
structure Deque (α : Type) where
  items : List α := []
deriving DecidableEq, Repr

/-- What a caller alone with the queue gets. -/
inductive Popped (α : Type) where
  | got (a : α)
  /-- There was nothing until the patience was over. -/
  | nothing
  /-- There is nothing, and the wait has no end. -/
  | blocks
  /-- The deadline does not exist. -/
  | overflow
deriving DecidableEq, Repr

namespace Deque

variable {α : Type}

def ofList (as : List α) : Deque α := ⟨as⟩

def toList (d : Deque α) : List α := d.items

def push (e : End) (a : α) (d : Deque α) : Deque α :=
  match e with
  | .front => ⟨a :: d.items⟩
  | .back => ⟨d.items ++ [a]⟩

/-- Pushes the elements one after another at one end. -/
def pushAll (e : End) (as : List α) (d : Deque α) : Deque α :=
  match e with
  | .front => ⟨as.reverse ++ d.items⟩
  | .back => ⟨d.items ++ as⟩

def peek? (e : End) (d : Deque α) : Option α :=
  match e with
  | .front => d.items.head?
  | .back => d.items.getLast?

/-- What is left without the element at one end. -/
def drop (e : End) (d : Deque α) : Deque α :=
  match e with
  | .front => ⟨d.items.tail⟩
  | .back => ⟨d.items.dropLast⟩

def take? (e : End) (d : Deque α) : Option (α × Deque α) :=
  (d.peek? e).map fun a => (a, d.drop e)

def isEmpty (d : Deque α) : Bool := d.items.isEmpty

def size (d : Deque α) : Nat := d.items.length

def clear (_ : Deque α) : Deque α := {}

/-- Takes an element for a caller alone with the queue. A deadline is computed before the queue is
looked at. -/
def pop (now : Moment) (e : End) (p : Patience) (d : Deque α) : Popped α × Deque α :=
  if p.overflows now then (.overflow, d)
  else
    match d.take? e with
    | some (a, rest) => (.got a, rest)
    | none =>
      match p with
      | .forever => (.blocks, d)
      | .never | .upTo _ => (.nothing, d)

/-- The queue on one line. -/
def describe (element : α → String) (d : Deque α) : String :=
  "ThreadSafeDeque \x7b items: [" ++ ", ".intercalate (d.items.map element) ++ "] \x7d"

@[simp] theorem toList_push_front (a : α) (d : Deque α) :
    (d.push .front a).toList = a :: d.toList := rfl

@[simp] theorem toList_push_back (a : α) (d : Deque α) :
    (d.push .back a).toList = d.toList ++ [a] := rfl

/-- What is put in at once is what comes of one push after another. -/
theorem pushAll_eq_foldl (e : End) (as : List α) (d : Deque α) :
    d.pushAll e as = as.foldl (fun d a => d.push e a) d := by
  induction as generalizing d with
  | nil => cases e <;> simp [pushAll]
  | cons a as ih =>
    rw [List.foldl_cons, ← ih]
    cases e <;> simp [pushAll, push]

end Deque

end Overseer
