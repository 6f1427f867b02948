import Overseer.Queue.Chain

/-!
# The linked queue

A queue on a chain of cells. Its owner can split it in two ends for two threads: a producer that
pushes and a consumer that pops. The chain goes when the last of its owners goes.
-/

namespace Overseer

/-- The whole queue. -/
structure LinkedQueue (α : Type) where
  chain : Chain α
  /-- The cell that got the newest value. -/
  last : Option Nat

/-- The queue after the split. -/
structure QueueEnds (α : Type) where
  chain : Chain α
  hasProducer : Bool := true
  hasConsumer : Bool := true

variable {α : Type}

namespace LinkedQueue

def empty : LinkedQueue α := ⟨.empty, none⟩

def push (q : LinkedQueue α) (v : α) : Except MemoryFault (LinkedQueue α) := do
  let last := q.chain.tail
  return ⟨← q.chain.push v, some last⟩

/-- A queue found empty has no newest value. -/
def pop (q : LinkedQueue α) : Except MemoryFault (Option α × LinkedQueue α) := do
  let (v, chain) ← q.chain.pop
  return (v, ⟨chain, if chain.isEmpty then none else q.last⟩)

def front (q : LinkedQueue α) : Except MemoryFault (Option α) := q.chain.front

def back (q : LinkedQueue α) : Except MemoryFault (Option α) :=
  if q.chain.isEmpty then .ok none
  else
    match q.last with
    | none => .ok none
    | some a => q.chain.valueAt a

def isEmpty (q : LinkedQueue α) : Bool := q.chain.isEmpty

/-- Gives up the whole for its two ends. -/
def split (q : LinkedQueue α) : QueueEnds α := { chain := q.chain }

/-- Gives up the queue, with the values destroyed. -/
def drop (q : LinkedQueue α) : Except MemoryFault (List α × Chain α) := q.chain.tearDown

/-- The queue on one line. -/
def describe (q : LinkedQueue α) : String :=
  "LockFreeQueue \x7b empty: " ++ toString q.isEmpty ++ " \x7d"

end LinkedQueue

namespace QueueEnds

/-- Frees the chain if nobody owns it any more, with the values destroyed. -/
def collect (q : QueueEnds α) : Except MemoryFault (List α × QueueEnds α) :=
  if q.hasProducer || q.hasConsumer then .ok ([], q)
  else do
    let (vs, chain) ← q.chain.tearDown
    return (vs, { q with chain := chain })

def dropProducer (q : QueueEnds α) : Except MemoryFault (List α × QueueEnds α) :=
  { q with hasProducer := false }.collect

def dropConsumer (q : QueueEnds α) : Except MemoryFault (List α × QueueEnds α) :=
  { q with hasConsumer := false }.collect

/-- Gives up whatever ends are left. -/
def drop (q : QueueEnds α) : Except MemoryFault (List α × QueueEnds α) :=
  { q with hasProducer := false, hasConsumer := false }.collect

end QueueEnds

end Overseer
