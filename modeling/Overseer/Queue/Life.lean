import Overseer.Queue.Linked

/-!
# The life of a linked queue

A queue is whole, or split between a producer and a consumer, until its last owner gives it up.
Each value that was pushed is stored, or was returned by a pop, or was destroyed.
-/

namespace Overseer

/-- Who owns a queue. -/
inductive QueueOwner (α : Type) where
  | one (q : LinkedQueue α)
  | two (q : QueueEnds α)
  | nobody (c : Chain α)

structure QueueLife (α : Type) where
  owner : QueueOwner α := .one .empty
  /-- The values that pops returned, in order. -/
  returned : List α := []
  /-- The values that went with the queue. -/
  destroyed : List α := []

inductive QueueOp (α : Type) where
  /-- Pushes values one after another. -/
  | push (vs : List α)
  | pop
  /-- Pops at most so many values; all there are if no number is given. -/
  | drain (n : Option Nat)
  | front
  | back
  | isEmpty
  /-- Asks the producer. -/
  | producerIsEmpty
  | describe
  | split
  /-- Gives up whatever is left. -/
  | drop
  | dropProducer
  | dropConsumer

inductive QueueAnswer (α : Type) where
  | done
  | value (v : Option α)
  | values (vs : List α)
  | flag (b : Bool)
  | text (s : String)
  /-- Nobody is left to ask. -/
  | moved

namespace QueueLife

variable {α : Type}

def chain (l : QueueLife α) : Chain α :=
  match l.owner with
  | .one q => q.chain
  | .two q => q.chain
  | .nobody c => c

/-- The number of stored values. -/
def live (l : QueueLife α) : Nat :=
  match l.owner with
  | .nobody _ => 0
  | _ => l.chain.live

/-- An operation of the owner of the whole queue. -/
def performOne (l : QueueLife α) (q : LinkedQueue α) :
    QueueOp α → Except MemoryFault (QueueAnswer α × QueueLife α)
  | .push vs => do return (.done, { l with owner := .one (← vs.foldlM LinkedQueue.push q) })
  | .pop => do
    let (v, q) ← q.pop
    return (.value v, { l with owner := .one q, returned := l.returned ++ v.toList })
  | .front => do return (.value (← q.front), l)
  | .back => do return (.value (← q.back), l)
  | .isEmpty => .ok (.flag q.isEmpty, l)
  | .describe => .ok (.text q.describe, l)
  | .split => .ok (.done, { l with owner := .two q.split })
  | .drop => do
    let (vs, c) ← q.drop
    return (.done, { l with owner := .nobody c, destroyed := l.destroyed ++ vs })
  | .drain _ | .producerIsEmpty | .dropProducer | .dropConsumer => .ok (.moved, l)

/-- Goes on after an end was given up, with the values that were destroyed. -/
def lose (l : QueueLife α) (vs : List α) (q : QueueEnds α) : QueueLife α :=
  { l with
    owner := if q.hasProducer || q.hasConsumer then .two q else .nobody q.chain
    destroyed := l.destroyed ++ vs }

/-- An operation of the producer. -/
def performProducer (l : QueueLife α) (q : QueueEnds α) :
    QueueOp α → Except MemoryFault (QueueAnswer α × QueueLife α)
  | .push vs => do
    return (.done, { l with owner := .two { q with chain := ← vs.foldlM Chain.push q.chain } })
  | .producerIsEmpty => .ok (.flag q.chain.isEmpty, l)
  | .dropProducer => do
    let (vs, q) ← q.dropProducer
    return (.done, l.lose vs q)
  | _ => .ok (.moved, l)

/-- An operation of the consumer. -/
def performConsumer (l : QueueLife α) (q : QueueEnds α) :
    QueueOp α → Except MemoryFault (QueueAnswer α × QueueLife α)
  | .pop => do
    let (v, c) ← q.chain.pop
    return (.value v,
      { l with owner := .two { q with chain := c }, returned := l.returned ++ v.toList })
  | .drain n => do
    let (vs, c) ← q.chain.drain (n.getD q.chain.cells.size)
    return (.values vs,
      { l with owner := .two { q with chain := c }, returned := l.returned ++ vs })
  | .front => do return (.value (← q.chain.front), l)
  | .isEmpty => .ok (.flag q.chain.isEmpty, l)
  | .dropConsumer => do
    let (vs, q) ← q.dropConsumer
    return (.done, l.lose vs q)
  | _ => .ok (.moved, l)

/-- Performs an operation, if there is somebody to perform it. -/
def perform (l : QueueLife α) (op : QueueOp α) :
    Except MemoryFault (QueueAnswer α × QueueLife α) :=
  match l.owner, op with
  | .one q, op => l.performOne q op
  | .two q, .drop => do
    let (vs, q) ← q.drop
    return (.done, l.lose vs q)
  | .two q, .push _ | .two q, .producerIsEmpty | .two q, .dropProducer =>
    if q.hasProducer then l.performProducer q op else .ok (.moved, l)
  | .two q, op => if q.hasConsumer then l.performConsumer q op else .ok (.moved, l)
  | .nobody _, _ => .ok (.moved, l)

/-- The life after a list of operations, with what they answered. -/
def run (l : QueueLife α) :
    List (QueueOp α) → Except MemoryFault (List (QueueAnswer α) × QueueLife α)
  | [] => .ok ([], l)
  | op :: ops => do
    let (a, l) ← l.perform op
    let (as, l) ← l.run ops
    return (a :: as, l)

end QueueLife

end Overseer
