/-!
# A chain of cells in memory

The storage of the linked queue: cells that hold a value and the address of the next cell. The
cell at `tail` holds nothing yet. Each access to memory is a function of its own, so that the
accesses of two threads can be interleaved, and an access to a cell that is not there is a fault.
Addresses are never used twice.
-/

namespace Overseer

structure Cell (α : Type) where
  value : Option α := none
  next : Option Nat := none
deriving DecidableEq, Repr

/-- What must never happen. -/
inductive MemoryFault where
  /-- A cell was used that was never there or was freed. -/
  | dangling (a : Nat)
  /-- A missing address was followed. -/
  | missing
  /-- The chain did not end. -/
  | endless
deriving DecidableEq, Repr

/-- The cells by address; a freed one is `none`. -/
structure Chain (α : Type) where
  cells : Array (Option (Cell α))
  head : Nat
  tail : Nat

namespace Chain

variable {α : Type}

/-- The chain without a value: one cell, which both ends name. -/
def empty : Chain α := ⟨#[some {}], 0, 0⟩

def cell? (c : Chain α) (a : Nat) : Option (Cell α) := (c.cells[a]?).join

/-- A fresh cell. -/
def allocate (c : Chain α) : Nat × Chain α :=
  (c.cells.size, { c with cells := c.cells.push (some {}) })

/-- Changes a cell. -/
def update (c : Chain α) (a : Nat) (f : Cell α → Cell α) : Except MemoryFault (Chain α) :=
  match c.cell? a with
  | some x => .ok { c with cells := c.cells.setIfInBounds a (some (f x)) }
  | none => .error (.dangling a)

def setValue (c : Chain α) (a : Nat) (v : α) : Except MemoryFault (Chain α) :=
  c.update a fun x => { x with value := some v }

def setNext (c : Chain α) (a next : Nat) : Except MemoryFault (Chain α) :=
  c.update a fun x => { x with next := some next }

def setTail (c : Chain α) (a : Nat) : Chain α := { c with tail := a }

def setHead (c : Chain α) (a : Nat) : Chain α := { c with head := a }

/-- The value in a cell. -/
def valueAt (c : Chain α) (a : Nat) : Except MemoryFault (Option α) :=
  match c.cell? a with
  | some x => .ok x.value
  | none => .error (.dangling a)

/-- The address a cell leads to, which a reader relies on. -/
def nextOf (c : Chain α) (a : Nat) : Except MemoryFault Nat :=
  match c.cell? a with
  | some ⟨_, some next⟩ => .ok next
  | some ⟨_, none⟩ => .error .missing
  | none => .error (.dangling a)

/-- Frees a cell and hands out what it holds. -/
def free (c : Chain α) (a : Nat) : Except MemoryFault (Cell α × Chain α) :=
  match c.cell? a with
  | some x => .ok (x, { c with cells := c.cells.setIfInBounds a none })
  | none => .error (.dangling a)

/-- Puts a value in the cell at the tail and a fresh cell behind it. -/
def push (c : Chain α) (v : α) : Except MemoryFault (Chain α) := do
  let (next, c) := c.allocate
  let tail := c.tail
  let c ← c.setValue tail v
  let c ← c.setNext tail next
  return c.setTail next

def isEmpty (c : Chain α) : Bool := c.head = c.tail

/-- Moves the head on and takes the value out of the cell it leaves. -/
def pop (c : Chain α) : Except MemoryFault (Option α × Chain α) := do
  if c.isEmpty then return (none, c)
  let head := c.head
  let next ← c.nextOf head
  let (x, c) ← (c.setHead next).free head
  return (x.value, c)

def front (c : Chain α) : Except MemoryFault (Option α) :=
  if c.isEmpty then .ok none else c.valueAt c.head

/-- Pops at most `n` values. -/
def drain (c : Chain α) : Nat → Except MemoryFault (List α × Chain α)
  | 0 => .ok ([], c)
  | n + 1 => do
    let (v, c) ← c.pop
    match v with
    | none => return ([], c)
    | some v =>
      let (vs, c) ← c.drain n
      return (v :: vs, c)

/-- Frees the cells from an address on, at most `n`, and gives the values they held. -/
def freeFrom (c : Chain α) (a : Option Nat) (n : Nat) :
    Except MemoryFault (List α × Chain α) :=
  match a, n with
  | none, _ => .ok ([], c)
  | some _, 0 => .error .endless
  | some a, n + 1 => do
    let (x, c) ← c.free a
    let (vs, c) ← c.freeFrom x.next n
    return (x.value.toList ++ vs, c)

/-- Frees all cells. There are no more of them than addresses. -/
def tearDown (c : Chain α) : Except MemoryFault (List α × Chain α) :=
  c.freeFrom (some c.head) c.cells.size

/-- How many values are in memory. -/
def live (c : Chain α) : Nat :=
  c.cells.foldl (fun n x => if (x.bind (·.value)).isSome then n + 1 else n) 0

end Chain

end Overseer
