import Overseer.Queue.Deque
import Overseer.Worker.Token

/-!
# Deques and tokens among threads

Every deque and every family of tokens stands behind a lock. A call that needs the lock takes it,
works and lets go of it, also when the work panics: the panic unwinds through the guard of the lock.
A wait lets go of the lock while it lasts. A call that needs no lock is over in one step. A list of
actions, run by `run`, is one interleaving of any number of threads.
-/

namespace Overseer

/-- The lock of a deque or of a family of tokens, by their numbers. -/
inductive Lock where
  | deque (i : Nat)
  | family (f : Nat)
deriving DecidableEq, Repr

/-- What a call ends with. -/
inductive Upshot (α : Type) where
  | unit
  | number (n : Nat)
  | flag (b : Bool)
  | element (a : Option α)
  | text (s : String)
  | panicked (message : String)
deriving DecidableEq, Repr

/-- What a deque is asked for without changing it. -/
inductive Query (α : Type) where
  | size
  | isEmpty
  | peek (e : End)
  | describe (element : α → String)

/-- A call that needs a lock, with what the clock shows when the call reads it. Deques are numbered
in the order in which they are made, and tokens are in named places. -/
inductive Visit (α κ : Type) where
  | push (i : Nat) (e : End) (a : α)
  | pop (i : Nat) (e : End) (p : Patience) (now : Moment)
  | clear (i : Nat)
  | query (i : Nat) (q : Query α)
  /-- Copies the elements into a deque of their own. -/
  | copy (i : Nat)
  | cancel (k : κ)
  | wait (k : κ) (timeout : Span) (now : Moment)

/-- A call that needs no lock. -/
inductive Prompt (α κ : Type) where
  /-- Makes a deque of the elements. -/
  | make (as : List α)
  | fresh (k : κ)
  | copy (k source : κ)
  | drop (k : κ)
  | ask (k : κ)

inductive Request (α κ : Type) where
  | visit (v : Visit α κ)
  | prompt (p : Prompt α κ)

/-- How the work under a lock ends. -/
inductive WorkEnd (α : Type) where
  /-- The call is over, and the guard of the lock goes. -/
  | over (u : Upshot α)
  /-- The call waits, with a deadline or without. -/
  | waits (timed : Bool)

/-- Where a thread stands. A call is `late` when its deadline has been reached. -/
inductive Standing (α κ : Type) where
  | idle
  /-- It wants the lock. -/
  | wanting (v : Visit α κ) (l : Lock) (late : Bool)
  /-- It has the lock and is to work. -/
  | inside (v : Visit α κ) (l : Lock) (late : Bool)
  /-- It has worked, or is unwinding, and is to let go of the lock. -/
  | leaving (v : Visit α κ) (l : Lock) (u : Upshot α)
  /-- It has pushed and let go of the lock, and is to notify one waiter. -/
  | notifying (l : Lock)
  /-- It has let go of the lock and waits. -/
  | parked (v : Visit α κ) (l : Lock) (timed : Bool)

/-- One step of one thread. Threads are numbered. -/
inductive CommonsAction (α κ : Type) where
  | prompt (who : Nat) (p : Prompt α κ)
  /-- Begins a call that needs a lock. -/
  | arrive (who : Nat) (v : Visit α κ)
  | take (who : Nat)
  | work (who : Nat)
  | leave (who : Nat)
  /-- Wakes one waiter, or none if nobody waits there. -/
  | notify (who : Nat) (whom : Option Nat)
  /-- A waiter wakes although nobody woke it. -/
  | wake (who : Nat)
  /-- A waiter reaches its deadline. -/
  | expire (who : Nat)

@[ext] structure Commons (α κ : Type) where
  deques : List (Deque α)
  tokens : Tokens κ
  /-- Who has a lock. -/
  holder : Lock → Option Nat := fun _ => none
  threads : List (Standing α κ)
  /-- The calls that ended and how, the latest first. -/
  told : List (Nat × Request α κ × Upshot α) := []

variable {α κ : Type}

def Lock.number : Lock → Nat
  | deque i => i
  | family f => f

def Query.answer (d : Deque α) : Query α → Upshot α
  | size => .number d.size
  | isEmpty => .flag d.isEmpty
  | peek e => .element (d.peek? e)
  | describe element => .text (d.describe element)

/-- What a pop does while it has the lock. When it is `late` it looks for the last time. -/
def Deque.work (d : Deque α) (e : End) (p : Patience) (now : Moment) (late : Bool) :
    WorkEnd α × Deque α :=
  match d.pop now e (if late then .never else p) with
  | (.got a, rest) => (.over (.element (some a)), rest)
  | (.overflow, d) => (.over (.panicked Moment.overflow), d)
  | (.blocks, d) => (.waits false, d)
  | (.nothing, d) => (if late || p = .never then .over (.element none) else .waits true, d)

/-- A wait computes its deadline before it takes the lock. -/
def Visit.isPrecluded : Visit α κ → Bool
  | wait _ timeout now => (now.after? timeout).isNone
  | _ => false

/-- Where a thread goes after it has let go of the lock. -/
def Visit.next (l : Lock) : Visit α κ → Standing α κ
  | push .. => .notifying l
  | _ => .idle

namespace Standing

def isParkedAt (l : Lock) : Standing α κ → Bool
  | parked _ l' _ => l' = l
  | _ => false

/-- Where a thread stands after everybody who waits at the lock was woken. -/
def roused (l : Lock) : Standing α κ → Standing α κ
  | parked v l' timed => if l' = l then wanting v l' false else parked v l' timed
  | s => s

end Standing

namespace Commons

/-- The objects, with `n` threads that are not inside a call. -/
def opened (deques : List (Deque α)) (tokens : Tokens κ) (n : Nat) : Commons α κ :=
  { deques := deques, tokens := tokens, threads := List.replicate n .idle }

def place (c : Commons α κ) (who : Nat) (s : Standing α κ) : Commons α κ :=
  { c with threads := c.threads.set who s }

/-- Hands a lock to a thread, or to nobody. -/
def hand (c : Commons α κ) (l : Lock) (whom : Option Nat) : Commons α κ :=
  { c with holder := fun l' => if l' = l then whom else c.holder l' }

def tell (c : Commons α κ) (who : Nat) (r : Request α κ) (u : Upshot α) : Commons α κ :=
  { c with told := (who, r, u) :: c.told }

def deque (c : Commons α κ) (i : Nat) : Deque α := c.deques.getD i {}

def setDeque (c : Commons α κ) (i : Nat) (d : Deque α) : Commons α κ :=
  { c with deques := c.deques.set i d }

def flag (c : Commons α κ) (f : Nat) : Bool := c.tokens.flags.getD f false

/-- What a call does while it has its lock: how its work ends, and what becomes of the objects. -/
def work (c : Commons α κ) (l : Lock) (late : Bool) : Visit α κ → WorkEnd α × Commons α κ
  | .push i e a => (.over .unit, c.setDeque i ((c.deque i).push e a))
  | .pop i e p now =>
    let (done, d) := (c.deque i).work e p now late
    (done, c.setDeque i d)
  | .clear i => (.over .unit, c.setDeque i (c.deque i).clear)
  | .query i q => (.over (q.answer (c.deque i)), c)
  | .copy i => (.over .unit, { c with deques := c.deques ++ [c.deque i] })
  | .cancel _ =>
    (.over .unit, { c with
      tokens := { c.tokens with flags := c.tokens.flags.set l.number true }
      threads := c.threads.map (Standing.roused l) })
  | .wait .. =>
    (if late || c.flag l.number then .over (.flag (c.flag l.number)) else .waits true, c)

variable [DecidableEq κ]

/-- The lock that a call needs, where what it is made on exists. -/
def lock? (c : Commons α κ) : Visit α κ → Option Lock
  | .push i .. | .pop i .. | .clear i | .query i _ | .copy i =>
    if i < c.deques.length then some (.deque i) else none
  | .cancel k | .wait k .. => (c.tokens.family? k).map .family

/-- Does what needs no lock, where the token it is done to exists. -/
def perform (c : Commons α κ) : Prompt α κ → Option (Upshot α × Commons α κ)
  | .make as => some (.unit, { c with deques := c.deques ++ [.ofList as] })
  | .fresh k => some (.unit, { c with tokens := c.tokens.fresh k })
  | .copy k source => (c.tokens.copy? k source).map fun t => (.unit, { c with tokens := t })
  | .drop k => some (.unit, { c with tokens := c.tokens.drop k })
  | .ask k => (c.tokens.isCancelled? k).map fun b => (.flag b, c)

def step (c : Commons α κ) : CommonsAction α κ → Option (Commons α κ)
  | .prompt who p =>
    match c.threads[who]? with
    | some .idle => (c.perform p).map fun (u, c') => c'.tell who (.prompt p) u
    | _ => none
  | .arrive who v =>
    match c.threads[who]?, c.lock? v with
    | some .idle, some l =>
      if v.isPrecluded then some (c.tell who (.visit v) (.panicked Moment.overflow))
      else some (c.place who (.wanting v l false))
    | _, _ => none
  | .take who =>
    match c.threads[who]? with
    | some (.wanting v l late) =>
      if (c.holder l).isSome then none
      else some ((c.hand l (some who)).place who (.inside v l late))
    | _ => none
  | .work who =>
    match c.threads[who]? with
    | some (.inside v l late) =>
      match c.work l late v with
      | (.over u, c') => some (c'.place who (.leaving v l u))
      | (.waits timed, c') => some ((c'.hand l none).place who (.parked v l timed))
    | _ => none
  | .leave who =>
    match c.threads[who]? with
    | some (.leaving v l u) =>
      some (((c.tell who (.visit v) u).hand l none).place who (v.next l))
    | _ => none
  | .notify who none =>
    match c.threads[who]? with
    | some (.notifying l) =>
      if c.threads.any (Standing.isParkedAt l) then none else some (c.place who .idle)
    | _ => none
  | .notify who (some other) =>
    match c.threads[who]?, c.threads[other]? with
    | some (.notifying l), some (.parked v l' _) =>
      if l' = l then some ((c.place who .idle).place other (.wanting v l false)) else none
    | _, _ => none
  | .wake who =>
    match c.threads[who]? with
    | some (.parked v l _) => some (c.place who (.wanting v l false))
    | _ => none
  | .expire who =>
    match c.threads[who]? with
    | some (.parked v l true) => some (c.place who (.wanting v l true))
    | _ => none

def run (c : Commons α κ) : List (CommonsAction α κ) → Option (Commons α κ)
  | [] => some c
  | a :: as => (c.step a).bind (run · as)

end Commons

end Overseer
