import Overseer.Queue.Chain

/-!
# The two ends at work

A producer and a consumer share one chain, and each access to memory is a step that the other may
precede or follow. `step` lets one of the two take its next step, so a list of moves is one
interleaving.
-/

namespace Overseer

/-- Where the producer stands. -/
inductive ProducerAt (α : Type) where
  | idle
  /-- It is to push, and nothing has been done yet. -/
  | pushing (v : α)
  | allocated (v : α) (next : Nat)
  /-- It has read the tail. -/
  | located (v : α) (next tail : Nat)
  | written (v : α) (next tail : Nat)
  /-- The new cell hangs on the old one and is to be published. -/
  | linked (v : α) (next : Nat)
  /-- It is to ask whether the queue is empty. -/
  | asking
  | compared (head : Nat)

/-- What a consumer has come for. -/
inductive Errand where
  | pop
  | front
  | isEmpty
deriving DecidableEq, Repr

/-- Where the consumer stands. -/
inductive ConsumerAt where
  | idle
  | begun (errand : Errand)
  /-- It has read the head. -/
  | located (errand : Errand) (head : Nat)
  /-- The head was not the tail. -/
  | found (errand : Errand) (head : Nat)
  | followed (head next : Nat)
  /-- The head has moved on from a cell that is to be freed. -/
  | advanced (head : Nat)
deriving DecidableEq, Repr

/-- What an operation gave, as seen when it ended. -/
inductive EndsEvent (α : Type) where
  | pushed (v : α)
  | popped (v : Option α)
  | peeked (v : Option α)
  | producerFoundEmpty (b : Bool)
  | consumerFoundEmpty (b : Bool)

/-- What one of the two does next. -/
inductive Move (α : Type) where
  | push (v : α)
  | askEmpty
  /-- The producer's next access. -/
  | produce
  | consume (errand : Errand)
  /-- The consumer's next access. -/
  | proceed

structure EndsAtWork (α : Type) where
  chain : Chain α
  producer : ProducerAt α := .idle
  consumer : ConsumerAt := .idle
  /-- What ended, the latest first. -/
  history : List (EndsEvent α) := []

namespace EndsAtWork

variable {α : Type}

def record (w : EndsAtWork α) (e : EndsEvent α) : EndsAtWork α :=
  { w with history := e :: w.history }

/-- The producer's next access. -/
def produce (w : EndsAtWork α) : Except MemoryFault (EndsAtWork α) :=
  match w.producer with
  | .idle => .ok w
  | .pushing v =>
    let (next, chain) := w.chain.allocate
    .ok { w with chain := chain, producer := .allocated v next }
  | .allocated v next => .ok { w with producer := .located v next w.chain.tail }
  | .located v next tail => do
    return { w with chain := ← w.chain.setValue tail v, producer := .written v next tail }
  | .written v next tail => do
    return { w with chain := ← w.chain.setNext tail next, producer := .linked v next }
  | .linked v next =>
    .ok ({ w with chain := w.chain.setTail next, producer := .idle }.record (.pushed v))
  | .asking => .ok { w with producer := .compared w.chain.head }
  | .compared head =>
    .ok ({ w with producer := .idle }.record (.producerFoundEmpty (head = w.chain.tail)))

/-- The consumer has found nothing. -/
def emptyHanded (w : EndsAtWork α) (errand : Errand) : EndsAtWork α :=
  { w with consumer := .idle }.record <|
    match errand with
    | .pop => .popped none
    | .front => .peeked none
    | .isEmpty => .consumerFoundEmpty true

/-- The consumer's next access. -/
def proceed (w : EndsAtWork α) : Except MemoryFault (EndsAtWork α) :=
  match w.consumer with
  | .idle => .ok w
  | .begun errand => .ok { w with consumer := .located errand w.chain.head }
  | .located errand head =>
    if head = w.chain.tail then .ok (w.emptyHanded errand)
    else if errand = .isEmpty then
      .ok ({ w with consumer := .idle }.record (.consumerFoundEmpty false))
    else .ok { w with consumer := .found errand head }
  | .found .pop head => do
    return { w with consumer := .followed head (← w.chain.nextOf head) }
  | .found _ head => do
    return { w with consumer := .idle }.record (.peeked (← w.chain.valueAt head))
  | .followed head next =>
    .ok { w with chain := w.chain.setHead next, consumer := .advanced head }
  | .advanced head => do
    let (x, chain) ← w.chain.free head
    return { w with chain := chain, consumer := .idle }.record (.popped x.value)

/-- One move. A new operation begins only when the one before has ended. -/
def step (w : EndsAtWork α) : Move α → Except MemoryFault (EndsAtWork α)
  | .push v =>
    match w.producer with
    | .idle => .ok { w with producer := .pushing v }
    | _ => .ok w
  | .askEmpty =>
    match w.producer with
    | .idle => .ok { w with producer := .asking }
    | _ => .ok w
  | .produce => w.produce
  | .consume errand =>
    match w.consumer with
    | .idle => .ok { w with consumer := .begun errand }
    | _ => .ok w
  | .proceed => w.proceed

def run (w : EndsAtWork α) : List (Move α) → Except MemoryFault (EndsAtWork α)
  | [] => .ok w
  | m :: ms => do (← w.step m).run ms

/-- The values received so far, in order. -/
def received (w : EndsAtWork α) : List α :=
  w.history.reverse.filterMap fun
    | .popped v => v
    | _ => none

/-- Pushes a value while the consumer pops: the two take turns. -/
def exchange (v : α) : List (Move α) :=
  [.push v, .consume .pop] ++ (List.replicate 5 [.produce, .proceed]).flatten

end EndsAtWork

end Overseer
