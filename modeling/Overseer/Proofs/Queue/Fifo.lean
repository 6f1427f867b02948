import Overseer.Proofs.Queue.Paths
import Overseer.Queue.Life

/-!
# The queue as a list

`Fifo` is what a linked queue amounts to: who owns it, and the list of its values, which come out
as they went in. A life `Stands` as a list when its cells store that list, and `Stands.perform`
says that each operation can be performed, answers as the list does and keeps it so, down to the
last owner's giving up; with what was pushed it ties what was returned and what was destroyed.
-/

namespace Overseer

variable {α : Type}

/-- A queue without its cells. -/
inductive Fifo (α : Type) where
  | whole (vs : List α)
  | ends (hasProducer hasConsumer : Bool) (vs : List α)
  | gone

namespace Fifo

/-- The values, the first pushed first. -/
def items : Fifo α → List α
  | whole vs | ends _ _ vs => vs
  | gone => []

/-- What is left when an end was given up. -/
def left (hasProducer hasConsumer : Bool) (vs : List α) : Fifo α :=
  if hasProducer || hasConsumer then ends hasProducer hasConsumer vs else gone

/-- What an operation answers, and what the queue is then. -/
def perform : Fifo α → QueueOp α → QueueAnswer α × Fifo α
  | whole vs, .push us => (.done, whole (vs ++ us))
  | whole vs, .pop => (.value vs.head?, whole vs.tail)
  | whole vs, .front => (.value vs.head?, whole vs)
  | whole vs, .back => (.value vs.getLast?, whole vs)
  | whole vs, .isEmpty => (.flag vs.isEmpty, whole vs)
  | whole vs, .describe =>
    (.text ("LockFreeQueue \x7b empty: " ++ toString vs.isEmpty ++ " \x7d"), whole vs)
  | whole vs, .split => (.done, ends true true vs)
  | whole _, .drop => (.done, gone)
  | ends true c vs, .push us => (.done, ends true c (vs ++ us))
  | ends true c vs, .producerIsEmpty => (.flag vs.isEmpty, ends true c vs)
  | ends true c vs, .dropProducer => (.done, left false c vs)
  | ends p true vs, .pop => (.value vs.head?, ends p true vs.tail)
  | ends p true vs, .drain n =>
    (.values (vs.take (n.getD vs.length)), ends p true (vs.drop (n.getD vs.length)))
  | ends p true vs, .front => (.value vs.head?, ends p true vs)
  | ends p true vs, .isEmpty => (.flag vs.isEmpty, ends p true vs)
  | ends p true vs, .dropConsumer => (.done, left p false vs)
  | ends _ _ _, .drop => (.done, gone)
  | f, _ => (.moved, f)

def run (f : Fifo α) : List (QueueOp α) → List (QueueAnswer α) × Fifo α
  | [] => ([], f)
  | op :: ops =>
    ((f.perform op).1 :: ((f.perform op).2.run ops).1, ((f.perform op).2.run ops).2)

end Fifo

/-- The values that an operation pushes. -/
def QueueOp.pushes : QueueOp α → List α
  | push vs => vs
  | _ => []

/-- The values that an operation has pushed, by its answer. -/
def QueueOp.accepted : QueueOp α → QueueAnswer α → List α
  | push vs, .done => vs
  | _, _ => []

/-- The values that operations have pushed, by their answers. -/
def acceptedIn (ops : List (QueueOp α)) (as : List (QueueAnswer α)) : List α :=
  (ops.zipWith QueueOp.accepted as).flatten

@[simp] lemma acceptedIn_cons (op : QueueOp α) (ops : List (QueueOp α)) (a : QueueAnswer α)
    (as : List (QueueAnswer α)) :
    acceptedIn (op :: ops) (a :: as) = op.accepted a ++ acceptedIn ops as := rfl

/-! ### Looking at a settled chain -/

namespace Chain

variable {c : Chain α} {log : List α}

/-- The cell before the tail, where there is one. -/
def newest? (c : Chain α) : Option Nat := if c.isEmpty then none else some (c.tail - 1)

/-- What goes to the front of the head leaves the rest behind it. -/
lemma drop_of_take {m n : Nat} {vs : List α} (h : log.take n = log.take m ++ vs) :
    log.drop m = vs ++ log.drop n := by
  have hall : log.take m ++ log.drop m = log.take m ++ (vs ++ log.drop n) := by
    rw [← List.append_assoc, ← h, List.take_append_drop, List.take_append_drop]
  exact List.append_cancel_left hall

namespace Settled

lemma isEmpty_eq (h : c.Settled log) : c.isEmpty = (log.drop c.head).isEmpty := by
  have hle := h.head_le
  have htail := h.tail_eq
  rw [Bool.eq_iff_iff, isEmpty, decide_eq_true_iff, List.isEmpty_iff, List.drop_eq_nil_iff]
  omega

lemma getLast?_range' (h : c.Settled log) :
    (List.range' c.head (c.tail - c.head)).getLast? = c.newest? := by
  have hle := h.head_le
  rw [List.getLast?_range', newest?, isEmpty]
  by_cases hempty : c.head = c.tail
  · rw [hempty, Nat.sub_self, if_pos rfl, if_pos (decide_eq_true rfl)]
  · have hne : c.tail - c.head ≠ 0 := by omega
    rw [if_neg hne, if_neg (by simpa using hempty)]
    congr 1
    omega

lemma front (h : c.Settled log) : c.front = .ok (log.drop c.head).head? := by
  rw [List.head?_drop, Chain.front]
  split
  · rename_i hempty
    have hnil := h.isEmpty_eq
    rw [hempty] at hnil
    rw [← List.head?_drop, List.isEmpty_iff.mp hnil.symm]
    rfl
  · rename_i hempty
    have hlt : c.head < c.tail := Nat.lt_of_le_of_ne h.head_le (by simpa [isEmpty] using hempty)
    exact h.valueAt (Nat.le_refl _) hlt

/-- A pop takes the first of the values that are left. -/
lemma pop_items (h : c.Settled log) :
    ∃ c', c.pop = .ok ((log.drop c.head).head?, c') ∧ c'.Settled log ∧
      log.take c'.head = log.take c.head ++ (log.drop c.head).head?.toList ∧
      log.drop c'.head = (log.drop c.head).tail := by
  obtain ⟨c', hpop, hc, htake⟩ := h.pop
  rw [← List.head?_drop] at hpop htake
  refine ⟨c', hpop, hc, htake, ?_⟩
  have hdrop := drop_of_take htake
  cases hitems : log.drop c.head with
  | nil =>
    rw [hitems] at hdrop
    exact (List.nil_eq_append_iff.mp hdrop).2
  | cons v vs =>
    rw [hitems] at hdrop
    exact (List.cons.inj hdrop).2.symm

/-- A drain takes the first of the values that are left, as many as it is let. -/
lemma drain (h : c.Settled log) (n : Nat) :
    ∃ c', c.drain n = .ok ((log.drop c.head).take n, c') ∧ c'.Settled log ∧
      log.take c'.head = log.take c.head ++ (log.drop c.head).take n ∧
      log.drop c'.head = (log.drop c.head).drop n := by
  induction n generalizing c with
  | zero => exact ⟨c, rfl, h, (List.append_nil _).symm, rfl⟩
  | succ n ih =>
    obtain ⟨c₁, hpop, hc₁, htake₁, hdrop₁⟩ := h.pop_items
    cases hitems : log.drop c.head with
    | nil =>
      refine ⟨c, ?_, h, ?_, hitems⟩
      · rw [hitems] at hpop
        have hempty : c.isEmpty = true := by rw [h.isEmpty_eq, hitems]; rfl
        rw [Chain.drain, Chain.pop, if_pos hempty]
        rfl
      · exact (List.append_nil _).symm
    | cons v vs =>
      rw [hitems] at hpop htake₁ hdrop₁
      obtain ⟨c', hdrain, hc', htake, hdrop⟩ := ih hc₁
      rw [hdrop₁] at hdrain htake hdrop
      refine ⟨c', ?_, hc', ?_, hdrop⟩
      · rw [Chain.drain, hpop]
        simp only [ok_bind, List.head?_cons, List.tail_cons] at hdrain ⊢
        rw [hdrain]
        rfl
      · rw [htake, htake₁, List.append_assoc]
        rfl

lemma pushAll (h : c.Settled log) (vs : List α) :
    ∃ c', vs.foldlM Chain.push c = .ok c' ∧ c'.head = c.head ∧ c'.Settled (log ++ vs) := by
  induction vs generalizing c log with
  | nil => exact ⟨c, rfl, rfl, by rwa [List.append_nil]⟩
  | cons v vs ih =>
    obtain ⟨c₁, hpush, hhead₁, hc₁⟩ := h.push v
    obtain ⟨c', hrest, hhead, hc'⟩ := ih hc₁
    refine ⟨c', ?_, hhead.trans hhead₁, ?_⟩
    · rw [List.foldlM_cons, hpush]
      exact hrest
    · rwa [List.append_assoc, List.singleton_append] at hc'

end Settled

end Chain

/-! ### Whole queues -/

namespace LinkedQueue

variable {q : LinkedQueue α} {log : List α}

/-- The owner of a whole queue knows the cell of the newest value. -/
structure Sound (q : LinkedQueue α) (log : List α) : Prop where
  settled : q.chain.Settled log
  last_eq : q.last = q.chain.newest?

lemma sound_empty : (empty : LinkedQueue α).Sound [] := ⟨Chain.settled_empty, rfl⟩

lemma describe_of_isEmpty {b : Bool} (h : q.isEmpty = b) :
    q.describe = "LockFreeQueue \x7b empty: " ++ toString b ++ " \x7d" := by
  subst h
  rfl

namespace Sound

lemma push (h : q.Sound log) (v : α) :
    ∃ q', q.push v = .ok q' ∧ q'.chain.head = q.chain.head ∧ q'.Sound (log ++ [v]) := by
  obtain ⟨c, hpush, hhead, hc⟩ := h.settled.push v
  refine ⟨⟨c, some q.chain.tail⟩, ?_, hhead, hc, ?_⟩
  · rw [LinkedQueue.push, hpush]
    rfl
  · have htail : c.tail = q.chain.tail + 1 := by
      rw [hc.tail_eq, h.settled.tail_eq, List.length_append, List.length_singleton]
    have hle := h.settled.head_le
    have hne : ¬c.isEmpty := by
      rw [Chain.isEmpty, decide_eq_true_iff]
      omega
    rw [Chain.newest?, if_neg hne, htail, Nat.add_sub_cancel]

lemma pushAll (h : q.Sound log) (vs : List α) :
    ∃ q', vs.foldlM LinkedQueue.push q = .ok q' ∧ q'.chain.head = q.chain.head ∧
      q'.Sound (log ++ vs) := by
  induction vs generalizing q log with
  | nil => exact ⟨q, rfl, rfl, by rwa [List.append_nil]⟩
  | cons v vs ih =>
    obtain ⟨q₁, hpush, hhead₁, hq₁⟩ := h.push v
    obtain ⟨q', hrest, hhead, hq'⟩ := ih hq₁
    refine ⟨q', ?_, hhead.trans hhead₁, ?_⟩
    · rw [List.foldlM_cons, hpush]
      exact hrest
    · rwa [List.append_assoc, List.singleton_append] at hq'

lemma pop (h : q.Sound log) :
    ∃ q', q.pop = .ok ((log.drop q.chain.head).head?, q') ∧ q'.Sound log ∧
      log.take q'.chain.head =
        log.take q.chain.head ++ (log.drop q.chain.head).head?.toList ∧
      log.drop q'.chain.head = (log.drop q.chain.head).tail := by
  obtain ⟨c, hpop, hc, htake, hdrop⟩ := h.settled.pop_items
  refine ⟨⟨c, if c.isEmpty then none else q.last⟩, ?_, ⟨hc, ?_⟩, htake, hdrop⟩
  · rw [LinkedQueue.pop, hpop]
    rfl
  · rw [Chain.newest?]
    split
    · rfl
    · rename_i hne
      -- a queue that has values after a pop had some before it, and the newest is the same
      have hne' : ¬q.chain.isEmpty := by
        rw [h.settled.isEmpty_eq, List.isEmpty_iff]
        intro hnil
        rw [hnil, List.tail_nil] at hdrop
        exact hne (by rw [hc.isEmpty_eq, hdrop]; rfl)
      rw [h.last_eq, Chain.newest?, if_neg hne', hc.tail_eq, h.settled.tail_eq]

lemma back (h : q.Sound log) : q.back = .ok (log.drop q.chain.head).getLast? := by
  rw [LinkedQueue.back, h.last_eq, Chain.newest?]
  split
  · rename_i hempty
    rw [h.settled.isEmpty_eq, List.isEmpty_iff] at hempty
    rw [hempty]
    rfl
  · rename_i hempty
    have hle := h.settled.head_le
    have htail := h.settled.tail_eq
    have hlt : q.chain.head < q.chain.tail :=
      Nat.lt_of_le_of_ne hle (by simpa [Chain.isEmpty] using hempty)
    have hvalue := h.settled.valueAt (show q.chain.head ≤ q.chain.tail - 1 by omega)
      (show q.chain.tail - 1 < q.chain.tail by omega)
    rw [List.getLast?_drop, if_neg (by omega), List.getLast?_eq_getElem?, ← htail]
    exact hvalue

end Sound

end LinkedQueue

/-! ### Lives -/

namespace QueueLife

variable {l : QueueLife α} {f : Fifo α} {log : List α}

/-- A life stands as a list when the values of `log` have been pushed. What was returned is the
first part of them; nothing is destroyed while somebody owns the queue, and all the others when
nobody does. -/
inductive Stands (log : List α) : QueueLife α → Fifo α → Prop where
  | whole {q : LinkedQueue α} (hq : q.Sound log) :
      Stands log ⟨.one q, log.take q.chain.head, []⟩ (.whole (log.drop q.chain.head))
  | ends {q : QueueEnds α} (howned : (q.hasProducer || q.hasConsumer) = true)
      (hq : q.chain.Settled log) :
      Stands log ⟨.two q, log.take q.chain.head, []⟩
        (.ends q.hasProducer q.hasConsumer (log.drop q.chain.head))
  | gone {c : Chain α} {n : Nat} (hsize : c.cells.size = log.length + 1)
      (hfree : ∀ a, c.cell? a = none) :
      Stands log ⟨.nobody c, log.take n, log.drop n⟩ .gone

lemma stands_start : Stands [] ({} : QueueLife α) (.whole []) := .whole LinkedQueue.sound_empty

/-- An operation performed on a life that stands as `f`. -/
def Performs (log : List α) (f : Fifo α) (op : QueueOp α)
    (r : Except MemoryFault (QueueAnswer α × QueueLife α)) : Prop :=
  ∃ l', r = .ok ((f.perform op).1, l') ∧
    Stands (log ++ op.accepted (f.perform op).1) l' (f.perform op).2

/-- An operation that pushes nothing. -/
lemma Stands.performs {op : QueueOp α} {a : QueueAnswer α} {l' : QueueLife α} {f' : Fifo α}
    {r : Except MemoryFault (QueueAnswer α × QueueLife α)} (h : Stands log l' f')
    (hr : r = .ok (a, l')) (hf : f.perform op = (a, f')) (ha : op.accepted a = []) :
    Performs log f op r := by
  refine ⟨l', by rw [hr, hf], ?_⟩
  rw [hf, ha, List.append_nil]
  exact h

/-- An operation that leaves everything as it is. -/
lemma Stands.looks {op : QueueOp α} {a : QueueAnswer α} (h : Stands log l f)
    (hf : f.perform op = (a, f)) (ha : op.accepted a = []) :
    Performs log f op (.ok (a, l)) := h.performs rfl hf ha

lemma stands_performOne {q : LinkedQueue α} (hq : q.Sound log) (op : QueueOp α) :
    Performs log (.whole (log.drop q.chain.head)) op
      (performOne ⟨.one q, log.take q.chain.head, []⟩ q op) := by
  have hstands : Stands log ⟨.one q, log.take q.chain.head, []⟩ _ := .whole hq
  have hle : q.chain.head ≤ log.length := hq.settled.tail_eq ▸ hq.settled.head_le
  cases op with
  | push vs =>
    obtain ⟨q', hpush, hhead, hq'⟩ := hq.pushAll vs
    refine ⟨⟨.one q', log.take q.chain.head, []⟩, ?_, ?_⟩
    · rw [performOne, hpush]
      rfl
    · have hnext := Stands.whole hq'
      rw [hhead, List.take_append_of_le_length hle, List.drop_append_of_le_length hle] at hnext
      exact hnext
  | pop =>
    obtain ⟨q', hpop, hq', htake, hdrop⟩ := hq.pop
    have hnext := Stands.whole hq'
    rw [hdrop] at hnext
    refine hnext.performs ?_ rfl rfl
    rw [performOne, hpop, htake]
    rfl
  | front =>
    have hfront := hq.settled.front
    rw [performOne, LinkedQueue.front, hfront]
    exact hstands.looks rfl rfl
  | back =>
    rw [performOne, hq.back]
    exact hstands.looks rfl rfl
  | isEmpty =>
    rw [performOne, LinkedQueue.isEmpty, hq.settled.isEmpty_eq]
    exact hstands.looks rfl rfl
  | describe =>
    rw [performOne, LinkedQueue.describe_of_isEmpty hq.settled.isEmpty_eq]
    exact hstands.looks rfl rfl
  | split =>
    have hnext : Stands log ⟨.two q.split, _, []⟩ _ := .ends rfl hq.settled
    exact hnext.performs rfl rfl rfl
  | drop =>
    obtain ⟨c, hdown, hsize, hfree⟩ := hq.settled.tearDown
    have hsize' : c.cells.size = log.length + 1 := by
      rw [hsize, hq.settled.size_eq, hq.settled.tail_eq]
    have hnext : Stands log ⟨.nobody c, _, _⟩ _ := .gone (n := q.chain.head) hsize' hfree
    refine hnext.performs ?_ rfl rfl
    rw [performOne, LinkedQueue.drop, hdown]
    rfl
  | drain | producerIsEmpty | dropProducer | dropConsumer => exact hstands.looks rfl rfl

/-- An end was given up: the other one goes on, or the chain goes. -/
lemma stands_lose {q : QueueEnds α} (hq : q.chain.Settled log)
    (hreturned : l.returned = log.take q.chain.head) (hdestroyed : l.destroyed = []) :
    ∃ vs q', q.collect = .ok (vs, q') ∧
      Stands log (l.lose vs q')
        (.left q.hasProducer q.hasConsumer (log.drop q.chain.head)) := by
  cases howned : q.hasProducer || q.hasConsumer with
  | true =>
    refine ⟨[], q, by rw [QueueEnds.collect, if_pos howned], ?_⟩
    have hlose : l.lose [] q = ⟨.two q, log.take q.chain.head, []⟩ := by
      rw [lose, if_pos howned, hreturned, hdestroyed]
      rfl
    rw [hlose, Fifo.left, if_pos howned]
    exact .ends howned hq
  | false =>
    obtain ⟨c, hdown, hsize, hfree⟩ := hq.tearDown
    have hsize' : c.cells.size = log.length + 1 := by rw [hsize, hq.size_eq, hq.tail_eq]
    have hnot : ¬(q.hasProducer || q.hasConsumer) = true := by simp [howned]
    refine ⟨log.drop q.chain.head, { q with chain := c }, ?_, ?_⟩
    · rw [QueueEnds.collect, if_neg hnot, hdown]
      rfl
    · have hlose : l.lose (log.drop q.chain.head) { q with chain := c } =
          ⟨.nobody c, log.take q.chain.head, log.drop q.chain.head⟩ := by
        rw [lose, if_neg hnot, hreturned, hdestroyed]
        rfl
      rw [hlose, Fifo.left, if_neg hnot]
      exact .gone hsize' hfree

/-! ### Operations on the two ends -/

section Ends

variable {c : Chain α} (p k : Bool)

lemma stands_push (hc : c.Settled log) (vs : List α) :
    Performs log (.ends true k (log.drop c.head)) (.push vs)
      (perform ⟨.two ⟨c, true, k⟩, log.take c.head, []⟩ (.push vs)) := by
  obtain ⟨c', hpush, hhead, hc'⟩ := hc.pushAll vs
  have hle : c.head ≤ log.length := hc.tail_eq ▸ hc.head_le
  have hnext : Stands _ ⟨.two ⟨c', true, k⟩, _, []⟩ _ := .ends rfl hc'
  simp only [hhead, List.take_append_of_le_length hle, List.drop_append_of_le_length hle] at hnext
  refine ⟨_, ?_, hnext⟩
  simp only [perform, performProducer, if_true, hpush]
  rfl

lemma stands_pop (hc : c.Settled log) :
    Performs log (.ends p true (log.drop c.head)) .pop
      (perform ⟨.two ⟨c, p, true⟩, log.take c.head, []⟩ .pop) := by
  obtain ⟨c', hpop, hc', htake, hdrop⟩ := hc.pop_items
  have hnext : Stands log ⟨.two ⟨c', p, true⟩, _, []⟩ _ := .ends (Bool.or_true p) hc'
  simp only [hdrop] at hnext
  refine hnext.performs (a := .value (log.drop c.head).head?) ?_ (by cases p <;> rfl) rfl
  simp only [perform, performConsumer, if_true, hpop, htake]
  rfl

lemma stands_drain (hc : c.Settled log) (n : Option Nat) :
    Performs log (.ends p true (log.drop c.head)) (.drain n)
      (perform ⟨.two ⟨c, p, true⟩, log.take c.head, []⟩ (.drain n)) := by
  -- without a number it stops after as many values as there are cells, so it takes them all
  have hlen : (log.drop c.head).length ≤ c.cells.size := by
    have hsize := hc.size_eq
    have htail := hc.tail_eq
    rw [List.length_drop]
    omega
  have hn : (log.drop c.head).take (n.getD c.cells.size) =
        (log.drop c.head).take (n.getD (log.drop c.head).length) ∧
      (log.drop c.head).drop (n.getD c.cells.size) =
        (log.drop c.head).drop (n.getD (log.drop c.head).length) := by
    cases n with
    | none =>
      rw [Option.getD_none, Option.getD_none, List.take_of_length_le hlen, List.take_length,
        List.drop_eq_nil_of_le hlen, List.drop_length]
      exact ⟨rfl, rfl⟩
    | some m => exact ⟨rfl, rfl⟩
  obtain ⟨c', hdrain, hc', htake, hdrop⟩ := hc.drain (n.getD c.cells.size)
  rw [hn.1] at hdrain htake
  have hnext : Stands log ⟨.two ⟨c', p, true⟩, _, []⟩ _ := .ends (Bool.or_true p) hc'
  simp only [hdrop, hn.2, htake] at hnext
  refine hnext.performs
    (a := .values ((log.drop c.head).take (n.getD (log.drop c.head).length))) ?_
    (by cases p <;> rfl) rfl
  simp only [perform, performConsumer, if_true, hdrain]
  rfl

lemma stands_dropProducer (hc : c.Settled log) :
    Performs log (.ends true k (log.drop c.head)) .dropProducer
      (perform ⟨.two ⟨c, true, k⟩, log.take c.head, []⟩ .dropProducer) := by
  obtain ⟨vs, q', hcollect, hnext⟩ :=
    stands_lose (l := ⟨.two ⟨c, true, k⟩, log.take c.head, []⟩) (q := ⟨c, false, k⟩) hc rfl rfl
  refine hnext.performs (a := .done) ?_ (by cases k <;> rfl) rfl
  simp only [perform, performProducer, if_true, QueueEnds.dropProducer, hcollect]
  rfl

lemma stands_dropConsumer (hc : c.Settled log) :
    Performs log (.ends p true (log.drop c.head)) .dropConsumer
      (perform ⟨.two ⟨c, p, true⟩, log.take c.head, []⟩ .dropConsumer) := by
  obtain ⟨vs, q', hcollect, hnext⟩ :=
    stands_lose (l := ⟨.two ⟨c, p, true⟩, log.take c.head, []⟩) (q := ⟨c, p, false⟩) hc rfl rfl
  refine hnext.performs (a := .done) ?_ (by cases p <;> rfl) rfl
  simp only [perform, performConsumer, if_true, QueueEnds.dropConsumer, hcollect]
  rfl

lemma stands_drop (hc : c.Settled log) :
    Performs log (.ends p k (log.drop c.head)) .drop
      (perform ⟨.two ⟨c, p, k⟩, log.take c.head, []⟩ .drop) := by
  obtain ⟨vs, q', hcollect, hnext⟩ :=
    stands_lose (l := ⟨.two ⟨c, p, k⟩, log.take c.head, []⟩) (q := ⟨c, false, false⟩) hc rfl rfl
  refine hnext.performs (a := .done) ?_ (by cases p <;> cases k <;> rfl) rfl
  simp only [perform, QueueEnds.drop, hcollect]
  rfl

/-- Whoever owns an end can do with it what that end is for, and nothing else. -/
lemma stands_ends (hc : c.Settled log) (howned : (p || k) = true) (op : QueueOp α) :
    Performs log (.ends p k (log.drop c.head)) op
      (perform ⟨.two ⟨c, p, k⟩, log.take c.head, []⟩ op) := by
  have hstands : Stands log ⟨.two ⟨c, p, k⟩, log.take c.head, []⟩ _ := .ends howned hc
  have hempty := hc.isEmpty_eq
  cases op with
  | drop => exact stands_drop p k hc
  | push vs =>
    cases p with
    | true => exact stands_push k hc vs
    | false => exact hstands.looks (by cases k <;> rfl) rfl
  | dropProducer =>
    cases p with
    | true => exact stands_dropProducer k hc
    | false => exact hstands.looks (by cases k <;> rfl) rfl
  | producerIsEmpty =>
    cases p with
    | true =>
      simp only [perform, performProducer, if_true, hempty]
      exact hstands.looks (by cases k <;> rfl) rfl
    | false => exact hstands.looks (by cases k <;> rfl) rfl
  | pop =>
    cases k with
    | true => exact stands_pop p hc
    | false => exact hstands.looks (by cases p <;> rfl) rfl
  | drain n =>
    cases k with
    | true => exact stands_drain p hc n
    | false => exact hstands.looks (by cases p <;> rfl) rfl
  | dropConsumer =>
    cases k with
    | true => exact stands_dropConsumer p hc
    | false => exact hstands.looks (by cases p <;> rfl) rfl
  | front =>
    cases k with
    | true =>
      simp only [perform, performConsumer, if_true, hc.front]
      exact hstands.looks (by cases p <;> rfl) rfl
    | false => exact hstands.looks (by cases p <;> rfl) rfl
  | isEmpty =>
    cases k with
    | true =>
      simp only [perform, performConsumer, if_true, hempty]
      exact hstands.looks (by cases p <;> rfl) rfl
    | false => exact hstands.looks (by cases p <;> rfl) rfl
  | back | describe | split =>
    cases k <;> exact hstands.looks (by cases p <;> rfl) rfl

end Ends

/-! ### Runs -/

/-- Every operation can be performed, and it answers as the list does. -/
lemma Stands.perform (h : Stands log l f) (op : QueueOp α) : Performs log f op (l.perform op) := by
  cases h with
  | whole hq => exact stands_performOne hq op
  | ends howned hc => exact stands_ends _ _ hc howned op
  | gone hsize hfree => exact (Stands.gone hsize hfree).looks rfl (by cases op <;> rfl)

lemma Stands.run (h : Stands log l f) (ops : List (QueueOp α)) :
    ∃ l', l.run ops = .ok ((f.run ops).1, l') ∧
      Stands (log ++ acceptedIn ops (f.run ops).1) l' (f.run ops).2 := by
  induction ops generalizing l f log with
  | nil => exact ⟨l, rfl, (List.append_nil log).symm ▸ h⟩
  | cons op ops ih =>
    obtain ⟨l₁, hop, h₁⟩ := h.perform op
    obtain ⟨l', hrest, hl'⟩ := ih h₁
    refine ⟨l', ?_, ?_⟩
    · rw [QueueLife.run, hop]
      simp only [Chain.ok_bind, hrest]
      rfl
    · rw [Fifo.run, acceptedIn_cons, ← List.append_assoc]
      exact hl'

end QueueLife

/-! ### Queues that are still whole -/

namespace Fifo

variable {f : Fifo α} {vs us : List α}

/-- Nobody puts a queue together again. -/
lemma not_whole_perform (h : ∀ vs, f ≠ .whole vs) (op : QueueOp α) :
    ∀ vs, (f.perform op).2 ≠ .whole vs := by
  intro vs
  cases f with
  | whole us => exact absurd rfl (h us)
  | ends p k us => cases op <;> cases p <;> cases k <;> simp [perform, left]
  | gone => cases op <;> simp [perform]

lemma not_whole_run (h : ∀ vs, f ≠ .whole vs) (ops : List (QueueOp α)) :
    ∀ vs, (f.run ops).2 ≠ .whole vs := by
  induction ops generalizing f with
  | nil => exact h
  | cons op ops ih => exact ih (not_whole_perform h op)

/-- A queue that is whole in the end was whole all the time, so each push found its owner. -/
lemma acceptedIn_run (ops : List (QueueOp α)) (h : ((whole vs).run ops).2 = .whole us) :
    acceptedIn ops ((whole vs).run ops).1 = ops.flatMap QueueOp.pushes := by
  induction ops generalizing vs with
  | nil => rfl
  | cons op ops ih =>
    rw [run, acceptedIn_cons, List.flatMap_cons]
    cases op with
    | split | drop => exact absurd h (not_whole_run (by simp [perform]) ops us)
    | _ => exact congrArg _ (ih h)

end Fifo

namespace QueueLife

/-- A whole queue holds what was pushed since the beginning and has not been returned. -/
lemma settled_of_run {ops : List (QueueOp α)} {as : List (QueueAnswer α)} {l : QueueLife α}
    {q : LinkedQueue α} (hrun : ({} : QueueLife α).run ops = .ok (as, l))
    (howner : l.owner = .one q) :
    q.chain.Settled (ops.flatMap QueueOp.pushes) ∧
      l.returned = (ops.flatMap QueueOp.pushes).take q.chain.head := by
  obtain ⟨l', hrun', hstands⟩ := stands_start.run ops
  rw [hrun] at hrun'
  obtain ⟨-, rfl⟩ := Prod.mk.inj (Except.ok.inj hrun')
  cases hf : ((Fifo.whole []).run ops).2 with
  | whole vs =>
    rw [hf, Fifo.acceptedIn_run ops hf, List.nil_append] at hstands
    cases hstands with
    | whole hq =>
      cases howner
      exact ⟨hq.settled, rfl⟩
  | ends | gone =>
    rw [hf] at hstands
    cases hstands
    cases howner

/-- The cells of a life store `vs`. The owner of the whole queue knows the cell before the tail. -/
def Keeps (l : QueueLife α) (vs : List α) : Prop :=
  match l.owner with
  | .one q => ∃ as, q.chain.Stores as vs ∧ q.last = as.getLast?
  | .two q => ∃ as, q.chain.Stores as vs
  | .nobody _ => vs = []

lemma Stands.keeps {l : QueueLife α} {f : Fifo α} {log : List α} (h : Stands log l f) :
    l.Keeps f.items := by
  cases h with
  | whole hq => exact ⟨_, hq.settled.stores, hq.last_eq.trans hq.settled.getLast?_range'.symm⟩
  | ends _ hc => exact ⟨_, hc.stores⟩
  | gone => rfl

/-- Whatever is done to a queue, whole or split, no access to a cell goes astray, the cells from
the head to the tail store a list, and every answer is the one that this list gives: values leave
at the front in the order in which they came in at the back. -/
theorem linked_queue_refines_list (ops : List (QueueOp α)) :
    ∃ l, ({} : QueueLife α).run ops = .ok (((Fifo.whole []).run ops).1, l) ∧
      l.Keeps ((Fifo.whole []).run ops).2.items := by
  obtain ⟨l, hrun, hstands⟩ := stands_start.run ops
  exact ⟨l, hrun, hstands.keeps⟩

example :
    ((Fifo.whole []).run
      [.push [1, 2, 3], .pop, .back, .split, .drain (some 1), .push [4], .drain none]).1 =
      [.done, .value (some 1), .value (some 3), .done, .values [2], .done, .values [3, 4]] := rfl

end QueueLife

end Overseer
