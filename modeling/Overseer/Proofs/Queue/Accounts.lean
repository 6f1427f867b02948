import Overseer.Proofs.Except
import Overseer.Proofs.Queue.Fifo

/-!
# Where values and cells go

`Accesses` lists the accesses to memory that lead from one chain to another and the addresses that
are freed on the way. No list of accesses frees a cell twice, since a cell that is gone stays gone
and freeing it again is a fault. Every operation on a queue is such a list, which with the list that
the queue stands as gives the whole account: each value was returned, is stored or was destroyed,
and each cell is on the path from the head to the tail or was freed once.
-/

namespace Overseer

variable {α : Type}

namespace Chain

variable {c c' c₁ : Chain α} {as bs : List Nat}

/-- The cell was there and is no longer. -/
def Freed (c : Chain α) (a : Nat) : Prop := a < c.cells.size ∧ c.cell? a = none

/-- One access that changes memory, and the address that it frees, if it frees one. -/
inductive Access (c : Chain α) : Option Nat → Chain α → Prop where
  | setHead (a : Nat) : Access c none (c.setHead a)
  | setTail (a : Nat) : Access c none (c.setTail a)
  | allocate : Access c none c.allocate.2
  | update {a : Nat} {f : Cell α → Cell α} {c' : Chain α} (h : c.update a f = .ok c') :
      Access c none c'
  | free {a : Nat} {x : Cell α} {c' : Chain α} (h : c.free a = .ok (x, c')) : Access c (some a) c'

/-- Accesses one after another, and the addresses that they free, in this order. -/
inductive Accesses : Chain α → List Nat → Chain α → Prop where
  | done (c : Chain α) : Accesses c [] c
  | step {c c₁ c' : Chain α} {a : Option Nat} {as : List Nat} (h : Access c a c₁)
      (rest : Accesses c₁ as c') : Accesses c (a.toList ++ as) c'

lemma exists_cell_of_update {a : Nat} {f : Cell α → Cell α} (h : c.update a f = .ok c') :
    ∃ x, c.cell? a = some x ∧ c' = { c with cells := c.cells.setIfInBounds a (some (f x)) } := by
  cases hcell : c.cell? a with
  | none =>
    rw [update, hcell] at h
    cases h
  | some x =>
    rw [update_of_cell? hcell] at h
    cases h
    exact ⟨x, rfl, rfl⟩

lemma exists_cell_of_free {a : Nat} {x : Cell α} (h : c.free a = .ok (x, c')) :
    c.cell? a = some x ∧ c' = { c with cells := c.cells.setIfInBounds a none } := by
  cases hcell : c.cell? a with
  | none =>
    rw [free, hcell] at h
    cases h
  | some y =>
    rw [free_of_cell? hcell] at h
    cases h
    exact ⟨rfl, rfl⟩

/-- An access frees what it says, and no other cell goes or comes back. -/
lemma Access.freed_iff {x : Option Nat} (h : Access c x c') (a : Nat) :
    c'.Freed a ↔ c.Freed a ∨ x = some a := by
  cases h with
  | setHead | setTail => simp [Freed, Chain.setHead, Chain.setTail, cell?]
  | allocate =>
    have hcell := cell?_allocate c a
    have hsize : c.allocate.2.cells.size = c.cells.size + 1 := Array.size_push _
    rw [Freed, hcell, hsize, Freed]
    by_cases ha : a = c.cells.size
    · simp [ha]
    · simp only [if_neg ha, reduceCtorEq, or_false]
      exact and_congr_left fun _ => by omega
  | update h =>
    obtain ⟨y, hy, rfl⟩ := exists_cell_of_update h
    simp only [Freed, cell?_write hy, Array.size_setIfInBounds, reduceCtorEq, or_false]
    split
    · rename_i heq
      simp [heq, hy]
    · rfl
  | free h =>
    rename_i b
    obtain ⟨hy, rfl⟩ := exists_cell_of_free h
    simp only [Freed, cell?_write hy, Array.size_setIfInBounds, Option.some.injEq]
    split
    · rename_i heq
      simp [heq, lt_size_of_cell? hy]
    · rename_i hne
      simp [Ne.symm hne]

/-- Only a cell that is there can be freed. -/
lemma Access.not_freed {a : Nat} (h : Access c (some a) c') : ¬c.Freed a := by
  cases h with
  | free h =>
    rintro ⟨-, hnone⟩
    rw [(exists_cell_of_free h).1] at hnone
    cases hnone

namespace Accesses

/-- Accesses free what they say they free. -/
lemma freed_iff (h : Accesses c as c') (a : Nat) : c'.Freed a ↔ c.Freed a ∨ a ∈ as := by
  induction h with
  | done => simp
  | step h _ ih =>
    rw [ih, h.freed_iff, List.mem_append, Option.mem_toList, or_assoc]

/-- No cell is freed that was freed before. -/
lemma not_freed (h : Accesses c as c') {a : Nat} (ha : a ∈ as) : ¬c.Freed a := by
  induction h with
  | done => cases ha
  | step h _ ih =>
    rcases List.mem_append.mp ha with ha | ha
    · rw [Option.mem_toList] at ha
      subst ha
      exact h.not_freed
    · exact fun hfreed => ih ha ((h.freed_iff a).mpr (.inl hfreed))

/-- No cell is freed twice. -/
lemma nodup (h : Accesses c as c') : as.Nodup := by
  induction h with
  | done => exact List.nodup_nil
  | @step _ _ _ a _ h rest ih =>
    cases a with
    | none => exact ih
    | some a =>
      refine List.nodup_cons.mpr ⟨?_, ih⟩
      exact fun hmem => rest.not_freed hmem ((h.freed_iff a).mpr (.inr rfl))

lemma append (h : Accesses c as c₁) (h' : Accesses c₁ bs c') : Accesses c (as ++ bs) c' := by
  induction h with
  | done => exact h'
  | step h _ ih =>
    rw [List.append_assoc]
    exact .step h (ih h')

end Accesses

/-! ### What the operations on a chain do to memory -/

lemma accesses_of_push {v : α} (h : c.push v = .ok c') : Accesses c [] c' := by
  obtain ⟨c₁, hvalue, h⟩ := Except.exists_of_bind h
  obtain ⟨c₂, hnext, h⟩ := Except.exists_of_bind h
  cases h
  exact .step .allocate <| .step (.update hvalue) <| .step (.update hnext) <|
    .step (.setTail _) (.done _)

lemma accesses_of_pop {v : Option α} (h : c.pop = .ok (v, c')) : ∃ as, Accesses c as c' := by
  rw [Chain.pop] at h
  split at h
  · cases h
    exact ⟨_, .done _⟩
  · obtain ⟨next, -, h⟩ := Except.exists_of_bind h
    obtain ⟨⟨x, c₁⟩, hfree, h⟩ := Except.exists_of_bind h
    cases h
    exact ⟨_, .step (.setHead next) (.step (.free hfree) (.done _))⟩

lemma accesses_of_drain {n : Nat} {vs : List α} (h : c.drain n = .ok (vs, c')) :
    ∃ as, Accesses c as c' := by
  induction n generalizing c vs with
  | zero =>
    cases h
    exact ⟨_, .done _⟩
  | succ n ih =>
    obtain ⟨⟨v, c₁⟩, hpop, h⟩ := Except.exists_of_bind h
    obtain ⟨as, has⟩ := accesses_of_pop hpop
    cases v with
    | none =>
      cases h
      exact ⟨as, has⟩
    | some v =>
      obtain ⟨⟨us, c₂⟩, hdrain, h⟩ := Except.exists_of_bind h
      cases h
      obtain ⟨bs, hbs⟩ := ih hdrain
      exact ⟨_, has.append hbs⟩

lemma accesses_of_freeFrom {a : Option Nat} {n : Nat} {vs : List α}
    (h : c.freeFrom a n = .ok (vs, c')) : ∃ as, Accesses c as c' := by
  induction n generalizing c a vs with
  | zero =>
    cases a with
    | none =>
      cases h
      exact ⟨_, .done _⟩
    | some a => cases h
  | succ n ih =>
    cases a with
    | none =>
      cases h
      exact ⟨_, .done _⟩
    | some a =>
      obtain ⟨⟨x, c₁⟩, hfree, h⟩ := Except.exists_of_bind h
      obtain ⟨⟨us, c₂⟩, hrest, h⟩ := Except.exists_of_bind h
      cases h
      obtain ⟨as, has⟩ := ih hrest
      exact ⟨_, .step (.free hfree) has⟩

lemma accesses_of_pushAll {vs : List α} (h : vs.foldlM push c = .ok c') : Accesses c [] c' := by
  induction vs generalizing c with
  | nil =>
    cases h
    exact .done _
  | cons v vs ih =>
    rw [List.foldlM_cons] at h
    obtain ⟨c₁, hpush, h⟩ := Except.exists_of_bind h
    exact (accesses_of_push hpush).append (ih h)

end Chain

/-! ### Lives -/

/-- The values that an operation took out of the queue for its caller, by its answer. -/
def QueueOp.returns : QueueOp α → QueueAnswer α → List α
  | pop, .value v => v.toList
  | drain _, .values vs => vs
  | _, _ => []

lemma QueueOp.returns_moved (op : QueueOp α) : op.returns .moved = [] := by
  cases op <;> rfl

/-- The values that operations took out of the queue, by their answers. -/
def returnedIn (ops : List (QueueOp α)) (as : List (QueueAnswer α)) : List α :=
  (ops.zipWith QueueOp.returns as).flatten

namespace QueueLife

variable {l l' : QueueLife α} {op : QueueOp α} {a : QueueAnswer α}

/-- An operation changes memory by accesses only, and what it takes out goes to its caller. -/
structure Moves (l : QueueLife α) (op : QueueOp α) (a : QueueAnswer α) (l' : QueueLife α) :
    Prop where
  accesses : ∃ freed, Chain.Accesses l.chain freed l'.chain
  returned_eq : l'.returned = l.returned ++ op.returns a

lemma moves_of_eq (hchain : l'.chain = l.chain) (hreturned : l'.returned = l.returned)
    (h : op.returns a = []) : l.Moves op a l' := by
  refine ⟨⟨[], ?_⟩, ?_⟩
  · rw [hchain]
    exact .done _
  · rw [h, List.append_nil, hreturned]

lemma chain_lose (l : QueueLife α) (vs : List α) (q : QueueEnds α) :
    (l.lose vs q).chain = q.chain := by
  rw [lose]
  by_cases howned : (q.hasProducer || q.hasConsumer) = true
  · rw [if_pos howned]
    rfl
  · rw [if_neg howned]
    rfl

lemma accesses_of_collect {q q' : QueueEnds α} {vs : List α} (h : q.collect = .ok (vs, q')) :
    ∃ freed, Chain.Accesses q.chain freed q'.chain := by
  rw [QueueEnds.collect] at h
  split at h
  · cases h
    exact ⟨_, .done _⟩
  · obtain ⟨⟨us, c⟩, hdown, h⟩ := Except.exists_of_bind h
    cases h
    exact Chain.accesses_of_freeFrom hdown

/-- Giving up ends takes nothing out. -/
lemma moves_of_lose {q q' : QueueEnds α} {vs : List α} (hchain : l.chain = q.chain)
    (hcollect : q.collect = .ok (vs, q')) (h : op.returns a = []) :
    l.Moves op a (l.lose vs q') := by
  refine ⟨?_, by rw [h, List.append_nil]; rfl⟩
  rw [hchain, chain_lose]
  exact accesses_of_collect hcollect

lemma accesses_of_pushAll {q q' : LinkedQueue α} {vs : List α}
    (h : vs.foldlM LinkedQueue.push q = .ok q') : Chain.Accesses q.chain [] q'.chain := by
  induction vs generalizing q with
  | nil =>
    cases h
    exact .done _
  | cons v vs ih =>
    rw [List.foldlM_cons] at h
    obtain ⟨q₁, hpush, h⟩ := Except.exists_of_bind h
    obtain ⟨c, hchain, hq₁⟩ := Except.exists_of_bind hpush
    cases hq₁
    exact (Chain.accesses_of_push hchain).append (ih h)

lemma moves_performOne {q : LinkedQueue α} (howner : l.owner = .one q)
    (h : l.performOne q op = .ok (a, l')) : l.Moves op a l' := by
  have hchain : l.chain = q.chain := by rw [QueueLife.chain, howner]
  cases op with
  | push vs =>
    obtain ⟨q', hpush, h⟩ := Except.exists_of_bind h
    cases h
    exact ⟨⟨_, hchain ▸ accesses_of_pushAll hpush⟩, (List.append_nil _).symm⟩
  | pop =>
    obtain ⟨⟨v, q'⟩, hpop, h⟩ := Except.exists_of_bind h
    obtain ⟨⟨v', c⟩, hpop', hq'⟩ := Except.exists_of_bind hpop
    cases hq'
    cases h
    exact ⟨hchain ▸ Chain.accesses_of_pop hpop', rfl⟩
  | front | back =>
    obtain ⟨v, -, h⟩ := Except.exists_of_bind h
    cases h
    exact moves_of_eq rfl rfl rfl
  | split =>
    cases h
    exact moves_of_eq hchain.symm rfl rfl
  | drop =>
    obtain ⟨⟨vs, c⟩, hdown, h⟩ := Except.exists_of_bind h
    cases h
    exact ⟨hchain ▸ Chain.accesses_of_freeFrom hdown, (List.append_nil _).symm⟩
  | drain | isEmpty | producerIsEmpty | describe | dropProducer | dropConsumer =>
    cases h
    exact moves_of_eq rfl rfl rfl

lemma moves_performProducer {q : QueueEnds α} (howner : l.owner = .two q)
    (h : l.performProducer q op = .ok (a, l')) : l.Moves op a l' := by
  have hchain : l.chain = q.chain := by rw [QueueLife.chain, howner]
  cases op with
  | push vs =>
    obtain ⟨c, hpush, h⟩ := Except.exists_of_bind h
    cases h
    exact ⟨⟨_, hchain ▸ Chain.accesses_of_pushAll hpush⟩, (List.append_nil _).symm⟩
  | dropProducer =>
    obtain ⟨⟨vs, q'⟩, hcollect, h⟩ := Except.exists_of_bind h
    cases h
    exact moves_of_lose (q := { q with hasProducer := false }) hchain hcollect rfl
  | _ =>
    cases h
    exact moves_of_eq rfl rfl rfl

lemma moves_performConsumer {q : QueueEnds α} (howner : l.owner = .two q)
    (h : l.performConsumer q op = .ok (a, l')) : l.Moves op a l' := by
  have hchain : l.chain = q.chain := by rw [QueueLife.chain, howner]
  cases op with
  | pop =>
    obtain ⟨⟨v, c⟩, hpop, h⟩ := Except.exists_of_bind h
    cases h
    exact ⟨hchain ▸ Chain.accesses_of_pop hpop, rfl⟩
  | drain n =>
    obtain ⟨⟨vs, c⟩, hdrain, h⟩ := Except.exists_of_bind h
    cases h
    exact ⟨hchain ▸ Chain.accesses_of_drain hdrain, rfl⟩
  | front =>
    obtain ⟨v, -, h⟩ := Except.exists_of_bind h
    cases h
    exact moves_of_eq rfl rfl rfl
  | dropConsumer =>
    obtain ⟨⟨vs, q'⟩, hcollect, h⟩ := Except.exists_of_bind h
    cases h
    exact moves_of_lose (q := { q with hasConsumer := false }) hchain hcollect rfl
  | _ =>
    cases h
    exact moves_of_eq rfl rfl rfl

lemma moves_perform (h : l.perform op = .ok (a, l')) : l.Moves op a l' := by
  unfold perform at h
  split at h
  · exact moves_performOne ‹_› h
  · rename_i q howner
    have hchain : l.chain = q.chain := by rw [QueueLife.chain, howner]
    obtain ⟨⟨vs, q'⟩, hcollect, h⟩ := Except.exists_of_bind h
    cases h
    exact moves_of_lose (q := { q with hasProducer := false, hasConsumer := false }) hchain
      hcollect rfl
  case h_3 | h_4 | h_5 =>
    split at h
    · exact moves_performProducer ‹_› h
    · cases h
      exact moves_of_eq rfl rfl rfl
  case h_6 =>
    split at h
    · exact moves_performConsumer ‹_› h
    · cases h
      exact moves_of_eq rfl rfl (QueueOp.returns_moved _)
  case h_7 =>
    cases h
    exact moves_of_eq rfl rfl (QueueOp.returns_moved _)

lemma moves_run {ops : List (QueueOp α)} {as : List (QueueAnswer α)}
    (h : l.run ops = .ok (as, l')) :
    (∃ freed, Chain.Accesses l.chain freed l'.chain) ∧
      l'.returned = l.returned ++ returnedIn ops as := by
  induction ops generalizing l as with
  | nil =>
    cases h
    exact ⟨⟨_, .done _⟩, (List.append_nil _).symm⟩
  | cons op ops ih =>
    obtain ⟨⟨a, l₁⟩, hop, h⟩ := Except.exists_of_bind h
    obtain ⟨⟨as', l₂⟩, hrest, h⟩ := Except.exists_of_bind h
    cases h
    obtain ⟨⟨freed, hfreed⟩, hreturned⟩ := moves_perform hop
    obtain ⟨⟨freed', hfreed'⟩, hreturned'⟩ := ih hrest
    refine ⟨⟨_, hfreed.append hfreed'⟩, ?_⟩
    rw [hreturned', hreturned, List.append_assoc]
    rfl

/-! ### The whole account -/

/-- The account of a life to which operations have led with their answers, if `stored` is in the
cells and `freed` are the addresses that were freed, in this order. -/
structure Accounted (ops : List (QueueOp α)) (as : List (QueueAnswer α)) (l : QueueLife α)
    (stored : List α) (freed : List Nat) : Prop where
  keeps : l.Keeps stored
  returned_eq : l.returned = returnedIn ops as
  /-- Each value is in one of three places. -/
  values : acceptedIn ops as = l.returned ++ stored ++ l.destroyed
  /-- There was one cell for each value, and the blank one. -/
  size_eq : l.chain.cells.size = (acceptedIn ops as).length + 1
  accesses : Chain.Accesses .empty freed l.chain
  nodup : freed.Nodup
  mem_freed : ∀ a, a ∈ freed ↔ l.chain.Freed a
  owned : (∀ c, l.owner ≠ .nobody c) → l.destroyed = []
  gone : ∀ c, l.owner = .nobody c → stored = [] ∧ freed.Perm (List.range c.cells.size)

namespace Stands

variable {f : Fifo α} {log : List α}

lemma values (h : Stands log l f) : log = l.returned ++ f.items ++ l.destroyed := by
  cases h with
  | whole | ends =>
    rw [List.append_nil]
    exact (List.take_append_drop _ log).symm
  | gone => rw [Fifo.items, List.append_nil, List.take_append_drop]

lemma size_eq (h : Stands log l f) : l.chain.cells.size = log.length + 1 := by
  cases h with
  | whole hq => exact hq.settled.size_eq.trans (by rw [hq.settled.tail_eq])
  | ends _ hc => exact hc.size_eq.trans (by rw [hc.tail_eq])
  | gone hsize => exact hsize

lemma owned (h : Stands log l f) (howned : ∀ c, l.owner ≠ .nobody c) : l.destroyed = [] := by
  cases h with
  | whole | ends => rfl
  | gone => exact absurd rfl (howned _)

lemma gone_of_nobody {c : Chain α} (h : Stands log l f) (howner : l.owner = .nobody c) :
    f.items = [] ∧ ∀ a, c.cell? a = none := by
  cases h with
  | whole | ends => cases howner
  | gone _ hfree =>
    cases howner
    exact ⟨rfl, hfree⟩

end Stands

lemma not_freed_empty (a : Nat) : ¬(Chain.empty : Chain α).Freed a := by
  rintro ⟨hlt, hnone⟩
  obtain rfl : a = 0 := Nat.lt_one_iff.mp hlt
  cases hnone

/-- Every list of operations on a queue can be performed, the last owner's giving up included. Each
value that was pushed was returned by a pop, is stored, or was destroyed with the queue, and none is
destroyed while somebody owns it. No cell is freed twice, those that are there are the path from
the head to the tail, and when the last owner has given up each cell was freed once. -/
theorem values_and_cells_accounted (ops : List (QueueOp α)) :
    ∃ as l stored freed, ({} : QueueLife α).run ops = .ok (as, l) ∧
      Accounted ops as l stored freed := by
  obtain ⟨l, hrun, hstands⟩ := stands_start.run ops
  rw [List.nil_append] at hstands
  obtain ⟨⟨freed, hfreed⟩, hreturned⟩ := moves_run hrun
  have hmem : ∀ a, a ∈ freed ↔ l.chain.Freed a := by
    intro a
    exact ((hfreed.freed_iff a).trans (or_iff_right (not_freed_empty a))).symm
  refine ⟨_, l, _, freed, hrun, hstands.keeps, hreturned, hstands.values, hstands.size_eq, hfreed,
    hfreed.nodup, hmem, hstands.owned, ?_⟩
  intro c howner
  obtain ⟨hitems, hnone⟩ := hstands.gone_of_nobody howner
  have hchain : l.chain = c := by rw [QueueLife.chain, howner]
  refine ⟨hitems, (List.perm_ext_iff_of_nodup hfreed.nodup List.nodup_range).mpr ?_⟩
  intro a
  rw [hmem, hchain, List.mem_range]
  exact and_iff_left (hnone a)

end QueueLife

end Overseer
