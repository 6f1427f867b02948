import Mathlib.Tactic.Common
import Overseer.Queue.Chain

/-!
# What the cells hold

Only a push takes a fresh cell, so the cell at an address belongs to one value once and for all:
the cell at `i` is the one of the `i`-th value that was ever pushed. `Chain.Holds` says so, also
while a push or a pop is half done, and tells for each access what it finds and what it leaves.
-/

namespace Overseer

namespace Chain

variable {α : Type}

/-! ### Cells after an access -/

lemma cell?_allocate (c : Chain α) (a : Nat) :
    c.allocate.2.cell? a = if a = c.cells.size then some {} else c.cell? a := by
  simp only [allocate, cell?, Array.getElem?_push]
  split <;> rfl

lemma lt_size_of_cell? {c : Chain α} {a : Nat} {x : Cell α} (h : c.cell? a = some x) :
    a < c.cells.size := by
  by_contra hle
  rw [cell?, Array.getElem?_eq_none (Nat.le_of_not_lt hle)] at h
  cases h

/-- Writing at an address where there is a cell changes that cell and no other. -/
lemma cell?_write {c : Chain α} {a : Nat} {x : Cell α} (h : c.cell? a = some x)
    (y : Option (Cell α)) (b : Nat) :
    ({ c with cells := c.cells.setIfInBounds a y } : Chain α).cell? b =
      if b = a then y else c.cell? b := by
  simp only [cell?, Array.getElem?_setIfInBounds, if_pos (lt_size_of_cell? h), eq_comm (a := a)]
  split <;> rfl

lemma update_of_cell? {c : Chain α} {a : Nat} {x : Cell α} (h : c.cell? a = some x)
    (f : Cell α → Cell α) :
    c.update a f = .ok { c with cells := c.cells.setIfInBounds a (some (f x)) } := by
  rw [update, h]

lemma free_of_cell? {c : Chain α} {a : Nat} {x : Cell α} (h : c.cell? a = some x) :
    c.free a = .ok (x, { c with cells := c.cells.setIfInBounds a none }) := by
  rw [free, h]

/-! ### The cells of a queue -/

/-- The cells when the values of `log` have been pushed, in this order, and the cells below `freed`
have been given back. The cell at the tail is `last`, and behind it there are `fresh` cells that
nobody knows of yet. -/
structure Holds (c : Chain α) (log : List α) (freed : Nat) (last : Cell α) (fresh : Nat) :
    Prop where
  freed_le : freed ≤ c.head
  head_le : c.head ≤ c.tail
  tail_eq : c.tail = log.length
  size_eq : c.cells.size = c.tail + 1 + fresh
  gone : ∀ a < freed, c.cell? a = none
  stored : ∀ a v, freed ≤ a → log[a]? = some v → c.cell? a = some ⟨some v, some (a + 1)⟩
  last_eq : c.cell? c.tail = some last
  blank : ∀ a, c.tail < a → a < c.cells.size → c.cell? a = some {}

variable {c : Chain α} {log : List α} {freed : Nat} {last : Cell α} {fresh : Nat}

lemma holds_empty : (empty : Chain α).Holds [] 0 {} 0 where
  freed_le := Nat.le_refl 0
  head_le := Nat.le_refl 0
  tail_eq := rfl
  size_eq := rfl
  gone a ha := absurd ha (Nat.not_lt_zero a)
  stored a v _ hv := by cases hv
  last_eq := rfl
  blank a ha hsize := absurd hsize (Nat.not_lt_of_le ha)

namespace Holds

lemma lt_tail (h : c.Holds log freed last fresh) {a : Nat} {v : α} (hv : log[a]? = some v) :
    a < c.tail := by
  rw [h.tail_eq]
  exact (List.getElem?_eq_some_iff.mp hv).1

lemma exists_value (h : c.Holds log freed last fresh) {a : Nat} (ha : a < c.tail) :
    ∃ v, log[a]? = some v := by
  rw [h.tail_eq] at ha
  exact ⟨log[a], List.getElem?_eq_getElem ha⟩

/-- A fresh cell goes behind all others. -/
lemma allocate (h : c.Holds log freed last fresh) :
    c.allocate.2.Holds log freed last (fresh + 1) where
  freed_le := h.freed_le
  head_le := h.head_le
  tail_eq := h.tail_eq
  size_eq := by
    have hsize := h.size_eq
    simp only [Chain.allocate, Array.size_push]
    omega
  gone a ha := by
    have hne : a ≠ c.cells.size := by
      have := h.freed_le
      have := h.head_le
      have := h.size_eq
      omega
    rw [cell?_allocate, if_neg hne, h.gone a ha]
  stored a v ha hv := by
    have hcell := h.stored a v ha hv
    rw [cell?_allocate, if_neg (Nat.ne_of_lt (lt_size_of_cell? hcell)), hcell]
  last_eq := by
    rw [cell?_allocate]
    exact (if_neg (Nat.ne_of_lt (lt_size_of_cell? h.last_eq))).trans h.last_eq
  blank a ha hsize := by
    rw [cell?_allocate]
    split
    · rfl
    · apply h.blank a ha
      simp only [Chain.allocate, Array.size_push] at hsize
      omega

/-- The cell at the tail can be changed. -/
lemma update (h : c.Holds log freed last fresh) (f : Cell α → Cell α) :
    ∃ c', c.update c.tail f = .ok c' ∧ c'.head = c.head ∧ c'.tail = c.tail ∧
      c'.Holds log freed (f last) fresh := by
  refine ⟨_, update_of_cell? h.last_eq f, rfl, rfl, ?_⟩
  exact {
    freed_le := h.freed_le
    head_le := h.head_le
    tail_eq := h.tail_eq
    size_eq := by rw [Array.size_setIfInBounds, h.size_eq]
    gone := by
      intro a ha
      have hlt : a < c.tail := Nat.lt_of_lt_of_le ha (Nat.le_trans h.freed_le h.head_le)
      rw [cell?_write h.last_eq, if_neg (Nat.ne_of_lt hlt), h.gone a ha]
    stored := by
      intro a v ha hv
      rw [cell?_write h.last_eq, if_neg (Nat.ne_of_lt (h.lt_tail hv)), h.stored a v ha hv]
    last_eq := by rw [cell?_write h.last_eq, if_pos rfl]
    blank := by
      intro a ha hsize
      rw [Array.size_setIfInBounds] at hsize
      rw [cell?_write h.last_eq, if_neg (Nat.ne_of_gt ha), h.blank a ha hsize] }

/-- The tail moves on from a cell that is complete, to the one that was taken for it. -/
lemma setTail {v : α} (h : c.Holds log freed ⟨some v, some (c.tail + 1)⟩ (fresh + 1)) :
    (c.setTail (c.tail + 1)).Holds (log ++ [v]) freed {} fresh where
  freed_le := h.freed_le
  head_le := Nat.le_succ_of_le h.head_le
  tail_eq := by rw [List.length_append, List.length_singleton, ← h.tail_eq, Chain.setTail]
  size_eq := by
    have hsize := h.size_eq
    simp only [Chain.setTail]
    omega
  gone := h.gone
  stored a u ha hu := by
    by_cases hlt : a < log.length
    · rw [List.getElem?_append_left hlt] at hu
      exact h.stored a u ha hu
    · rw [List.getElem?_append_right (Nat.le_of_not_lt hlt)] at hu
      have hzero : a - log.length = 0 := by
        have := (List.getElem?_eq_some_iff.mp hu).1
        rw [List.length_singleton] at this
        omega
      have htail : a = c.tail := by
        have := h.tail_eq
        omega
      rw [hzero] at hu
      cases hu
      subst htail
      exact h.last_eq
  last_eq := by
    apply h.blank _ (Nat.lt_succ_self _)
    have hsize := h.size_eq
    omega
  blank a ha hsize := h.blank a (Nat.lt_of_succ_lt ha) hsize

lemma setHead (h : c.Holds log freed last fresh) (hlt : c.head < c.tail) :
    (c.setHead (c.head + 1)).Holds log freed last fresh where
  freed_le := Nat.le_succ_of_le h.freed_le
  head_le := hlt
  tail_eq := h.tail_eq
  size_eq := h.size_eq
  gone := h.gone
  stored := h.stored
  last_eq := h.last_eq
  blank := h.blank

lemma nextOf (h : c.Holds log freed last fresh) {a : Nat} (hfreed : freed ≤ a)
    (hlt : a < c.tail) : c.nextOf a = .ok (a + 1) := by
  obtain ⟨v, hv⟩ := h.exists_value hlt
  rw [Chain.nextOf, h.stored a v hfreed hv]

lemma valueAt (h : c.Holds log freed last fresh) {a : Nat} (hfreed : freed ≤ a)
    (hlt : a < c.tail) : c.valueAt a = .ok log[a]? := by
  obtain ⟨v, hv⟩ := h.exists_value hlt
  rw [Chain.valueAt, h.stored a v hfreed hv, hv]

/-- The first cell that the head has left can be freed, and the value is in it. -/
lemma free (h : c.Holds log freed last fresh) (hlt : freed < c.head) :
    ∃ x c', c.free freed = .ok (x, c') ∧ x.value = log[freed]? ∧ x.value.isSome ∧
      c'.head = c.head ∧ c'.tail = c.tail ∧ c'.Holds log (freed + 1) last fresh := by
  obtain ⟨v, hv⟩ := h.exists_value (Nat.lt_of_lt_of_le hlt h.head_le)
  have hcell := h.stored freed v (Nat.le_refl freed) hv
  refine ⟨_, _, free_of_cell? hcell, hv.symm, rfl, rfl, rfl, ?_⟩
  exact {
    freed_le := hlt
    head_le := h.head_le
    tail_eq := h.tail_eq
    size_eq := by rw [Array.size_setIfInBounds, h.size_eq]
    gone := by
      intro a ha
      rw [cell?_write hcell]
      split
      · rfl
      · exact h.gone a (by omega)
    stored := by
      intro a u ha hu
      rw [cell?_write hcell, if_neg (Nat.ne_of_gt ha), h.stored a u (Nat.le_of_succ_le ha) hu]
    last_eq := by
      have hne : c.tail ≠ freed := Nat.ne_of_gt (Nat.lt_of_lt_of_le hlt h.head_le)
      rw [cell?_write hcell, if_neg hne, h.last_eq]
    blank := by
      intro a ha hsize
      have hne : a ≠ freed :=
        Nat.ne_of_gt (Nat.lt_of_lt_of_le hlt (Nat.le_trans h.head_le (Nat.le_of_lt ha)))
      rw [Array.size_setIfInBounds] at hsize
      rw [cell?_write hcell, if_neg hne, h.blank a ha hsize] }

end Holds

end Chain

end Overseer
