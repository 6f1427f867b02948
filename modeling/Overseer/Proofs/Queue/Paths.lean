import Mathlib.Data.List.Range
import Overseer.Proofs.Queue.Undivided

/-!
# The list in the cells

A chain `Stores` a list if the addresses lead from the head to the tail by distinct cells that hold
the elements in turn, the cell at the tail is blank, and there are no other cells. A chain that is
settled stores what was pushed and is not behind the head, and tearing it down gives just that,
with every cell freed.
-/

namespace Overseer

variable {α : Type}

namespace Chain

/-- The addresses lead from `a` to `b`, by the cells at `as`, which hold `vs` in turn. -/
inductive Path (c : Chain α) : Nat → List Nat → List α → Nat → Prop where
  | here (a : Nat) : Path c a [] [] a
  | step {a next b : Nat} {as : List Nat} {v : α} {vs : List α}
      (h : c.cell? a = some ⟨some v, some next⟩) (rest : Path c next as vs b) :
      Path c a (a :: as) (v :: vs) b

/-- The cells at `as` and the blank one at the tail are all there is, and `vs` is in them. -/
structure Stores (c : Chain α) (as : List Nat) (vs : List α) : Prop where
  path : c.Path c.head as vs c.tail
  nodup : (as ++ [c.tail]).Nodup
  blank : c.cell? c.tail = some {}
  only : ∀ a, (c.cell? a).isSome → a ∈ as ++ [c.tail]

variable {c : Chain α} {log : List α} {as : List Nat} {vs : List α} {a b n : Nat}

/-! ### Paths -/

/-- What happens to a cell beside a path leaves the path alone. -/
lemma Path.write (h : c.Path a as vs b) {x : Nat} {y : Cell α} (hx : c.cell? x = some y)
    (hnot : x ∉ as) (z : Option (Cell α)) :
    ({ c with cells := c.cells.setIfInBounds x z } : Chain α).Path a as vs b := by
  induction h with
  | here a => exact .here a
  | step h _ ih =>
    rw [List.mem_cons, not_or] at hnot
    refine .step ?_ (ih hnot.2)
    rw [cell?_write hx, if_neg (Ne.symm hnot.1), h]

/-- The cells of a path are freed one after another, with the blank one at its end, each once. -/
lemma Path.freeFrom (h : c.Path a as vs b) (hnodup : (as ++ [b]).Nodup)
    (hblank : c.cell? b = some {}) (hn : as.length < n) :
    ∃ c', c.freeFrom (some a) n = .ok (vs, c') ∧ c'.cells.size = c.cells.size ∧
      ∀ x, (c'.cell? x).isSome → x ∉ as ++ [b] ∧ (c.cell? x).isSome := by
  induction as generalizing c a vs n with
  | nil =>
    obtain ⟨n, rfl⟩ := Nat.exists_eq_add_one_of_ne_zero (Nat.ne_of_gt hn)
    cases h with
    | here =>
    refine ⟨{ c with cells := c.cells.setIfInBounds b none }, ?_, Array.size_setIfInBounds, ?_⟩
    · rw [Chain.freeFrom, free_of_cell? hblank]
      simp only [ok_bind, pure_eq_ok, Chain.freeFrom]
      rfl
    · intro x hx
      rw [cell?_write hblank] at hx
      split at hx
      · cases hx
      · rename_i hne
        exact ⟨by rwa [List.nil_append, List.mem_singleton], hx⟩
  | cons a' as ih =>
    obtain ⟨n, rfl⟩ := Nat.exists_eq_add_one_of_ne_zero (Nat.ne_of_gt (Nat.zero_lt_of_lt hn))
    cases h with
    | step h rest =>
    rw [List.cons_append, List.nodup_cons, List.mem_append, not_or] at hnodup
    obtain ⟨⟨hnot, hne⟩, hnodup⟩ := hnodup
    have hblank' := cell?_write h none b
    rw [if_neg fun heq => hne (List.mem_singleton.mpr heq.symm), hblank] at hblank'
    obtain ⟨c', hfree, hsize, hleft⟩ :=
      ih (rest.write h hnot none) hnodup hblank' (Nat.lt_of_succ_lt_succ hn)
    refine ⟨c', ?_, hsize.trans Array.size_setIfInBounds, ?_⟩
    · rw [Chain.freeFrom, free_of_cell? h]
      simp only [ok_bind, pure_eq_ok, hfree]
      rfl
    · intro x hx
      obtain ⟨hbehind, hbefore⟩ := hleft x hx
      rw [cell?_write h] at hbefore
      split at hbefore
      · cases hbefore
      · rename_i hne'
        exact ⟨by simpa [hne'] using hbehind, hbefore⟩

/-! ### Settled chains -/

lemma Settled.path (h : c.Settled log) (ha : c.head ≤ a) (hn : a + n = c.tail) :
    c.Path a (List.range' a n) (log.drop a) c.tail := by
  induction n generalizing a with
  | zero =>
    have hlen : log.length ≤ a := by
      rw [← h.tail_eq, ← hn]
      exact Nat.le_refl a
    rw [List.range'_zero, List.drop_eq_nil_of_le hlen, ← hn]
    exact .here a
  | succ n ih =>
    obtain ⟨v, hv⟩ := h.exists_value (show a < c.tail by omega)
    obtain ⟨hlt, rfl⟩ := List.getElem?_eq_some_iff.mp hv
    rw [List.range'_succ, List.drop_eq_getElem_cons hlt]
    refine .step (h.stored a _ ha hv) ?_
    exact ih (Nat.le_succ_of_le ha) (by omega)

lemma Settled.isSome_iff (h : c.Settled log) :
    (c.cell? a).isSome ↔ c.head ≤ a ∧ a ≤ c.tail := by
  constructor
  · intro hsome
    obtain ⟨x, hx⟩ := Option.isSome_iff_exists.mp hsome
    have hlt := lt_size_of_cell? hx
    have hsize := h.size_eq
    refine ⟨?_, by omega⟩
    by_contra hgone
    rw [h.gone a (Nat.lt_of_not_le hgone)] at hx
    cases hx
  · rintro ⟨hhead, htail⟩
    rcases Nat.lt_or_eq_of_le htail with hlt | rfl
    · obtain ⟨v, hv⟩ := h.exists_value hlt
      rw [h.stored a v hhead hv]
      rfl
    · rw [h.last_eq]
      rfl

/-- The cells from the head on hold what was pushed and is not behind the head. -/
lemma Settled.stores (h : c.Settled log) :
    c.Stores (List.range' c.head (c.tail - c.head)) (log.drop c.head) := by
  have hle := h.head_le
  have hall : List.range' c.head (c.tail - c.head) ++ [c.tail] =
      List.range' c.head (c.tail - c.head + 1) := by
    rw [List.range'_1_concat, Nat.add_sub_cancel' hle]
  refine ⟨h.path (Nat.le_refl _) (Nat.add_sub_cancel' hle), ?_, h.last_eq, ?_⟩
  · rw [hall]
    exact List.nodup_range'
  · intro a ha
    have hbetween := h.isSome_iff.mp ha
    rw [hall, List.mem_range'_1]
    omega

/-- Tearing down frees all cells, and it comes to an end. -/
lemma Stores.tearDown (h : c.Stores as vs) (hsize : as.length < c.cells.size) :
    ∃ c', c.tearDown = .ok (vs, c') ∧ c'.cells.size = c.cells.size ∧ ∀ a, c'.cell? a = none := by
  obtain ⟨c', hfree, hsize', hleft⟩ := h.path.freeFrom h.nodup h.blank hsize
  refine ⟨c', hfree, hsize', ?_⟩
  intro a
  rw [← Option.not_isSome_iff_eq_none]
  intro hsome
  obtain ⟨hnot, hbefore⟩ := hleft a hsome
  exact hnot (h.only a hbefore)

/-- What goes with a settled chain is what it stored. -/
lemma Settled.tearDown (h : c.Settled log) :
    ∃ c', c.tearDown = .ok (log.drop c.head, c') ∧ c'.cells.size = c.cells.size ∧
      ∀ a, c'.cell? a = none := by
  apply h.stores.tearDown
  have hsize := h.size_eq
  rw [List.length_range']
  omega

end Chain

end Overseer
