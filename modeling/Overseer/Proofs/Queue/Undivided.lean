import Mathlib.Data.List.Infix
import Overseer.Proofs.Queue.Cells

/-!
# A queue in one hand

Between two operations of an owner that works alone nothing is half done, and a chain is `Settled`.
-/

namespace Overseer

variable {α : Type}

namespace Chain

variable {c : Chain α} {log : List α}

@[simp] lemma ok_bind {β γ : Type} (b : β) (f : β → Except MemoryFault γ) :
    (Except.ok b >>= f) = f b := rfl

@[simp] lemma pure_eq_ok {β : Type} (b : β) : (pure b : Except MemoryFault β) = .ok b := rfl

/-- No operation is under way, and the cells that the head has left are free. -/
def Settled (c : Chain α) (log : List α) : Prop := c.Holds log c.head {} 0

lemma settled_empty : (empty : Chain α).Settled [] := holds_empty

namespace Settled

lemma push (h : c.Settled log) (v : α) :
    ∃ c', c.push v = .ok c' ∧ c'.head = c.head ∧ c'.Settled (log ++ [v]) := by
  have hnext : c.cells.size = c.tail + 1 := h.size_eq
  obtain ⟨c₁, hvalue, hhead₁, htail₁, h₁⟩ := h.allocate.update fun x => { x with value := some v }
  obtain ⟨c₂, hlink, hhead₂, htail₂, h₂⟩ := h₁.update fun x => { x with next := some c.cells.size }
  have htail : c₂.tail = c.tail := htail₂.trans htail₁
  have hhead : c₂.head = c.head := hhead₂.trans hhead₁
  refine ⟨c₂.setTail c.cells.size, ?_, hhead, ?_⟩
  · rw [htail₁] at hlink
    simp only [Chain.push, setValue, setNext]
    rw [hvalue, ok_bind]
    exact congrArg (· >>= fun c' => pure (c'.setTail c.cells.size)) hlink
  · rw [hnext, ← htail] at h₂ ⊢
    have hsettled := h₂.setTail
    rwa [← hhead] at hsettled

/-- A pop takes the value that the head stands at, and moves the head past it. -/
lemma pop (h : c.Settled log) :
    ∃ c', c.pop = .ok (log[c.head]?, c') ∧ c'.Settled log ∧
      log.take c'.head = log.take c.head ++ (log[c.head]?).toList := by
  by_cases hempty : c.head = c.tail
  · have hnone : log[c.head]? = none := by
      rw [hempty, h.tail_eq]
      exact List.getElem?_eq_none (Nat.le_refl _)
    refine ⟨c, ?_, h, ?_⟩
    · rw [Chain.pop, isEmpty, if_pos (decide_eq_true hempty), hnone]
      rfl
    · rw [hnone, Option.toList_none, List.append_nil]
  · have hlt : c.head < c.tail := Nat.lt_of_le_of_ne h.head_le hempty
    obtain ⟨x, c', hfree, hvalue, -, hhead, -, hc'⟩ := (h.setHead hlt).free (Nat.lt_succ_self _)
    have hhead' : c'.head = c.head + 1 := hhead
    refine ⟨c', ?_, ?_, ?_⟩
    · have hnext := h.nextOf (Nat.le_refl _) hlt
      rw [Chain.pop, isEmpty, if_neg (by simpa using hempty)]
      simp only [hnext, ok_bind, pure_eq_ok, hfree, hvalue]
    · rwa [Settled, hhead']
    · rw [hhead', List.take_add_one]

end Settled

end Chain

end Overseer

