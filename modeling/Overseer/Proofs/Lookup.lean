import Mathlib.Tactic.Common

/-!
# Association lists

What becomes of a lookup when the entries of one key are taken out.
-/

namespace Overseer

variable {κ β : Type} [BEq κ] [LawfulBEq κ] [DecidableEq κ] {k k' : κ}

lemma lookup_filter_ne (entries : List (κ × β)) (h : k' ≠ k) :
    (entries.filter (·.1 ≠ k)).lookup k' = entries.lookup k' := by
  induction entries with
  | nil => rfl
  | cons entry entries ih =>
    obtain ⟨here, e⟩ := entry
    by_cases hhere : here = k
    · subst hhere
      rw [List.filter_cons_of_neg (by simp), ih, List.lookup_cons, beq_eq_false_iff_ne.mpr h]
    · rw [List.filter_cons_of_pos (by simpa using hhere), List.lookup_cons, List.lookup_cons, ih]

lemma lookup_filter_self (entries : List (κ × β)) (k : κ) :
    (entries.filter (·.1 ≠ k)).lookup k = none := by
  rw [List.lookup_eq_none_iff]
  intro entry hentry
  obtain ⟨-, hne⟩ := List.mem_filter.mp hentry
  exact bne_iff_ne.mpr (Ne.symm (of_decide_eq_true hne))

end Overseer
