import Mathlib.Data.List.Induction
import Mathlib.Tactic.Common

/-!
# Runs

A system takes steps, some of which cannot be taken, and a run takes the steps of a list one after
another. What the beginning has and every step of a run keeps, the end has.
-/

namespace Overseer

variable {σ β : Type} {step : σ → β → Option σ} {run : σ → List β → Option σ}

/-- `run` takes the steps in order, if each can be taken. -/
structure Runs (step : σ → β → Option σ) (run : σ → List β → Option σ) : Prop where
  nil : ∀ s, run s [] = some s
  cons : ∀ s b bs, run s (b :: bs) = (step s b).bind (run · bs)

namespace Runs

lemma append (h : Runs step run) (s : σ) (as bs : List β) :
    run s (as ++ bs) = (run s as).bind (run · bs) := by
  induction as generalizing s with
  | nil => rw [List.nil_append, h.nil, Option.bind_some]
  | cons a as ih =>
    rw [List.cons_append, h.cons, h.cons]
    cases step s a with
    | none => rfl
    | some s₁ => exact ih s₁

lemma concat (h : Runs step run) (s : σ) (bs : List β) (b : β) :
    run s (bs ++ [b]) = (run s bs).bind (step · b) := by
  rw [h.append]
  cases run s bs with
  | none => rfl
  | some s₁ =>
    rw [Option.bind_some, Option.bind_some, h.cons]
    cases step s₁ b with
    | none => rfl
    | some s₂ => exact h.nil s₂

/-- What holds in the beginning and is kept by every step holds after every run. -/
lemma invariant (h : Runs step run) {P : List β → σ → Prop} {s s' : σ} {bs : List β}
    (hnil : P [] s)
    (hstep : ∀ bs b u u', run s bs = some u → P bs u → step u b = some u' → P (bs ++ [b]) u')
    (hrun : run s bs = some s') : P bs s' := by
  induction bs using List.reverseRecOn generalizing s' with
  | nil =>
    rw [h.nil] at hrun
    cases hrun
    exact hnil
  | append_singleton bs b ih =>
    rw [h.concat] at hrun
    obtain ⟨u, hbefore, hlast⟩ := Option.bind_eq_some_iff.mp hrun
    exact hstep bs b u s' hbefore (ih hbefore) hlast

end Runs

end Overseer
