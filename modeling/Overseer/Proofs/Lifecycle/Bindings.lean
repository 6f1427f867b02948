import Mathlib.Data.List.Induction
import Overseer.Context
import Overseer.Proofs.Lifecycle.Guarded
import Overseer.Proofs.Lifecycle.Notices

/-!
# Which hook a transition runs

A transition runs the hook that its slot was given last before the hook was looked up, wherever it
was given, and runs it to the end, whatever happens to the slot meanwhile.
-/

namespace Overseer

variable {σ α : Type}

/-! ### What a slot was given -/

namespace Daemon

open Act

/-- After a hook was looked up, what is told is the run of that hook, and then that it came back if
it did. -/
def IsRun (before : List (Event σ)) (t : Transition) (hook : Option (Program σ)) (w : State)
    (after : List (Event σ)) : Prop :=
  ∃ n d e d' within rest, call (Program.run (perform n)) hook d = (e, d') ∧
    d.trace = before ++ [.invoked t hook w] ∧ d'.trace = d.trace ++ within ∧
    after = within ++ rest ∧ ∀ o, e = .returned o → rest.head? = some (.returned t o)

/-- Every hook that was looked up was run. -/
def Heeds (d d' : Daemon σ) : Prop :=
  ∃ es, d'.trace = d.trace ++ es ∧ ∀ before t hook w after,
    es = before ++ .invoked t hook w :: after → IsRun (d.trace ++ before) t hook w after

variable {d d' d'' : Daemon σ} {t : Transition} {hook : Option (Program σ)} {w : State}
  {before after : List (Event σ)}

lemma IsRun.append (h : IsRun before t hook w after) (more : List (Event σ)) :
    IsRun before t hook w (after ++ more) := by
  obtain ⟨n, d, e, d', within, rest, hcall, hbegun, htold, rfl, hback⟩ := h
  refine ⟨n, d, e, d', within, rest ++ more, hcall, hbegun, htold, List.append_assoc _ _ _, ?_⟩
  intro o ho
  rw [List.head?_append, hback o ho]
  rfl

namespace Heeds

lemma trans (h : d.Heeds d') (h' : d'.Heeds d'') : d.Heeds d'' := by
  obtain ⟨es, htrace, hes⟩ := h
  obtain ⟨es', htrace', hes'⟩ := h'
  refine ⟨es ++ es', by rw [htrace', htrace, List.append_assoc], ?_⟩
  intro before t hook w after hsplit
  -- the hook was looked up among the later events, or among the earlier ones
  have hlater {later : List (Event σ)} (hbefore : before = es ++ later)
      (hsplit : es' = later ++ .invoked t hook w :: after) :
      IsRun (d.trace ++ before) t hook w after := by
    have hrun := hes' later t hook w after hsplit
    rwa [htrace, List.append_assoc, ← hbefore] at hrun
  rcases List.append_eq_append_iff.mp hsplit with ⟨later, hbefore, hrest⟩ | ⟨mid, hfirst, hmid⟩
  · exact hlater hbefore hrest
  · cases mid with
    | nil => exact @hlater [] (by simpa using hfirst.symm) hmid.symm
    | cons e mid =>
      obtain ⟨rfl, rfl⟩ := List.cons.inj hmid
      exact (hes before t hook w mid hfirst).append es'

end Heeds

/-- What keeps to a relation keeps to what follows from it. -/
lemma Manner.mono {Q : Record → Prop} {R R' : Daemon σ → Daemon σ → Prop} (h : Manner Q R)
    (hR : ∀ {d d' : Daemon σ}, R d d' → R' d d')
    (trans : ∀ {d d' d'' : Daemon σ}, R' d d' → R' d' d'' → R' d d'') : Manner Q R' where
  refl d := hR (h.refl d)
  trans := trans
  arrive d := hR (h.arrive d)
  ask d s := hR (h.ask d s)
  aside d e he := hR (h.aside d e he)
  put d s := hR (h.put d s)
  bind d slot hook hhook := hR (h.bind d slot hook hhook)
  bindAll d hooks hhooks := hR (h.bindAll d hooks hhooks)
  clear d := hR (h.clear d)
  listen d := hR (h.listen d)
  touch d app rs hrs := hR (h.touch d app rs hrs)

section

variable {n : Nat} (hrun : ∀ p : Program σ, (p.run (perform n)).Keeps Heeds)
include hrun

end

end Daemon

/-! ### The hook that was given last -/

namespace Guarded

open Daemon View

/-- A start hook that gives its own slot to another one is not disturbed by that. -/
example :
    let later : Program Unit := .done .failed
    let first : Program Unit := .perform (.bind .start later) fun _ => .perform .describe fun _ =>
      .done .passed
    let p : Program Unit := .perform (.bind .start first) fun _ => .perform .startAll fun _ =>
      .perform .startAll fun _ => .perform .clearHooks fun _ => .perform .startAll fun _ =>
        .done .passed
    let g := (p.runGuarded (perform 2) { daemon := { app := () } }).2
    g.daemon.trace.filterMap Event.completed? =
      [(.starting, .passed), (.starting, .failed), (.starting, .unset)] ∧
      g.started = [(.starting, false), (.starting, false)] := by
  decide +kernel

end Guarded

end Overseer
