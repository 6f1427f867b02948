import Mathlib.Tactic.Common
import Overseer.Lifecycle.Daemon

/-!
# Reading a trace

What happened to a daemon can be read off its trace: the word and the slots at any moment are the
ones that the events before it left. `View.Step` says once which event may come next, and
`Act.Tells` says that a run adds to the trace nothing but a path of such steps. What holds of all
paths then holds of all runs, with hooks inside of hooks and with arrivals at any access.
-/

namespace Overseer

variable {σ α β : Type}

/-! ### Replaying events -/

/-- The word after an event. -/
def Event.wordAfter (w : State) : Event σ → State
  | .stored _ s | .requested s true => s
  | .taken _ => .running
  | _ => w

/-- The word after some events. -/
def wordAfter (w : State) (es : List (Event σ)) : State := es.foldl Event.wordAfter w

/-- The slots after an event. -/
def Event.slotsAfter (slots : Slot → Option (Program σ)) : Event σ → Slot → Option (Program σ)
  | .bound slot hook => fun s => if s = slot then some hook else slots s
  | .boundAll hooks => fun s => some (hooks s)
  | .cleared => fun _ => none
  | _ => slots

/-- The slots after some events. -/
def slotsAfter (slots : Slot → Option (Program σ)) (es : List (Event σ)) :
    Slot → Option (Program σ) :=
  es.foldl Event.slotsAfter slots

@[simp] lemma wordAfter_nil (w : State) : wordAfter w ([] : List (Event σ)) = w := rfl

@[simp] lemma wordAfter_cons (w : State) (e : Event σ) (es : List (Event σ)) :
    wordAfter w (e :: es) = wordAfter (e.wordAfter w) es := rfl

lemma wordAfter_append (w : State) (es es' : List (Event σ)) :
    wordAfter w (es ++ es') = wordAfter (wordAfter w es) es' := List.foldl_append

@[simp] lemma slotsAfter_nil (slots : Slot → Option (Program σ)) :
    slotsAfter slots [] = slots := rfl

@[simp] lemma slotsAfter_cons (slots : Slot → Option (Program σ)) (e : Event σ)
    (es : List (Event σ)) :
    slotsAfter slots (e :: es) = slotsAfter (e.slotsAfter slots) es := rfl

/-! ### What may come next -/

/-- What a stopped daemon answers to an operation that it has nothing to do for. -/
def Op.refusal? : Op σ → Option Answer
  | .poll | .request _ => some (.bool false)
  | .requestReload => some .unit
  | _ => none

/-- What is under way where a trace is read. -/
inductive Phase (σ : Type) where
  | free
  /-- A request was taken, and its hook is to be looked up. -/
  | due (request : State)
  /-- The hook of a request failed, and the daemon is to be stopped. -/
  | failed (request : State)
  /-- An operation has found the daemon stopped and is to answer so. -/
  | hushed (op : Op σ) (answer : Answer)

/-- Whether the word can be asked for. A hook is looked up right after its request was taken. -/
def Phase.isOpen : Phase σ → Bool
  | .due _ => false
  | _ => true

/-- What is known where a trace is read. -/
structure View (σ : Type) where
  word : State
  slots : Slot → Option (Program σ)
  phase : Phase σ

namespace View

/-- The event that comes next, and what is known after it. -/
inductive Step : View σ → Event σ → View σ → Prop where
  | loaded (w f ph) (hph : ph = .free ∨ ∃ op a, ph = .hushed op a) :
      Step ⟨w, f, ph⟩ (.loaded w) ⟨w, f, ph⟩
  | put (w f s) : Step ⟨w, f, .free⟩ (.stored none s) ⟨s, f, .free⟩
  | started (w f) :
      Step ⟨w, f, .free⟩ (.stored (some .starting) .running) ⟨.running, f, .free⟩
  | closed (w f) : Step ⟨w, f, .free⟩ (.stored (some .closing) .stop) ⟨.stop, f, .free⟩
  | stopped (w f r) : Step ⟨w, f, .failed r⟩ (.stored (some (.handling r)) .stop) ⟨.stop, f, .free⟩
  | accepted (w f ph s) (hph : ph.isOpen) (hw : w ≠ .stop) :
      Step ⟨w, f, ph⟩ (.requested s true) ⟨s, f, ph⟩
  | refused (f ph s) (hph : ph.isOpen) :
      Step ⟨.stop, f, ph⟩ (.requested s false) ⟨.stop, f, ph⟩
  | taken (f r) (hr : r.isTransient) : Step ⟨r, f, .free⟩ (.taken r) ⟨.running, f, .due r⟩
  | superseded (w f r) (h : w ≠ r) : Step ⟨w, f, .free⟩ (.superseded r) ⟨w, f, .free⟩
  | bound (w f slot hook) : Step ⟨w, f, .free⟩ (.bound slot hook)
      ⟨w, (Event.bound slot hook).slotsAfter f, .free⟩
  | boundAll (w f hooks) : Step ⟨w, f, .free⟩ (.boundAll hooks) ⟨w, fun s => some (hooks s), .free⟩
  | cleared (w f) : Step ⟨w, f, .free⟩ .cleared ⟨w, fun _ => none, .free⟩
  | invoked (w f t) (ht : ∀ r, t ≠ .handling r) :
      Step ⟨w, f, .free⟩ (.invoked t (f t.slot) w) ⟨w, f, .free⟩
  | handled (f r) : Step ⟨.running, f, .due r⟩ (.invoked (.handling r) (f r.slot) .running)
      ⟨.running, f, .free⟩
  | returned (w f t o) (h : ∀ r, t = .handling r → o ≠ .failed) :
      Step ⟨w, f, .free⟩ (.returned t o) ⟨w, f, .free⟩
  | gaveIn (w f r) : Step ⟨w, f, .free⟩ (.returned (.handling r) .failed) ⟨w, f, .failed r⟩
  | killed (w f k) : Step ⟨w, f, .free⟩ (.killed k) ⟨w, f, .free⟩
  | logged (w f r) : Step ⟨w, f, .free⟩ (.logged r) ⟨w, f, .free⟩
  | began (w f op) (h : w = .stop → op.refusal? = none) :
      Step ⟨w, f, .free⟩ (.began op) ⟨w, f, .free⟩
  | hushed (f op a) (h : op.refusal? = some a) :
      Step ⟨.stop, f, .free⟩ (.began op) ⟨.stop, f, .hushed op a⟩
  | ended (w f op a) : Step ⟨w, f, .free⟩ (.ended op a) ⟨w, f, .free⟩
  | answered (w f op a) : Step ⟨w, f, .hushed op a⟩ (.ended op a) ⟨w, f, .free⟩

/-- Some events, one after another. -/
inductive Path : View σ → List (Event σ) → View σ → Prop where
  | nil (v) : Path v [] v
  | cons {v e v' es v''} (h : Step v e v') (hs : Path v' es v'') : Path v (e :: es) v''

variable {v v' v'' : View σ} {e : Event σ} {es es' : List (Event σ)}

lemma Step.word_eq (h : Step v e v') : v'.word = e.wordAfter v.word := by
  cases h <;> rfl

lemma Step.slots_eq (h : Step v e v') : v'.slots = e.slotsAfter v.slots := by
  cases h <;> rfl

lemma Path.single (h : Step v e v') : Path v [e] v' := .cons h (.nil v')

lemma Path.append (h : Path v es v') (h' : Path v' es' v'') : Path v (es ++ es') v'' := by
  induction h with
  | nil => exact h'
  | cons hstep _ ih => exact .cons hstep (ih h')

lemma Path.split (h : Path v (es ++ es') v'') : ∃ v', Path v es v' ∧ Path v' es' v'' := by
  induction es generalizing v with
  | nil => exact ⟨v, .nil v, h⟩
  | cons e es ih =>
    cases h with
    | cons hstep hs =>
      obtain ⟨v', hs', hs''⟩ := ih hs
      exact ⟨v', .cons hstep hs', hs''⟩

lemma Path.split_last (h : Path v (es ++ [e]) v'') : ∃ v', Path v es v' ∧ Step v' e v'' := by
  obtain ⟨v', hs, hlast⟩ := h.split
  cases hlast with
  | cons hstep hnil =>
    cases hnil
    exact ⟨v', hs, hstep⟩

lemma Path.word_eq (h : Path v es v') : v'.word = wordAfter v.word es := by
  induction h with
  | nil => rfl
  | cons hstep _ ih => rw [ih, hstep.word_eq, wordAfter_cons]

lemma Path.slots_eq (h : Path v es v') : v'.slots = slotsAfter v.slots es := by
  induction h with
  | nil => rfl
  | cons hstep _ ih => rw [ih, hstep.slots_eq, slotsAfter_cons]

end View

end Overseer
