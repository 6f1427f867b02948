import Mathlib.Data.List.Induction
import Overseer.Proofs.Lifecycle.Runs

/-!
# What becomes of requests

All requests share one word, so each of them can be overwritten before it is handled. In a run in
which nobody starts, closes or sets the daemon, every accepted request is accounted for: what first
happens to the word after it decides its fate, and a hook runs only for the request that was
accepted last.
-/

namespace Overseer

open View

variable {σ : Type}

/-- The word was written to start or to close the daemon, or by hand. -/
def Event.overrules : Event σ → Bool
  | .stored (some (.handling _)) _ => false
  | .stored _ _ => true
  | _ => false

/-- The word was written. -/
def Event.writes : Event σ → Bool
  | .stored _ _ | .taken _ => true
  | .requested _ accepted => accepted
  | _ => false

/-- What becomes of an accepted request. -/
inductive Fate where
  /-- It was taken, and a hook was looked up for it. -/
  | dispatched
  /-- Another request was accepted. -/
  | superseded
  /-- A hook failed, and the daemon stopped. -/
  | discarded
  | pending
deriving DecidableEq, Repr

/-- The request `s` meets with this fate in what happened after it was accepted; the word is what it
says in the end. -/
def Fate.Befalls (s : State) (after : List (Event σ)) (word : State) : Fate → Prop
  | dispatched => ∃ mid hook rest, (∀ e ∈ mid, e.writes = false) ∧
      after = mid ++ .taken s :: .invoked (.handling s) hook .running :: rest
  | superseded => ∃ mid s' rest, (∀ e ∈ mid, e.writes = false) ∧
      after = mid ++ .requested s' true :: rest
  | discarded => ∃ mid r rest, (∀ e ∈ mid, e.writes = false) ∧
      after = mid ++ .stored (some (.handling r)) .stop :: rest
  | pending => (∀ e ∈ after, e.writes = false) ∧ word = s

/-- All requests of a history are accounted for. The slots are those it began with. -/
structure Accounted (slots : Slot → Option (Program σ)) (history : List (Event σ))
    (word : State) : Prop where
  /-- Each accepted request has one fate. -/
  fate : ∀ before s after, history = before ++ .requested s true :: after →
    s.isTransient = true → ∃! f : Fate, f.Befalls s after word
  /-- What is taken is the request that was accepted last, and nobody has taken it before. -/
  origin : ∀ before r after, history = before ++ .taken r :: after →
    r.isTransient = true ∧ ∃ earlier mid, (∀ e ∈ mid, e.writes = false) ∧
      before = earlier ++ .requested r true :: mid
  /-- Whoever takes a second request finds one that was accepted since the first was taken. -/
  once : ∀ before r between r' after,
    history = before ++ .taken r :: (between ++ .taken r' :: after) →
      .requested r' true ∈ between
  /-- The hook of a request is run right after the request was taken, and it is the one in the slot
  for requests of this kind. -/
  hook : ∀ before r hook w after, history = before ++ .invoked (.handling r) hook w :: after →
    ∃ earlier, before = earlier ++ [.taken r] ∧ hook = slotsAfter slots before r.slot
  /-- A request makes the daemon stop only when its hook has failed. -/
  failure : ∀ before r s after, history = before ++ .stored (some (.handling r)) s :: after →
    s = .stop ∧ ∃ earlier asked, (∀ e ∈ asked, ∃ s' b, e = .requested s' b) ∧
      before = earlier ++ .returned (.handling r) .failed :: asked

/-! ### First and last writes -/

/-- The first write is there once. -/
lemma eq_of_first_write {mid mid' rest rest' : List (Event σ)} {e e' : Event σ}
    (hmid : ∀ e ∈ mid, e.writes = false) (hmid' : ∀ e ∈ mid', e.writes = false)
    (he : e.writes = true) (he' : e'.writes = true)
    (h : mid ++ e :: rest = mid' ++ e' :: rest') : e = e' := by
  induction mid generalizing mid' with
  | nil =>
    cases mid' with
    | nil => exact (List.cons.inj h).1
    | cons x mid' =>
      obtain rfl : e = x := (List.cons.inj h).1
      rw [hmid' e List.mem_cons_self] at he
      cases he
  | cons x mid ih =>
    cases mid' with
    | nil =>
      obtain rfl : x = e' := (List.cons.inj h).1
      rw [hmid x List.mem_cons_self] at he'
      cases he'
    | cons y mid' =>
      exact ih (fun e he => hmid e (List.mem_cons_of_mem _ he))
        (fun e he => hmid' e (List.mem_cons_of_mem _ he)) (List.cons.inj h).2

/-- Either nothing was written or there is a first write. -/
lemma first_write (es : List (Event σ)) :
    (∀ e ∈ es, e.writes = false) ∨
      ∃ mid e rest, (∀ e ∈ mid, e.writes = false) ∧ e.writes = true ∧ es = mid ++ e :: rest := by
  induction es with
  | nil => simp
  | cons e es ih =>
    cases he : e.writes with
    | true => exact .inr ⟨[], e, es, by simp, he, rfl⟩
    | false =>
      rcases ih with hes | ⟨mid, e', rest, hmid, he', rfl⟩
      · exact .inl (List.forall_mem_cons.mpr ⟨he, hes⟩)
      · exact .inr ⟨e :: mid, e', rest, List.forall_mem_cons.mpr ⟨he, hmid⟩, he', rfl⟩

lemma Event.wordAfter_of_not_writes {e : Event σ} (he : e.writes = false) (w : State) :
    e.wordAfter w = w := by
  cases e with
  | requested s accepted =>
    cases accepted with
    | true => simp [writes] at he
    | false => rfl
  | stored | taken => simp [writes] at he
  | _ => rfl

lemma wordAfter_of_not_writes {es : List (Event σ)} (hes : ∀ e ∈ es, e.writes = false)
    (w : State) : wordAfter w es = w := by
  induction es with
  | nil => rfl
  | cons e es ih =>
    rw [List.forall_mem_cons] at hes
    rw [wordAfter_cons, Event.wordAfter_of_not_writes hes.1, ih hes.2]

/-! ### What leads to an event -/

namespace View

variable {v v' : View σ} {es : List (Event σ)}

/-- A request that is in the word was accepted, and nothing has been written since. -/
lemma Path.last_request (h : Path v es v') (hes : ∀ e ∈ es, e.overrules = false)
    (hw : v'.word.isTransient = true) :
    ∃ earlier mid, (∀ e ∈ mid, e.writes = false) ∧
      .requested v.word true :: es = earlier ++ .requested v'.word true :: mid := by
  induction es using List.reverseRecOn generalizing v' with
  | nil =>
    cases h
    exact ⟨[], [], by simp, rfl⟩
  | append_singleton es e ih =>
    obtain ⟨u, hs, hstep⟩ := h.split_last
    have hes' : ∀ e ∈ es, e.overrules = false := fun e he => hes e (List.mem_append_left _ he)
    have he : e.overrules = false := hes e (by simp)
    cases hwrites : e.writes with
    | false =>
      have hword : v'.word = u.word := by
        rw [hstep.word_eq, Event.wordAfter_of_not_writes hwrites]
      rw [hword] at hw
      obtain ⟨earlier, mid, hmid, heq⟩ := ih hs hes' hw
      refine ⟨earlier, mid ++ [e], ?_, ?_⟩
      · intro x hx
        rcases List.mem_append.mp hx with hx | hx
        · exact hmid x hx
        · rw [List.mem_singleton.mp hx, hwrites]
      · rw [hword, ← List.cons_append, heq, List.append_assoc, List.cons_append]
    | true =>
      cases hstep with
      | accepted w f ph s hph hne =>
        exact ⟨.requested v.word true :: es, [], by simp, rfl⟩
      | put | started | closed => simp [Event.overrules] at he
      | taken | stopped => simp [State.isTransient] at hw
      | _ => simp [Event.writes] at hwrites

/-- A hook is due only where its request has just been taken. -/
lemma Path.taken_of_due (h : Path v es v') (hv : v.phase = .free) {r : State}
    (hv' : v'.phase = .due r) : ∃ earlier, es = earlier ++ [.taken r] := by
  induction es using List.reverseRecOn generalizing v' with
  | nil =>
    cases h
    rw [hv] at hv'
    cases hv'
  | append_singleton es e ih =>
    obtain ⟨u, -, hstep⟩ := h.split_last
    cases hstep with
    | taken f r' hr =>
      cases hv'
      exact ⟨es, rfl⟩
    | loaded w f ph hph => obtain rfl | ⟨op, a, rfl⟩ := hph <;> cases hv'
    | accepted w f ph s hph | refused f ph s hph =>
      subst hv'
      cases hph
    | _ => cases hv'

/-- The daemon is to be stopped only where a hook has failed, and only requests came in since. -/
lemma Path.returned_of_failed (h : Path v es v') (hv : v.phase = .free) {r : State}
    (hv' : v'.phase = .failed r) :
    ∃ earlier asked, (∀ e ∈ asked, ∃ s b, e = .requested s b) ∧
      es = earlier ++ .returned (.handling r) .failed :: asked := by
  induction es using List.reverseRecOn generalizing v' with
  | nil =>
    cases h
    rw [hv] at hv'
    cases hv'
  | append_singleton es e ih =>
    obtain ⟨u, hs, hstep⟩ := h.split_last
    have hasked : u.phase = .failed r → (∃ s b, e = .requested s b) →
        ∃ earlier asked, (∀ e ∈ asked, ∃ s b, e = .requested s b) ∧
          es ++ [e] = earlier ++ .returned (.handling r) .failed :: asked := by
      intro hu he
      obtain ⟨earlier, asked, hasked, rfl⟩ := ih hs hu
      refine ⟨earlier, asked ++ [e], ?_, by simp⟩
      intro x hx
      rcases List.mem_append.mp hx with hx | hx
      · exact hasked x hx
      · rwa [List.mem_singleton.mp hx]
    cases hstep with
    | gaveIn w f r' =>
      cases hv'
      exact ⟨es, [], by simp, rfl⟩
    | loaded w f ph hph => obtain rfl | ⟨op, a, rfl⟩ := hph <;> cases hv'
    | accepted w f ph s hph hne => exact hasked hv' ⟨s, true, rfl⟩
    | refused f ph s hph => exact hasked hv' ⟨s, false, rfl⟩
    | _ => cases hv'

/-- What first happens to the word decides the fate of the request in it. -/
lemma Path.exists_fate (h : Path v es v') (hv' : v'.phase = .free)
    (hes : ∀ e ∈ es, e.overrules = false) : ∃ f : Fate, f.Befalls v.word es v'.word := by
  rcases first_write es with hnone | ⟨mid, e, rest, hmid, he, rfl⟩
  · exact ⟨.pending, hnone, by rw [h.word_eq, wordAfter_of_not_writes hnone]⟩
  · obtain ⟨u, hpre, hpost⟩ := h.split
    have hu : u.word = v.word := by rw [hpre.word_eq, wordAfter_of_not_writes hmid]
    have hover : e.overrules = false := hes e (by simp)
    cases hpost with
    | cons hstep hrest =>
      cases hstep with
      | accepted w f ph s hph hne => exact ⟨.superseded, mid, s, rest, hmid, rfl⟩
      | put | started | closed => simp [Event.overrules] at hover
      | stopped w f r => exact ⟨.discarded, mid, r, rest, hmid, rfl⟩
      | taken f r hr =>
        obtain rfl : r = v.word := hu
        cases hrest with
        | nil => cases hv'
        | cons hnext _ =>
          cases hnext with
          | handled =>
            exact ⟨.dispatched, mid, _, _, hmid, rfl⟩
          | accepted _ _ _ _ hph => cases hph
          | loaded _ _ _ hph => obtain hph | ⟨op, a, hph⟩ := hph <;> cases hph
      | _ => simp [Event.writes] at he

end View

/-- The fate that an event brings to the request in the word. -/
def Event.fate : Event σ → Fate
  | .taken _ => .dispatched
  | .requested _ _ => .superseded
  | .stored _ _ => .discarded
  | _ => .pending

/-- A fate is that of the first write. -/
lemma Fate.Befalls.first_write {s word : State} {after : List (Event σ)} {f : Fate}
    (h : f.Befalls s after word) :
    ((∀ e ∈ after, e.writes = false) ∧ f = .pending) ∨
      ∃ mid e rest, (∀ e ∈ mid, e.writes = false) ∧ e.writes = true ∧
        after = mid ++ e :: rest ∧ f = e.fate := by
  cases f with
  | pending => exact .inl ⟨h.1, rfl⟩
  | dispatched =>
    obtain ⟨mid, hook, rest, hmid, rfl⟩ := h
    exact .inr ⟨mid, _, _, hmid, rfl, rfl, rfl⟩
  | superseded =>
    obtain ⟨mid, s', rest, hmid, rfl⟩ := h
    exact .inr ⟨mid, _, _, hmid, rfl, rfl, rfl⟩
  | discarded =>
    obtain ⟨mid, r, rest, hmid, rfl⟩ := h
    exact .inr ⟨mid, _, _, hmid, rfl, rfl, rfl⟩

/-- No request meets with two fates. -/
lemma Fate.Befalls.unique {s word : State} {after : List (Event σ)} {f g : Fate}
    (hf : f.Befalls s after word) (hg : g.Befalls s after word) : f = g := by
  rcases hf.first_write with ⟨hnone, rfl⟩ | ⟨mid, e, rest, hmid, he, rfl, rfl⟩
  · rcases hg.first_write with ⟨-, rfl⟩ | ⟨mid', e', rest', -, he', rfl, -⟩
    · rfl
    · rw [hnone e' (by simp)] at he'
      cases he'
  · rcases hg.first_write with ⟨hnone, -⟩ | ⟨mid', e', rest', hmid', he', heq, rfl⟩
    · rw [hnone e (by simp)] at he
      cases he
    · rw [eq_of_first_write hmid hmid' he he' heq]

namespace View

variable {v v' : View σ} {es before after : List (Event σ)}

/-- What comes after the request that is there from the beginning is reached by a path. -/
lemma Path.reach {e : Event σ} (h : Path v es v') (he : ∀ s, e ≠ .requested s true)
    (heq : .requested v.word true :: es = before ++ e :: after) :
    ∃ begun u u', before = .requested v.word true :: begun ∧ (∀ x ∈ begun, x ∈ es) ∧
      Path v begun u ∧ Step u e u' ∧ Path u' after v' := by
  cases before with
  | nil => exact absurd (List.cons.inj heq).1.symm (he _)
  | cons x begun =>
    obtain ⟨rfl, rfl⟩ := List.cons.inj heq
    obtain ⟨u, hbegun, hrest⟩ := h.split
    cases hrest with
    | cons hstep hafter =>
      exact ⟨begun, u, _, rfl, fun x hx => List.mem_append_left _ hx, hbegun, hstep, hafter⟩

lemma Path.fate_existsUnique {s : State} (h : Path v es v') (hv' : v'.phase = .free)
    (hes : ∀ e ∈ es, e.overrules = false)
    (heq : .requested v.word true :: es = before ++ .requested s true :: after) :
    ∃! f : Fate, f.Befalls s after v'.word := by
  suffices hfate : ∃ f : Fate, f.Befalls s after v'.word by
    obtain ⟨f, hf⟩ := hfate
    exact ⟨f, hf, fun g hg => hg.unique hf⟩
  cases before with
  | nil =>
    obtain ⟨hs, rfl⟩ := List.cons.inj heq
    cases hs
    exact h.exists_fate hv' hes
  | cons x begun =>
    obtain ⟨-, rfl⟩ := List.cons.inj heq
    obtain ⟨u, -, hrest⟩ := h.split
    cases hrest with
    | cons hstep hafter =>
      have hover : ∀ e ∈ after, e.overrules = false := fun e he => hes e (by simp [he])
      cases hstep with
      | accepted w f ph s hph hne => exact hafter.exists_fate hv' hover

lemma Path.taken_origin {r : State} (h : Path v es v') (hes : ∀ e ∈ es, e.overrules = false)
    (heq : .requested v.word true :: es = before ++ .taken r :: after) :
    r.isTransient = true ∧ ∃ earlier mid, (∀ e ∈ mid, e.writes = false) ∧
      before = earlier ++ .requested r true :: mid := by
  obtain ⟨begun, u, u', rfl, hbegun, hpath, hstep, -⟩ := h.reach (by simp) heq
  cases hstep with
  | taken f r hr => exact ⟨hr, hpath.last_request (fun e he => hes e (hbegun e he)) hr⟩

lemma Path.taken_once {r r' : State} {between : List (Event σ)} (h : Path v es v')
    (hes : ∀ e ∈ es, e.overrules = false)
    (heq : .requested v.word true :: es =
      before ++ .taken r :: (between ++ .taken r' :: after)) :
    .requested r' true ∈ between := by
  rw [← List.cons_append, ← List.append_assoc] at heq
  obtain ⟨-, earlier, mid, hmid, hsplit⟩ := h.taken_origin hes heq
  rcases List.append_eq_append_iff.mp hsplit with ⟨c, -, hc⟩ | ⟨c, -, hc⟩
  · cases c with
    | nil => cases (List.cons.inj hc).1
    | cons x c =>
      rw [(List.cons.inj hc).2]
      simp
  · -- the first request would have been taken after the second was accepted, but before it was
    cases c with
    | nil => cases (List.cons.inj hc).1
    | cons x c =>
      have hwrites := hmid (.taken r) (by rw [(List.cons.inj hc).2]; simp)
      cases hwrites

lemma Path.hook_looked_up {r w : State} {hook : Option (Program σ)} (h : Path v es v')
    (hv : v.phase = .free)
    (heq : .requested v.word true :: es = before ++ .invoked (.handling r) hook w :: after) :
    ∃ earlier, before = earlier ++ [.taken r] ∧ hook = slotsAfter v.slots before r.slot := by
  obtain ⟨begun, u, u', rfl, -, hpath, hstep, -⟩ := h.reach (by simp) heq
  cases hstep with
  | invoked w f t ht => exact absurd rfl (ht r)
  | handled f r =>
    obtain ⟨earlier, hearlier⟩ := hpath.taken_of_due hv rfl
    refine ⟨.requested v.word true :: earlier, by rw [hearlier, List.cons_append], ?_⟩
    -- the request that is there from the beginning binds no hook
    exact congrFun hpath.slots_eq r.slot

lemma Path.stop_of_failure {r s : State} (h : Path v es v') (hv : v.phase = .free)
    (heq : .requested v.word true :: es =
      before ++ .stored (some (.handling r)) s :: after) :
    s = .stop ∧ ∃ earlier asked, (∀ e ∈ asked, ∃ s' b, e = .requested s' b) ∧
      before = earlier ++ .returned (.handling r) .failed :: asked := by
  obtain ⟨begun, u, u', rfl, -, hpath, hstep, -⟩ := h.reach (by simp) heq
  cases hstep with
  | stopped w f r =>
    obtain ⟨earlier, asked, hasked, rfl⟩ := hpath.returned_of_failed hv rfl
    exact ⟨rfl, .requested v.word true :: earlier, asked, hasked, rfl⟩

end View

namespace Daemon

/-- Whatever comes in, and whatever hooks do: as long as nobody starts, closes or sets the daemon,
all requests are accounted for. What the word says in the beginning counts as accepted. -/
theorem requests_accounted (depth : Nat) (p : Program σ) (d : Daemon σ) {es : List (Event σ)}
    (hrun : (p.run (perform depth) d).2.trace = d.trace ++ es)
    (hes : ∀ e ∈ es, e.overrules = false) :
    Accounted d.slots (.requested d.word true :: es) (p.run (perform depth) d).2.word := by
  obtain ⟨es', htrace, hpath⟩ := exists_path depth p d
  obtain rfl : es' = es := by
    rw [hrun] at htrace
    exact (List.append_cancel_left htrace).symm
  exact {
    fate := fun before s after heq _ => hpath.fate_existsUnique rfl hes heq
    origin := fun before r after heq => hpath.taken_origin hes heq
    once := fun before r between r' after heq => hpath.taken_once hes heq
    hook := fun before r hook w after heq => hpath.hook_looked_up rfl heq
    failure := fun before r s after heq => hpath.stop_of_failure rfl heq }

/-- A daemon that two requests reach at once. The hook of the second asks for more and polls. -/
def crowded : Daemon Unit where
  app := ()
  word := .running
  slots
    | .reload => some <| .perform (.request .user1) fun _ => .perform .poll fun _ => .done .passed
    | _ => none
  arrivals := [[.request .user2, .request .reload]]

/-- The second request supersedes the first, and the third is dispatched inside its hook. -/
theorem requests_accounted_crowded :
    let run := (Program.run (perform 2) (.perform .poll fun _ => .done .unset) crowded).2
    (∀ e ∈ run.trace, e.overrules = false) ∧
      Accounted crowded.slots (.requested .running true :: run.trace) run.word := by
  intro run
  have hover : ∀ e ∈ run.trace, e.overrules = false := by decide +kernel
  exact ⟨hover, requests_accounted 2 _ crowded (List.nil_append _).symm hover⟩

end Daemon

end Overseer
