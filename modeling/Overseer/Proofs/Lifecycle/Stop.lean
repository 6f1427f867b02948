import Overseer.Proofs.Lifecycle.Runs

/-!
# A stop is final

Once the word says `stop`, it says so until somebody starts the daemon again or sets the word by
hand. This holds wherever in a run the stop comes in: before a request is taken, while its hook
runs, however deep hooks nest, or between a hook and what is done about it.
-/

namespace Overseer

open View

variable {σ : Type}

/-- The word was written to start the daemon again, or by hand. -/
def Event.restarts : Event σ → Bool
  | .stored none _ | .stored (some .starting) _ => true
  | _ => false

/-- What a stopped daemon no longer shows: a request that is accepted or taken, a hook that handles
one, and a word that says anything else. -/
def Event.stirs : Event σ → Bool
  | .requested _ accepted => accepted
  | .taken _ | .invoked (.handling _) _ _ => true
  | .loaded s | .stored _ s => s != .stop
  | _ => false

/-- What a stopped daemon does about an operation that it refuses. -/
def Event.isLook : Event σ → Bool
  | .loaded s => s = .stop
  | .requested _ accepted => !accepted
  | _ => false

namespace View

variable {v v' : View σ} {e : Event σ} {es : List (Event σ)}

lemma Step.keeps_stop (h : Step v e v') (hw : v.word = .stop) (he : e.restarts = false) :
    v'.word = .stop ∧ e.stirs = false := by
  cases h with
  | loaded w f ph hph =>
    subst hw
    exact ⟨rfl, rfl⟩
  | put | started => simp [Event.restarts] at he
  | accepted w f ph s hph hne => exact absurd hw hne
  | taken f r hr =>
    subst hw
    simp [State.isTransient] at hr
  | handled f r => cases hw
  | invoked w f t ht =>
    refine ⟨hw, ?_⟩
    cases t with
    | handling r => exact absurd rfl (ht r)
    | starting | closing => rfl
  | closed | stopped => exact ⟨rfl, rfl⟩
  | _ => exact ⟨hw, rfl⟩

lemma Path.keeps_stop (h : Path v es v') (hw : v.word = .stop)
    (hes : ∀ e ∈ es, e.restarts = false) : v'.word = .stop ∧ ∀ e ∈ es, e.stirs = false := by
  induction h with
  | nil => exact ⟨hw, by simp⟩
  | cons hstep _ ih =>
    rw [List.forall_mem_cons] at hes
    obtain ⟨hw', he⟩ := hstep.keeps_stop hw hes.1
    obtain ⟨hw'', hes'⟩ := ih hw' hes.2
    exact ⟨hw'', List.forall_mem_cons.mpr ⟨he, hes'⟩⟩

/-- What has found the daemon stopped only looks before it answers. -/
lemma Path.answers_of_hushed {f : Slot → Option (Program σ)} {op : Op σ} {a : Answer}
    (h : Path ⟨.stop, f, .hushed op a⟩ es v') (hv : v'.phase = .free) :
    ∃ looks rest, es = looks ++ .ended op a :: rest ∧ ∀ e ∈ looks, e.isLook = true := by
  induction es with
  | nil =>
    cases h
    cases hv
  | cons e es ih =>
    cases h with
    | cons hstep hs =>
      cases hstep with
      | answered => exact ⟨[], es, rfl, by simp⟩
      | accepted _ _ _ _ _ hne => exact absurd rfl hne
      | loaded | refused =>
        obtain ⟨looks, rest, rfl, hlooks⟩ := ih hs
        exact ⟨_ :: looks, rest, rfl, List.forall_mem_cons.mpr ⟨rfl, hlooks⟩⟩

end View

namespace Daemon

/-- At whatever moment of a run the word says `stop`: as long as nobody starts the daemon again or
sets the word by hand, the word stays so, no request is accepted or taken, no hook of a request is
run, and a poll or request that begins finds nothing to do and answers so. -/
theorem stop_is_final (depth : Nat) (p : Program σ) (d : Daemon σ)
    {before after later : List (Event σ)}
    (hrun : (p.run (perform depth) d).2.trace = d.trace ++ (before ++ (after ++ later)))
    (hstop : wordAfter d.word before = .stop) (hafter : ∀ e ∈ after, e.restarts = false) :
    (∀ seen rest, after = seen ++ rest → wordAfter d.word (before ++ seen) = .stop) ∧
      (later = [] → (p.run (perform depth) d).2.word = .stop) ∧
      (∀ e ∈ after, e.stirs = false) ∧
      ∀ seen op a rest, after = seen ++ .began op :: rest → op.refusal? = some a →
        ∃ looks rest', rest ++ later = looks ++ .ended op a :: rest' ∧
          ∀ e ∈ looks, e.isLook = true := by
  obtain ⟨es, htrace, hpath⟩ := exists_path depth p d
  obtain rfl : es = before ++ (after ++ later) := by
    rw [hrun] at htrace
    exact (List.append_cancel_left htrace).symm
  obtain ⟨v, hbefore, hrest⟩ := hpath.split
  have hv : v.word = .stop := hbefore.word_eq.trans hstop
  have hseen : ∀ seen rest, after = seen ++ rest → wordAfter d.word (before ++ seen) = .stop := by
    rintro seen rest rfl
    obtain ⟨v', hafter', -⟩ := hrest.split
    obtain ⟨v'', hpart, -⟩ := hafter'.split
    calc wordAfter d.word (before ++ seen)
        = wordAfter v.word seen := by rw [wordAfter_append, hstop, hv]
      _ = v''.word := hpart.word_eq.symm
      _ = .stop := (hpart.keeps_stop hv fun e he => hafter e (List.mem_append_left _ he)).1
  refine ⟨hseen, ?_, ?_, ?_⟩
  · rintro rfl
    rw [List.append_nil] at hrest
    exact (hrest.keeps_stop hv hafter).1
  · obtain ⟨v', hafter', -⟩ := hrest.split
    exact (hafter'.keeps_stop hv hafter).2
  · rintro seen op a rest rfl ha
    rw [List.append_assoc] at hrest
    obtain ⟨v', hseen', hop⟩ := hrest.split
    have hv' : v'.word = .stop :=
      (hseen'.keeps_stop hv fun e he => hafter e (List.mem_append_left _ he)).1
    cases hop with
    | cons hstep hs =>
      cases hstep with
      | began w f op hop =>
        rw [hop hv'] at ha
        cases ha
      | hushed f op b hb =>
        obtain rfl : b = a := Option.some.inj (hb.symm.trans ha)
        exact hs.answers_of_hushed rfl

/-- A daemon that is asked to stop while its reload hook runs. -/
def interrupted : Daemon Unit where
  app := ()
  word := .reload
  slots
    | .reload => some <| .perform .poll fun _ => .perform (.request .user1) fun _ => .done .failed
    | _ => none
  arrivals := [[], [], [.request .stop]]

/-- Polls twice. -/
def pollTwice : Program Unit := .perform .poll fun _ => .perform .poll fun _ => .done .passed

/-- The hook asks for more in vain, and the daemon it fails in does not run again. -/
theorem stop_is_final_interrupted :
    let es := (pollTwice.run (perform 3) interrupted).2.trace
    wordAfter .reload (es.take 6) = .stop ∧ (∀ e ∈ es.drop 6, e.restarts = false) ∧
      ∀ e ∈ es.drop 6, e.stirs = false := by
  intro es
  have hstop : wordAfter interrupted.word (es.take 6) = .stop := by decide +kernel
  have hafter : ∀ e ∈ es.drop 6, e.restarts = false := by decide +kernel
  have hrun : es = interrupted.trace ++ (es.take 6 ++ (es.drop 6 ++ [])) := by
    rw [List.append_nil, List.take_append_drop]
    rfl
  exact ⟨hstop, hafter, (stop_is_final 3 pollTwice interrupted hrun hstop hafter).2.2.1⟩

end Daemon

end Overseer
