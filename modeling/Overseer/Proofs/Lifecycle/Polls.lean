import Overseer.Proofs.Lifecycle.Alone
import Overseer.Proofs.Lifecycle.Habits

/-!
# What a poll resolves to

A poll that finds a request looks up the one hook that is bound for it and runs it on a daemon that
says `running`. Whatever the hook does to the daemon stays as it is, unless the hook fails.
-/

namespace Overseer

variable {σ : Type}

/-- A hook is looked up. -/
def Event.isInvoked : Event σ → Bool
  | .invoked _ _ _ => true
  | _ => false

namespace Daemon

open Act

variable {d left : Daemon σ} {r : State} {run : Program σ → Act σ Outcome}

/-! ### Nothing comes in by itself -/

/-- A daemon that is left alone stays so. -/
def StaysAlone (d d' : Daemon σ) : Prop := d.arrivals = [] → d'.arrivals = []

lemma habit_staysAlone : Habit (fun _ => True) (StaysAlone (σ := σ)) := by
  refine .of_note (fun _ => id) (fun h h' => h' ∘ h) (fun d h => ?_) (fun _ _ => id)
    (fun _ _ => id) (fun _ _ => id) (fun _ => id) fun _ _ _ => id
  rwa [arrive_of_nil h]

/-! ### The hook of a request -/

/-- The daemon on which the hook of the waiting request is run. -/
def entrusted (d : Daemon σ) : Daemon σ :=
  { d with
    word := .running
    trace := d.trace ++
      [.loaded d.word, .taken d.word, .invoked (.handling d.word) (d.slots d.word.slot) .running] }

/-- What is told once the hook of a request has come back. -/
def aftermath (r : State) (o : Outcome) : List (Event σ) :=
  .returned (.handling r) o :: (if o.isFailed then
    [.stored (some (.handling r)) .stop,
      .logged ⟨.warn, .lifecycle, r.name ++ " hook failed, daemon stopping"⟩]
  else [.logged ⟨.info, .lifecycle,
    "Handled " ++ r.name ++ " request (hook: " ++ o.name ++ ")"⟩])

lemma isInvoked_aftermath (r : State) (o : Outcome) :
    ∀ e ∈ (aftermath r o : List (Event σ)), e.isInvoked = false := by
  cases o <;> simp [aftermath, Outcome.isFailed, Event.isInvoked]

lemma staysAlone_call (depth : Nat) (hook : Option (Program σ)) :
    (call (Program.run (perform depth)) hook).Keeps StaysAlone := by
  cases hook with
  | none => exact fun _ => id
  | some p => exact habit_staysAlone.program depth p.says_true

/-- What a poll does once the hook of a request has come back. -/
def conclude (r : State) (o : Outcome) : Act σ Bool :=
  (settleRequest r o).andThen fun _ => Act.load.andThen fun resolved => done resolved.isAlive

/-- A poll that finds a request runs the hook that is bound for it. -/
lemma poll_of_transient (hd : d.arrivals = []) (hr : d.word.isTransient = true) :
    poll run d = (call run (d.slots d.word.slot)).andThen
      (fun o => (Act.note (.returned (.handling d.word) o)).andThen fun _ => conclude d.word o)
      d.entrusted := by
  have hentrusted : d.entrusted =
      ({ d.note (.loaded d.word) with word := .running }.note (.taken d.word)).note
        (.invoked (.handling d.word) (d.slots d.word.slot) .running) := by
    simp only [entrusted, note, List.append_assoc, List.cons_append, List.nil_append]
  simp only [poll, bind_eq, pure_eq]
  refine (andThen_returned (load_of_nil hd)).trans ?_
  rw [if_pos hr, dispatch_eq, andThen_assoc]
  refine (andThen_returned (take_of_nil (by exact hd) (by exact rfl))).trans ?_
  rw [if_pos rfl, andThen_assoc, hentrusted]
  exact invoke_andThen _ _ _

/-- What is left of a poll settles the request and looks at the word again. -/
lemma conclude_of_nil (h : left.arrivals = []) (o : Outcome) :
    let after := if o = .failed then .stop else left.word
    (Act.note (.returned (.handling r) o)).andThen (fun _ => conclude r o) left =
      (.returned after.isAlive, { left with
        word := after, trace := left.trace ++ (aftermath r o ++ [.loaded after]) }) := by
  intro after
  have hsettle : settleRequest r o (left.note (.returned (.handling r) o)) =
      (.returned (), { left with word := after, trace := left.trace ++ aftermath r o }) := by
    cases o with
    | failed =>
      rw [settleRequest_failed]
      refine (andThen_returned (store_of_nil (by exact h) _ _)).trans ?_
      simp only [log_eq, note, aftermath, Outcome.isFailed, after, List.append_assoc,
        List.cons_append, List.nil_append, if_true]
    | unset | passed =>
      refine (log_eq _ _ _ _).trans ?_
      simp [note, aftermath, Outcome.isFailed, after]
  refine (andThen_returned rfl).trans ?_
  refine (andThen_returned hsettle).trans ?_
  refine (andThen_returned (load_of_nil (by exact h))).trans ?_
  simp only [done, List.append_assoc]

/-! ### Polls -/

/-- A poll of a daemon that is left alone, whatever its hooks do to the daemon and however deep they
nest. Where nothing waits, it changes nothing. Where a request waits, it runs the one hook that is
bound for it, or none, on a daemon that says `running`; if the hook fails, the daemon stops, and
otherwise all stays as the hook left it. -/
theorem poll_resolves (depth : Nat) {d : Daemon σ} (halone : d.arrivals = []) :
    let run : Program σ → Act σ Outcome := Program.run (perform depth)
    (d.word.isTransient = false → poll run d =
      (.returned (d.word = .running),
        { d with trace := d.trace ++ [.loaded d.word, .loaded d.word] })) ∧
    (d.word.isTransient = true → ∀ e left,
      call run (d.slots d.word.slot) d.entrusted = (e, left) →
      (∃ within, left.trace = d.trace ++ ([.loaded d.word, .taken d.word,
        .invoked (.handling d.word) (d.slots d.word.slot) .running] ++ within)) ∧
      match e with
      | .returned o =>
        let after := if o = .failed then .stop else left.word
        ∃ said, (∀ x ∈ said, x.isInvoked = false) ∧ poll run d =
          (.returned (after ∈ [State.running, .reload, .user1, .user2]),
            { left with word := after, trace := left.trace ++ said })
      | .panicked m => poll run d = (.panicked m, left)
      | .unfinished => poll run d = (.unfinished, left)) := by
  intro run
  refine ⟨fun hr => ?_, fun hr e left hcall => ⟨?_, ?_⟩⟩
  · rw [poll_of_settled halone hr, State.isAlive, hr, Bool.or_false]
  · obtain ⟨within, htrace, -⟩ := tells_call
      (Program.tells_run (tells_perform depth)) (d.slots d.word.slot) d.entrusted
    rw [hcall] at htrace
    exact ⟨within, htrace.trans (List.append_assoc _ _ _)⟩
  · have hleft : left.arrivals = [] := by
      have hkeeps := staysAlone_call depth (d.slots d.word.slot) d.entrusted halone
      rwa [hcall] at hkeeps
    rw [poll_of_transient halone hr]
    cases e with
    | returned o =>
      set after : State := if o = .failed then .stop else left.word with hafter
      refine ⟨aftermath d.word o ++ [.loaded after], ?_, ?_⟩
      · exact List.forall_mem_append.mpr
          ⟨isInvoked_aftermath d.word o, List.forall_mem_singleton.mpr rfl⟩
      · rw [andThen_returned hcall, conclude_of_nil hleft, ← hafter]
        cases after <;> rfl
    | panicked m => exact andThen_panicked hcall
    | unfinished => exact andThen_unfinished hcall

/-- A daemon whose reload hook goes against its own failure. -/
def contrary : Daemon Unit where
  app := ()
  word := .reload
  slots
    | .reload => some <| .perform .clearHooks fun _ => .perform .closeAll fun _ =>
        .perform .startAll fun _ => .perform (.request .user2) fun _ => .perform .poll fun _ =>
          .perform (.setState .user1) fun _ => .done .failed
    | _ => none

/-- It stops all the same. -/
theorem poll_resolves_contrary :
    contrary.arrivals = [] ∧ contrary.word.isTransient = true ∧
      ∃ d', poll (Program.run (perform 3)) contrary = (.returned false, d') ∧ d'.word = .stop := by
  obtain ⟨-, hresolves⟩ := poll_resolves 3 (d := contrary) rfl
  rcases hcall : call (Program.run (perform 3)) (contrary.slots .reload) contrary.entrusted with
    ⟨e, left⟩
  obtain rfl : e = .returned .failed := by
    have hfst : (call (Program.run (perform 3)) (contrary.slots .reload) contrary.entrusted).1 =
        .returned .failed := by
      decide +kernel
    rwa [hcall] at hfst
  obtain ⟨-, said, -, hpoll⟩ := hresolves rfl _ _ hcall
  exact ⟨rfl, rfl, _, hpoll, rfl⟩

/-- Nothing that comes in meanwhile keeps a daemon going whose hook has failed. -/
theorem poll_of_failed {looked taken : Daemon σ} (hlook : Act.load d = (.returned r, looked))
    (hr : r.isTransient = true) (htake : Act.take r looked = (.returned true, taken))
    (hfailed : invoke run (.handling r) taken = (.returned .failed, left)) :
    ∃ d', poll run d = (.returned false, d') ∧ d'.word = .stop := by
  set gone : Daemon σ := (settleRequest r .failed left).2 with hgone
  have hstop : gone.arrive.word = .stop := word_arrive_of_stop rfl
  refine ⟨gone.arrive.note (.loaded gone.arrive.word), ?_, hstop⟩
  simp only [poll, bind_eq, pure_eq]
  rw [andThen_returned hlook, if_pos hr, dispatch_eq, andThen_assoc, andThen_returned htake,
    if_pos rfl, andThen_assoc, andThen_returned hfailed]
  have hsettle : settleRequest r .failed left = (.returned (), gone) := rfl
  have hload : Act.load gone = (.returned .stop, gone.arrive.note (.loaded gone.arrive.word)) := by
    rw [← hstop]
    rfl
  exact (andThen_returned hsettle).trans (andThen_returned hload)

end Daemon

end Overseer
