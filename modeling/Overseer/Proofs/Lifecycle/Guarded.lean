import Overseer.Lifecycle.Guarded
import Overseer.Proofs.Lifecycle.Polls

/-!
# The lock is in nobody's way

A daemon whose lock is free does what the daemon without a lock does: no operation waits for ever,
the lock is free again at the end, and it is free whenever a hook starts.
-/

namespace Overseer

variable {σ α β : Type}

/-! ### Runs that look no hook up -/

namespace Daemon

open Act

/-- No hook was looked up. -/
def Silent (d d' : Daemon σ) : Prop :=
  ∃ es, d'.trace = d.trace ++ es ∧ ∀ e ∈ es, e.isInvoked = false

variable {d d' d'' : Daemon σ}

namespace Silent

lemma of_trace_eq (h : d'.trace = d.trace) : d.Silent d' :=
  ⟨[], by rw [h, List.append_nil], by simp⟩

lemma refl (d : Daemon σ) : d.Silent d := of_trace_eq rfl

lemma of_event {e : Event σ} (htrace : d'.trace = d.trace ++ [e]) (he : e.isInvoked = false) :
    d.Silent d' :=
  ⟨[e], htrace, List.forall_mem_singleton.mpr he⟩

lemma trans (h : d.Silent d') (h' : d'.Silent d'') : d.Silent d'' := by
  obtain ⟨es, htrace, hes⟩ := h
  obtain ⟨es', htrace', hes'⟩ := h'
  exact ⟨es ++ es', by rw [htrace', htrace, List.append_assoc],
    List.forall_mem_append.mpr ⟨hes, hes'⟩⟩

end Silent

lemma silent_ask (d : Daemon σ) (s : State) : d.Silent (d.ask s) := by
  unfold ask
  split <;> exact .of_event rfl rfl

lemma silent_arrive (d : Daemon σ) : d.Silent d.arrive :=
  keeps_arrive Silent.refl Silent.trans silent_ask (fun _ _ => .of_trace_eq rfl) d

lemma isInvoked_of_isAside {e : Event σ} (he : e.isAside = true) : e.isInvoked = false := by
  cases e with
  | invoked => cases he
  | _ => rfl

/-- Accesses to the word and to the slots look no hook up. -/
lemma manner_silent : Manner (fun _ => True) (Silent (σ := σ)) where
  refl := Silent.refl
  trans := Silent.trans
  arrive := silent_arrive
  ask := silent_ask
  aside _ _ he := .of_event rfl (isInvoked_of_isAside he)
  put _ _ := .of_event rfl rfl
  bind _ _ _ _ := .of_event rfl rfl
  bindAll _ _ _ := .of_event rfl rfl
  clear _ := .of_event rfl rfl
  listen _ := .of_trace_eq rfl
  touch d app rs _ := by
    refine ⟨rs.map .logged, rfl, fun e he => ?_⟩
    obtain ⟨r, -, rfl⟩ := List.mem_map.mp he
    rfl

lemma silent_store (writer : Option Transition) (s : State) :
    (Act.store writer s : Act σ Unit).Keeps Silent :=
  fun d => (silent_arrive d).trans (.of_event rfl rfl)

lemma silent_take (r : State) : (Act.take r : Act σ Bool).Keeps Silent := by
  intro d
  refine (silent_arrive d).trans ?_
  simp only [Act.take]
  split <;> exact .of_event rfl rfl

lemma silent_note {e : Event σ} (he : e.isInvoked = false) : (Act.note e).Keeps Silent :=
  fun _ => .of_event rfl he

end Daemon

/-! ### Runs with and without the lock -/

/-- The transition whose hook is started. -/
def Event.started? : Event σ → Option Transition
  | .invoked t (some _) _ => some t
  | _ => none

lemma Event.started?_of_not_isInvoked {e : Event σ} (he : e.isInvoked = false) :
    e.started? = none := by
  cases e with
  | invoked => cases he
  | _ => rfl

/-- The guarded daemon becomes this one: its lock is free, and was so at each start of a hook that
these events tell of. -/
def Guarded.become (g : Guarded σ) (d : Daemon σ) (es : List (Event σ)) : Guarded σ :=
  { daemon := d, isHeld := false,
    started := g.started ++ (es.filterMap Event.started?).map (·, false) }

/-- With the lock free at first, the run ends as the one without a lock does, and so it is left. -/
def Hold.Mirrors (x : Hold σ α) (y : Act σ α) : Prop :=
  ∀ g : Guarded σ, g.isHeld = false → ∃ es, (y g.daemon).2.trace = g.daemon.trace ++ es ∧
    x g = (some (y g.daemon).1, g.become (y g.daemon).2 es)

namespace Hold

variable {x : Hold σ α} {y : Act σ α}

lemma Mirrors.andThen {f : α → Hold σ β} {f' : α → Act σ β} (hx : x.Mirrors y)
    (hf : ∀ a, (f a).Mirrors (f' a)) : (x.andThen f).Mirrors (y.andThen f') := by
  intro g hg
  obtain ⟨es, htrace, hrun⟩ := hx g hg
  rcases hy : y g.daemon with ⟨a | m | _, d⟩ <;> rw [hy] at htrace hrun
  · obtain ⟨es', htrace', hrun'⟩ := hf a (g.become d es) rfl
    refine ⟨es ++ es', ?_, ?_⟩
    · rw [Act.andThen_returned hy]
      exact htrace'.trans (by rw [Guarded.become, htrace, List.append_assoc])
    · rw [Act.andThen_returned hy, Hold.andThen, hrun]
      refine hrun'.trans ?_
      simp only [Guarded.become, List.filterMap_append, List.map_append, List.append_assoc]
  · exact ⟨es, by rwa [Act.andThen_panicked hy],
      by rw [Act.andThen_panicked hy, Hold.andThen, hrun]⟩
  · exact ⟨es, by rwa [Act.andThen_unfinished hy],
      by rw [Act.andThen_unfinished hy, Hold.andThen, hrun]⟩

lemma Mirrors.attempt {x : Hold σ Answer} {y : Act σ Answer} (hx : x.Mirrors y) :
    x.attempt.Mirrors y.attempt := by
  intro g hg
  obtain ⟨es, htrace, hrun⟩ := hx g hg
  refine ⟨es, ?_, ?_⟩
  · rcases hy : y g.daemon with ⟨a | m | _, d⟩ <;> rw [hy] at htrace <;>
      simpa only [Act.attempt, hy] using htrace
  · rcases hy : y g.daemon with ⟨a | m | _, d⟩ <;> rw [hy] at hrun <;>
      simp only [Act.attempt, Hold.attempt, hy, hrun]

/-- What looks no hook up has nothing to fear from the lock. -/
lemma mirrors_lift (hy : y.Keeps Daemon.Silent) : (lift y).Mirrors y := by
  intro g hg
  obtain ⟨es, htrace, hes⟩ := hy g.daemon
  have hstarted : es.filterMap Event.started? = [] :=
    List.filterMap_eq_nil_iff.mpr fun e he => Event.started?_of_not_isInvoked (hes e he)
  refine ⟨es, htrace, ?_⟩
  rw [Guarded.become, hstarted, List.map_nil, List.append_nil, ← hg]
  rfl

/-- A lock that is free is held for the run and given back. -/
lemma locked_lift_eq (y : Act σ α) {g : Guarded σ} (hg : g.isHeld = false) :
    locked (lift y) g = lift y g := by
  obtain ⟨d, held, started⟩ := g
  cases hg
  rfl

lemma mirrors_locked (hy : y.Keeps Daemon.Silent) : (locked (lift y)).Mirrors y := by
  intro g hg
  rw [locked_lift_eq y hg]
  exact mirrors_lift hy g hg

lemma mirrors_done (a : α) : (lift (.done a) : Hold σ α).Mirrors (.done a) :=
  mirrors_lift Daemon.Silent.refl

end Hold

namespace Guarded

open Hold Daemon

variable {run : Program σ → Hold σ Outcome} {run' : Program σ → Act σ Outcome}

/-! ### Transitions -/

/-- The lock is given back before the hook runs. -/
lemma invoke_eq (run : Program σ → Hold σ Outcome) (t : Transition) {g : Guarded σ}
    (hg : g.isHeld = false) :
    invoke run t g =
      ((call run t (g.daemon.slots t.slot)).andThen fun o =>
          (lift (Act.note (.returned t o))).andThen fun _ => lift (.done o))
        { g with daemon :=
          g.daemon.note (.invoked t (g.daemon.slots t.slot) g.daemon.word) } := by
  show (locked (lift (lookUp t))).andThen _ g = _
  rw [Hold.andThen, locked_lift_eq _ hg]
  rfl

section

variable (hrun : ∀ p, (run p).Mirrors (run' p))
include hrun

lemma mirrors_invoke (t : Transition) : (invoke run t).Mirrors (Daemon.invoke run' t) := by
  intro g hg
  have hrest (p : Program σ) : ((run p).andThen fun o =>
      (lift (Act.note (.returned t o))).andThen fun _ => lift (.done o)).Mirrors
        ((run' p).andThen fun o => (Act.note (.returned t o)).andThen fun _ => .done o) :=
    (hrun p).andThen fun o => (mirrors_lift (silent_note rfl)).andThen fun _ => mirrors_done o
  rw [invoke_eq run t hg, Daemon.invoke_eq]
  cases hhook : g.daemon.slots t.slot with
  | none =>
    refine ⟨[.invoked t none g.daemon.word, .returned t .unset], List.append_assoc _ _ _, ?_⟩
    obtain ⟨d, held, started⟩ := g
    cases hg
    simp only [Guarded.become, List.filterMap_cons, Event.started?, List.filterMap_nil,
      List.map_nil, List.append_nil]
    rfl
  | some p =>
    -- the hook is started with the lock free, and all that follows is as without a lock
    set looked := g.daemon.note (.invoked t (some p) g.daemon.word) with hlooked
    obtain ⟨es, htrace, hran⟩ := hrest p
      { daemon := looked, isHeld := false, started := g.started ++ [(t, false)] } rfl
    refine ⟨.invoked t (some p) g.daemon.word :: es, ?_, ?_⟩
    · refine htrace.trans ?_
      rw [hlooked, note, List.append_assoc, List.singleton_append]
    · have hstart : ((call run t (some p)).andThen fun o =>
          (lift (Act.note (.returned t o))).andThen fun _ => lift (.done o))
            { g with daemon := looked } =
          ((run p).andThen fun o =>
            (lift (Act.note (.returned t o))).andThen fun _ => lift (.done o))
              { daemon := looked, isHeld := false, started := g.started ++ [(t, false)] } := by
        obtain ⟨d, held, started⟩ := g
        cases hg
        rfl
      rw [hstart]
      refine hran.trans ?_
      simp only [Guarded.become, List.filterMap_cons, Event.started?, List.map_cons,
        List.append_assoc, List.singleton_append]
      rfl

lemma mirrors_startAll : (startAll run).Mirrors (Daemon.startAll run') :=
  (mirrors_lift (silent_store _ _)).andThen fun _ =>
    (mirrors_invoke hrun .starting).andThen fun o =>
      (mirrors_lift (silent_note rfl)).andThen fun _ => mirrors_done o

lemma mirrors_closeAll : (closeAll run).Mirrors (Daemon.closeAll run') :=
  (mirrors_lift (silent_store _ _)).andThen fun _ =>
    (mirrors_invoke hrun .closing).andThen fun o =>
      (mirrors_lift (silent_note rfl)).andThen fun _ => mirrors_done o

lemma mirrors_dispatch (r : State) : (dispatch run r).Mirrors (Daemon.dispatch run' r) := by
  refine (mirrors_lift (silent_take r)).andThen fun b => ?_
  split
  · refine (mirrors_invoke hrun (.handling r)).andThen fun o => ?_
    split
    · exact (mirrors_lift (silent_store _ _)).andThen fun _ => mirrors_lift (silent_note rfl)
    · exact mirrors_lift (silent_note rfl)
  · exact mirrors_done ()

lemma mirrors_poll : (poll run).Mirrors (Daemon.poll run') := by
  have hload : (lift Act.load : Hold σ State).Mirrors Act.load := mirrors_lift manner_silent.load
  unfold poll Daemon.poll
  refine hload.andThen fun current => ?_
  split
  · exact (mirrors_dispatch hrun current).andThen fun _ => hload.andThen fun _ => mirrors_done _
  · exact hload.andThen fun _ => mirrors_done _

/-! ### Operations and programs -/

lemma mirrors_execute (op : Op σ) : (execute run op).Mirrors (Daemon.execute run' op) := by
  have haccess (op : Op σ) (hop : op.isAccess = true) :
      (Daemon.execute (fun _ => .giveUp) op).Keeps Daemon.Silent :=
    manner_silent.access op.says_true hop
  cases op with
  | startAll => exact (mirrors_startAll hrun).andThen fun _ => mirrors_done _
  | poll => exact (mirrors_poll hrun).andThen fun _ => mirrors_done _
  | closeAll => exact (mirrors_closeAll hrun).andThen fun _ => mirrors_done _
  | describe => exact mirrors_locked (haccess .describe rfl)
  | bind slot hook => exact mirrors_locked (haccess (.bind slot hook) rfl)
  | bindAll hooks => exact mirrors_locked (haccess (.bindAll hooks) rfl)
  | clearHooks => exact mirrors_locked (haccess .clearHooks rfl)
  | state => exact mirrors_lift (haccess .state rfl)
  | isRunning => exact mirrors_lift (haccess .isRunning rfl)
  | request s => exact mirrors_lift (haccess (.request s) rfl)
  | requestReload => exact mirrors_lift (haccess .requestReload rfl)
  | setState s => exact mirrors_lift (haccess (.setState s) rfl)
  | raise signal => exact mirrors_lift (haccess (.raise signal) rfl)
  | send signal pid => exact mirrors_lift (haccess (.send signal pid) rfl)
  | install => exact mirrors_lift (haccess .install rfl)

end

theorem mirrors_run {perform : Op σ → Hold σ Answer} {perform' : Op σ → Act σ Answer}
    (h : ∀ op, (perform op).Mirrors (perform' op)) (p : Program σ) :
    (p.runGuarded perform).Mirrors (p.run perform') := by
  cases p with
  | done o => exact mirrors_done o
  | panic m => exact mirrors_lift Silent.refl
  | perform op next =>
    rw [Program.runGuarded, Program.run]
    exact (h op).attempt.andThen fun a => mirrors_run h (next a)
  | touch change next =>
    intro g hg
    set app := (change g.daemon.app).1
    set said : List (Event σ) := (change g.daemon.app).2.map .logged with hsaid
    obtain ⟨es, htrace, hran⟩ := mirrors_run h (next g.daemon.app)
      { g with daemon := { g.daemon with app := app, trace := g.daemon.trace ++ said } } hg
    have hstarted : said.filterMap Event.started? = [] := by
      refine List.filterMap_eq_nil_iff.mpr fun e he => ?_
      obtain ⟨r, -, rfl⟩ := List.mem_map.mp he
      rfl
    refine ⟨said ++ es, htrace.trans (List.append_assoc _ _ _), hran.trans ?_⟩
    simp only [Guarded.become, List.filterMap_append, hstarted, List.nil_append]
    rfl

lemma mirrors_perform (depth : Nat) (op : Op σ) :
    (perform depth op).Mirrors (Daemon.perform depth op) := by
  induction depth generalizing op with
  | zero => exact mirrors_lift Silent.refl
  | succ n ih =>
    exact (mirrors_lift (silent_note rfl)).andThen fun _ =>
      (mirrors_execute (mirrors_run ih) op).andThen fun a =>
        (mirrors_lift (silent_note rfl)).andThen fun _ => mirrors_done a

end Guarded

end Overseer
