import Overseer.Proofs.Lifecycle.Runs

/-!
# Plain hooks

A plain hook changes the application's state and reports an outcome, and has nothing to do with the
daemon that runs it. With such hooks every operation comes back, whatever comes in meanwhile, and
the last hook runs when the daemon is closed and at no other time.
-/

namespace Overseer

variable {σ α β : Type}

/-- The program performs no operation and does not panic. -/
inductive Program.IsPlain : Program σ → Prop where
  | done (o : Outcome) : IsPlain (.done o)
  | touch (change : σ → σ × Records) (next : σ → Program σ) (h : ∀ a, IsPlain (next a)) :
      IsPlain (.touch change next)

lemma Program.isPlain_act (f : σ → Outcome × σ × Records) : (Program.act f).IsPlain :=
  .touch _ _ fun _ => .done _

/-- Whether the event tells of the last hook. -/
def Event.isClosing : Event σ → Bool
  | .invoked .closing _ _ | .returned .closing _ => true
  | _ => false

namespace Daemon

variable {d d' d'' : Daemon σ}

def IsPlain (d : Daemon σ) : Prop := ∀ slot hook, d.slots slot = some hook → hook.IsPlain

/-- The daemon keeps its hooks and tells nothing of the last one. -/
structure Passes (d d' : Daemon σ) : Prop where
  slots : d'.slots = d.slots
  told : ∃ es, d'.trace = d.trace ++ es ∧ ∀ e ∈ es, e.isClosing = false

namespace Passes

lemma refl (d : Daemon σ) : d.Passes d := ⟨rfl, [], (List.append_nil _).symm, by simp⟩

lemma trans (h : d.Passes d') (h' : d'.Passes d'') : d.Passes d'' := by
  obtain ⟨hslots, es, htrace, hes⟩ := h
  obtain ⟨hslots', es', htrace', hes'⟩ := h'
  refine ⟨hslots'.trans hslots, es ++ es', ?_, List.forall_mem_append.mpr ⟨hes, hes'⟩⟩
  rw [htrace', htrace, List.append_assoc]

lemma isPlain (h : d.Passes d') (hd : d.IsPlain) : d'.IsPlain := by
  intro slot hook hslot
  rw [h.slots] at hslot
  exact hd slot hook hslot

end Passes

/-- The word changes, and one event tells of it. -/
lemma passes_write (d : Daemon σ) (w : State) {e : Event σ} (he : e.isClosing = false) :
    d.Passes ({ d with word := w }.note e) :=
  ⟨rfl, [e], rfl, List.forall_mem_singleton.mpr he⟩

lemma passes_note (d : Daemon σ) {e : Event σ} (he : e.isClosing = false) : d.Passes (d.note e) :=
  passes_write d d.word he

/-! ### What comes in -/

lemma passes_ask (d : Daemon σ) (s : State) : d.Passes (d.ask s) := by
  unfold ask
  split
  · exact passes_note d rfl
  · exact passes_write d s rfl

lemma passes_hear (d : Daemon σ) (s : OsSignal) : d.Passes (d.hear s) := by
  unfold hear
  split
  · exact passes_ask d _
  · exact .refl d

lemma passes_receive (d : Daemon σ) (a : Arrival) : d.Passes (d.receive a) := by
  cases a with
  | request s => exact passes_ask d s
  | signal s => exact passes_hear d s

lemma passes_foldl_receive (d : Daemon σ) (as : List Arrival) :
    d.Passes (as.foldl receive d) := by
  induction as generalizing d with
  | nil => exact .refl d
  | cons a as ih => exact (passes_receive d a).trans (ih _)

lemma passes_arrive (d : Daemon σ) : d.Passes d.arrive := by
  unfold arrive
  split
  · exact .refl d
  · rename_i now later _
    obtain ⟨hslots, htold⟩ := passes_foldl_receive { d with arrivals := later } now
    exact ⟨hslots, htold⟩

end Daemon

/-! ### Runs that come back -/

namespace Act

open Daemon

/-- Begun on a daemon whose hooks are plain, the run comes back. -/
def ComesBack (x : Act σ α) : Prop :=
  ∀ d : Daemon σ, d.IsPlain → ∃ a d', x d = (.returned a, d') ∧ d.Passes d'

lemma comesBack_done (a : α) : (done a : Act σ α).ComesBack := fun d _ => ⟨a, d, rfl, .refl d⟩

lemma ComesBack.andThen {x : Act σ α} {f : α → Act σ β} (hx : x.ComesBack)
    (hf : ∀ a, (f a).ComesBack) : (x.andThen f).ComesBack := by
  intro d hd
  obtain ⟨a, d', hrun, hpasses⟩ := hx d hd
  obtain ⟨b, d'', hrun', hpasses'⟩ := hf a d' (hpasses.isPlain hd)
  exact ⟨b, d'', by rw [andThen_returned hrun, hrun'], hpasses.trans hpasses'⟩

lemma comesBack_note {e : Event σ} (he : e.isClosing = false) : (note e).ComesBack :=
  fun d _ => ⟨(), _, rfl, passes_note d he⟩

lemma comesBack_log (level : Level) (source : Source) (message : String) :
    (log level source message : Act σ Unit).ComesBack :=
  comesBack_note rfl

lemma comesBack_load : (load : Act σ State).ComesBack :=
  fun d _ => ⟨_, _, rfl, (passes_arrive d).trans (passes_note _ rfl)⟩

lemma comesBack_store (writer : Option Transition) (s : State) :
    (store writer s : Act σ Unit).ComesBack :=
  fun d _ => ⟨(), _, rfl, (passes_arrive d).trans (passes_write _ s rfl)⟩

lemma comesBack_request (s : State) : (request s : Act σ Bool).ComesBack :=
  fun d _ => ⟨_, _, rfl, (passes_arrive d).trans (passes_ask _ s)⟩

lemma comesBack_take (r : State) : (take r : Act σ Bool).ComesBack := by
  intro d _
  simp only [take]
  split
  · exact ⟨_, _, rfl, (passes_arrive d).trans (passes_write _ .running rfl)⟩
  · exact ⟨_, _, rfl, (passes_arrive d).trans (passes_note _ rfl)⟩

end Act

/-- A plain program reports an outcome and changes nothing of the daemon but the application's
state. -/
lemma Program.run_of_isPlain {p : Program σ} (h : p.IsPlain) (perform : Op σ → Act σ Answer)
    (d : Daemon σ) : ∃ (o : Outcome) (app : σ) (rs : Records), p.run perform d =
      (.returned o, { d with app := app, trace := d.trace ++ rs.map .logged }) := by
  induction h generalizing d with
  | done o => exact ⟨o, d.app, [], by rw [List.map_nil, List.append_nil]; rfl⟩
  | touch change next _ ih =>
    obtain ⟨o, app, rs, hrun⟩ := ih d.app
      { d with app := (change d.app).1, trace := d.trace ++ (change d.app).2.map .logged }
    refine ⟨o, app, (change d.app).2 ++ rs, ?_⟩
    rw [List.map_append, ← List.append_assoc]
    exact hrun

lemma Program.comesBack_run {p : Program σ} (h : p.IsPlain) (perform : Op σ → Act σ Answer) :
    (p.run perform).ComesBack := by
  intro d _
  obtain ⟨o, app, rs, hrun⟩ := run_of_isPlain h perform d
  refine ⟨o, _, hrun, rfl, rs.map .logged, rfl, ?_⟩
  intro e he
  obtain ⟨r, -, rfl⟩ := List.mem_map.mp he
  rfl

/-! ### Operations -/

namespace Daemon

open Act

variable {perform : Op σ → Act σ Answer}

lemma comesBack_call {hook : Option (Program σ)} (h : ∀ p, hook = some p → p.IsPlain) :
    (call (Program.run perform) hook).ComesBack := by
  cases hook with
  | none => exact comesBack_done _
  | some p => exact Program.comesBack_run (h p rfl) perform

lemma comesBack_invoke (t : Transition) (ht : t ≠ .closing) :
    (invoke (Program.run perform) t).ComesBack := by
  intro d hd
  have hinvoked : (Event.invoked t (d.slots t.slot) d.word).isClosing = false := by
    cases t with
    | closing => exact absurd rfl ht
    | starting | handling => rfl
  have hreturned (o : Outcome) : (Event.returned t o : Event σ).isClosing = false := by
    cases t with
    | closing => exact absurd rfl ht
    | starting | handling => rfl
  have hnoted := passes_note d hinvoked
  have hrest : ((call (Program.run perform) (d.slots t.slot)).andThen fun o =>
      (Act.note (.returned t o)).andThen fun _ => done o).ComesBack :=
    (comesBack_call (hd t.slot)).andThen fun o =>
      (comesBack_note (hreturned o)).andThen fun _ => comesBack_done o
  obtain ⟨o, d', hrun, hpasses⟩ := hrest _ (hnoted.isPlain hd)
  rw [invoke_eq]
  exact ⟨o, d', hrun, hnoted.trans hpasses⟩

lemma comesBack_settleRequest (r : State) (o : Outcome) :
    (settleRequest r o : Act σ Unit).ComesBack := by
  unfold settleRequest
  split
  · exact (comesBack_store _ _).andThen fun _ => comesBack_log _ _ _
  · exact comesBack_log _ _ _

lemma comesBack_dispatch (r : State) : (dispatch (Program.run perform) r).ComesBack := by
  rw [dispatch_eq]
  refine (comesBack_take r).andThen fun b => ?_
  split
  · exact (comesBack_invoke (.handling r) nofun).andThen (comesBack_settleRequest r)
  · exact comesBack_done ()

variable (perform) in
lemma comesBack_poll : (poll (Program.run perform)).ComesBack := by
  unfold poll
  simp only [bind_eq, pure_eq]
  refine comesBack_load.andThen fun current => ?_
  have hresolve : ((Act.load : Act σ State).andThen fun resolved =>
      done resolved.isAlive).ComesBack :=
    comesBack_load.andThen fun _ => comesBack_done _
  split
  · exact (comesBack_dispatch current).andThen fun _ => hresolve
  · exact hresolve

variable (perform) in
lemma comesBack_startAll : (startAll (Program.run perform)).ComesBack := by
  unfold startAll
  simp only [bind_eq, pure_eq]
  refine (comesBack_store _ _).andThen fun _ => ?_
  refine (comesBack_invoke .starting nofun).andThen fun o => ?_
  exact (comesBack_log _ _ _).andThen fun _ => comesBack_done o

variable (perform) in
/-- Closing stores the last state and runs the last hook, which finds the daemon stopped. -/
lemma closeAll_of_isPlain {d : Daemon σ} {hook : Program σ} (hslot : d.slots .close = some hook)
    (hhook : hook.IsPlain) :
    ∃ (o : Outcome) (d' : Daemon σ) (es : List (Event σ)) (rs : Records) (r : Record),
      closeAll (Program.run perform) d = (.returned o, d') ∧
      d'.slots = d.slots ∧ d'.word = .stop ∧
      d'.trace = d.trace ++ (es ++ (.stored (some .closing) .stop ::
        .invoked .closing (some hook) .stop :: (rs.map .logged ++
          [.returned .closing o, .logged r]))) ∧
      ∀ e ∈ es, e.isClosing = false := by
  obtain ⟨hslots, es, harrive, hes⟩ := passes_arrive d
  set u : Daemon σ := { d.arrive with word := .stop }.note (.stored (some .closing) .stop) with hu
  have hslot' : u.slots .close = some hook := by
    rw [← hslot]
    exact congrFun hslots .close
  obtain ⟨o, app, rs, hrun⟩ := Program.run_of_isPlain hhook perform
    (u.note (.invoked .closing (some hook) .stop))
  set r : Record := ⟨.info, .lifecycle, "Daemon closed (close hook: " ++ o.name ++ ")"⟩
  refine ⟨o, { d.arrive with
      word := .stop
      app := app
      trace := d.trace ++ (es ++ (.stored (some .closing) .stop ::
        .invoked .closing (some hook) .stop :: (rs.map .logged ++
          [.returned .closing o, .logged r]))) }, es, rs, r, ?_, hslots, rfl, rfl, hes⟩
  have hinvoke : invoke (Program.run perform) .closing u = (.returned o,
      ({ u with
        app := app
        trace := u.trace ++ [.invoked .closing (some hook) .stop] ++ rs.map .logged } :
          Daemon σ).note (.returned .closing o)) := by
    rw [invoke_eq, Transition.slot, hslot']
    exact andThen_returned hrun
  simp only [closeAll, bind_eq, pure_eq]
  refine (andThen_returned (show _ = (_, u) from rfl)).trans ?_
  refine (andThen_returned hinvoke).trans ?_
  simp only [hu, Act.log, Act.note, Act.modify, andThen, done, note, harrive, List.append_assoc,
    List.cons_append, List.nil_append]
  rfl

end Daemon

end Overseer
