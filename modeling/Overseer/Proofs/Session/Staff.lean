import Mathlib.Data.List.Nodup
import Overseer.Proofs.Lifecycle.Plain
import Overseer.Proofs.Session.Steps

/-!
# The main loop with plain hooks

With plain hooks the main thread comes back from whatever it does with the daemon. From the start of
its workers until the loop has ended a session keeps its workers listed, its hooks bound and its PID
file, and tells of nothing that belongs to the end.
-/

namespace Overseer

/-- All hooks of the context are plain. The tick may do as it likes. -/
structure Context.IsPlain {σ : Type} (c : Context σ) : Prop where
  validate : ∀ config, (c.validate config).IsPlain
  hook : ∀ slot, (c.hook slot).IsPlain

/-- The hooks of the application are plain, however the last one is replaced. -/
lemma Application.isPlain_context (f : Site → Outcome × Site × Records) :
    Context.IsPlain { context with shutdown := .act f } where
  validate _ := Program.isPlain_act _
  hook slot := by cases slot <;> exact Program.isPlain_act _

/-- Whether the entry tells of the last hook, or that the PID file is given up. -/
def JournalEntry.isFinal : JournalEntry → Bool
  | .daemon e => e.isClosing
  | .unguarded _ => true
  | _ => false

/-- The workers of the main loop, by name. -/
def Plan.roster (p : Plan) : List String :=
  if p.config.isDaemon then ["app-context"] else ["app-context", "console"]

lemma Deque.overflows_of_pop {β : Type} {d rest : Deque β} {now : Moment} {e : End}
    {patience : Patience} (h : d.pop now e patience = (.overflow, rest)) :
    patience.overflows now = true := by
  unfold pop at h
  split at h
  · assumption
  · split at h
    · cases h
    · split at h <;> cases h

namespace Session

variable {p : Plan} {s s' s'' : Session} {α : Type} {ws : List Worker} {id : TaskId}
  {v : Verdict Unit}

/-! ### What the main loop keeps -/

/-- The session goes on with its workers, its hooks and its PID file as they are. -/
structure GoesOn (s s' : Session) : Prop where
  manager : s'.manager = s.manager
  slots : s'.daemon.slots = s.daemon.slots
  guard : s'.guard = s.guard
  told : ∃ es, s'.journal = s.journal ++ es ∧ ∀ e ∈ es, e.isFinal = false ∧ e.ending? = none

namespace GoesOn

/-- Whatever else changes, nothing is told. -/
lemma of_same (hmanager : s'.manager = s.manager) (hslots : s'.daemon.slots = s.daemon.slots)
    (hguard : s'.guard = s.guard) (hjournal : s'.journal = s.journal) : s.GoesOn s' := by
  refine ⟨hmanager, hslots, hguard, [], ?_, by simp⟩
  rw [hjournal, List.append_nil]

lemma refl (s : Session) : s.GoesOn s := of_same rfl rfl rfl rfl

lemma trans (h : s.GoesOn s') (h' : s'.GoesOn s'') : s.GoesOn s'' := by
  obtain ⟨es, hjournal, hes⟩ := h.told
  obtain ⟨es', hjournal', hes'⟩ := h'.told
  refine ⟨h'.manager.trans h.manager, h'.slots.trans h.slots, h'.guard.trans h.guard, es ++ es', ?_,
    List.forall_mem_append.mpr ⟨hes, hes'⟩⟩
  rw [hjournal', hjournal, List.append_assoc]

lemma endings (h : s.GoesOn s') : s'.endings = s.endings := by
  obtain ⟨es, hjournal, hes⟩ := h.told
  rw [endings_append hjournal, List.filterMap_eq_nil_iff.mpr fun e he => (hes e he).2,
    List.append_nil]

/-- What has not been told is still not told. -/
lemma quiet (h : s.GoesOn s') (hs : ∀ e ∈ s.journal, e.isFinal = false) :
    ∀ e ∈ s'.journal, e.isFinal = false := by
  obtain ⟨es, hjournal, hes⟩ := h.told
  rw [hjournal]
  exact List.forall_mem_append.mpr ⟨hs, fun e he => (hes e he).1⟩

end GoesOn

lemma goesOn_write (s : Session) {e : JournalEntry} (he : e.isFinal = false)
    (he' : e.ending? = none) : s.GoesOn (s.write e) :=
  ⟨rfl, rfl, rfl, [e], rfl, List.forall_mem_singleton.mpr ⟨he, he'⟩⟩

/-- Events of the daemon that do not tell of the last hook. -/
lemma goesOn_daemon {d : Daemon Site} (h : s.daemon.wiped.Passes d) :
    s.GoesOn { s with daemon := d.wiped, journal := s.journal ++ d.trace.map .daemon } := by
  obtain ⟨hslots, es, htrace, hes⟩ := h
  have htold : d.trace = es := htrace
  refine ⟨rfl, hslots, rfl, _, rfl, ?_⟩
  intro e he
  obtain ⟨e', he', rfl⟩ := List.mem_map.mp he
  rw [htold] at he'
  exact ⟨hes e' he', rfl⟩

/-- The main thread does something with a daemon whose hooks are plain. -/
lemma goesOn_onDaemon {x : Act Site α} (hx : x.ComesBack) (h : s.daemon.IsPlain) :
    ∃ a s', s.onDaemon x = (.returned a, s') ∧ s.GoesOn s' := by
  obtain ⟨a, d, hrun, hpasses⟩ := hx s.daemon.wiped h
  exact ⟨a, _, onDaemon_of_returned hrun, goesOn_daemon hpasses⟩

lemma goesOn_takeReports (s : Session) : s.GoesOn s.takeReports := by
  have hsaid (reports : List TickReport) (u : Session) :
      u.GoesOn (reports.foldl (fun s r => s.say .debug ("Application tick " ++ toString r.number ++
        " (next in " ++ toString r.interval.millis ++ " ms)")) u) := by
    induction reports generalizing u with
    | nil => exact .refl u
    | cons r reports ih => exact (goesOn_write u rfl rfl).trans (ih _)
  obtain ⟨hmanager, hslots, hguard, htold⟩ := hsaid (s.ticker.reports.drop s.heard) s
  exact ⟨hmanager, hslots, hguard, htold⟩

lemma comesBack_handle (c : Command) : (c.handle : Act Site Printed).ComesBack := by
  have hasked (r : State) : (discard (Act.request r) : Act Site Unit).ComesBack :=
    (Act.comesBack_request r).andThen fun _ => Act.comesBack_done ()
  cases c with
  | quit | reload =>
    unfold Command.handle
    simp only [Act.bind_eq, Act.pure_eq]
    refine (Act.comesBack_log _ _ _).andThen fun _ => ?_
    exact (hasked _).andThen fun _ => Act.comesBack_done _
  | version | help => exact Act.comesBack_done _

/-- The hooks are those of the context. -/
def IsBound (p : Plan) (s : Session) : Prop :=
  ∀ slot, s.daemon.slots slot = some (p.context.hook slot)

lemma IsBound.goesOn (h : s.IsBound p) (hs : s.GoesOn s') : s'.IsBound p := by
  intro slot
  rw [hs.slots]
  exact h slot

lemma IsBound.isPlain (h : s.IsBound p) (hp : p.context.IsPlain) : s.daemon.IsPlain := by
  intro slot hook hslot
  rw [h slot] at hslot
  cases hslot
  exact hp.hook slot

/-! ### Workers -/

/-- These are the workers of the main loop, and the journal tells how those have ended that have. -/
structure IsCrew (p : Plan) (s : Session) (ws : List Worker) : Prop where
  ids : ws.map Worker.id = List.range p.roster.length
  names : ws.map Worker.name = p.roster
  tally : ∀ id v, (id, v) ∈ s.endings ↔ ∃ w ∈ ws, w.id = id ∧ w.verdict? = some v

/-- The workers are listed, the hooks are bound, and the end is still to come. -/
structure IsManned (p : Plan) (s : Session) : Prop where
  bound : s.IsBound p
  quiet : ∀ e ∈ s.journal, e.isFinal = false
  crew : ∃ ws, s.manager = Manager.listing ws ∧ s.IsCrew p ws ∧ ∀ w ∈ ws, w.isJoined = false

lemma IsCrew.nodup (h : s.IsCrew p ws) : (ws.map Worker.id).Nodup := by
  rw [h.ids]
  exact List.nodup_range

lemma IsCrew.goesOn (h : s.IsCrew p ws) (hs : s.GoesOn s') : s'.IsCrew p ws := by
  refine ⟨h.ids, h.names, ?_⟩
  rw [hs.endings]
  exact h.tally

lemma IsManned.goesOn (h : s.IsManned p) (hs : s.GoesOn s') : s'.IsManned p := by
  obtain ⟨ws, hmanager, hcrew, hunjoined⟩ := h.crew
  exact ⟨h.bound.goesOn hs, hs.quiet h.quiet, ws, hs.manager.trans hmanager, hcrew.goesOn hs,
    hunjoined⟩

/-- What the workers did without ending. -/
lemma goesOn_absorb {m : Manager} (h : { m with history := [] } = s.manager)
    (hm : m.history.filterMap ManagerEvent.ending? = []) : s.GoesOn (s.absorb m) := by
  refine ⟨h, rfl, rfl, _, rfl, ?_⟩
  intro e he
  obtain ⟨e', he', rfl⟩ := List.mem_map.mp he
  exact ⟨rfl, List.filterMap_eq_nil_iff.mp hm e' (List.mem_reverse.mp he')⟩

lemma endings_absorb (s : Session) (m : Manager) : (s.absorb m).endings =
    s.endings ++ (m.history.filterMap ManagerEvent.ending?).reverse := by
  refine (endings_append rfl).trans ?_
  rw [endings_workers, List.filterMap_reverse]

/-- The worker with a number, once its body has ended. -/
def withEnded (id : TaskId) (v : Verdict Unit) (w : Worker) : Worker :=
  if w.id = id then { w with phase := .ended v } else w

lemma withEnded_eq (id : TaskId) (v : Verdict Unit) (w : Worker) :
    (withEnded id v w).id = w.id ∧ (withEnded id v w).name = w.name ∧
      (w.isJoined = false → (withEnded id v w).isJoined = false) := by
  unfold withEnded
  split
  · exact ⟨rfl, rfl, fun _ => rfl⟩
  · exact ⟨rfl, rfl, fun h => h⟩

/-- One of the workers ends that still ran. -/
lemma IsCrew.withEnded (h : s.IsCrew p ws) {w : Worker} (hw : w ∈ ws) (hid : w.id = id)
    (hrunning : w.phase = .running) (hs : s'.endings = s.endings ++ [(id, v)]) :
    s'.IsCrew p (ws.map (Session.withEnded id v)) where
  ids := by
    rw [← h.ids, List.map_map]
    exact List.map_congr_left fun u _ => (withEnded_eq id v u).1
  names := by
    rw [← h.names, List.map_map]
    exact List.map_congr_left fun u _ => (withEnded_eq id v u).2.1
  tally := by
    intro i x
    rw [hs, List.mem_append, List.mem_singleton, h.tally]
    constructor
    · rintro (⟨u, hu, hi, hx⟩ | hnew)
      · have hother : u.id ≠ id := by
          intro heq
          obtain rfl := List.inj_on_of_nodup_map h.nodup hu hw (heq.trans hid.symm)
          rw [Worker.verdict?, hrunning] at hx
          cases hx
        exact ⟨u, List.mem_map.mpr ⟨u, hu, if_neg hother⟩, hi, hx⟩
      · cases hnew
        exact ⟨{ w with phase := .ended v }, List.mem_map.mpr ⟨w, hw, if_pos hid⟩, hid, rfl⟩
    · rintro ⟨u', hu', hi, hx⟩
      obtain ⟨u, hu, rfl⟩ := List.mem_map.mp hu'
      by_cases hother : u.id = id
      · rw [Session.withEnded, if_pos hother] at hi hx
        right
        cases hx
        rw [← hi, ← hother]
      · rw [Session.withEnded, if_neg hother] at hi hx
        exact .inl ⟨u, hu, hi, hx⟩

/-- A body ends, and the journal tells of it. -/
lemma IsManned.endWorker (h : s.IsManned p) (id : TaskId) (v : Verdict Unit) :
    (s.endWorker id v).IsManned p := by
  obtain ⟨ws, hmanager, hcrew, hunjoined⟩ := h.crew
  rcases s.manager.attempt_finish id v with hsame | ⟨w, hw, hrunning, hends⟩
  · refine h.goesOn ?_
    rw [Session.endWorker, hsame]
    refine goesOn_absorb ?_ ?_
    · rw [hmanager]
      rfl
    · rw [hmanager]
      rfl
  · have hjournal : (s.endWorker id v).journal = s.journal ++ [.workers (.workerEnded id v)] := by
      rw [Session.endWorker, hends, hmanager]
      rfl
    have hendings : (s.endWorker id v).endings = s.endings ++ [(id, v)] :=
      endings_append hjournal
    have hmem : w ∈ ws := by
      rw [hmanager] at hw
      exact List.mem_of_find?_eq_some hw
    refine ⟨h.bound, ?_, ws.map (withEnded id v), ?_,
      hcrew.withEnded hmem (Manager.worker?_id hw) hrunning hendings, ?_⟩
    · rw [hjournal]
      exact List.forall_mem_append.mpr ⟨h.quiet, List.forall_mem_singleton.mpr rfl⟩
    · have hids : Worker.id ∘ withEnded id v = Worker.id :=
        funext fun u => (withEnded_eq id v u).1
      rw [Session.endWorker, hends, hmanager, Manager.listing, Manager.listing, List.length_map,
        List.map_map, hids]
      rfl
    · intro u' hu'
      obtain ⟨u, hu, rfl⟩ := List.mem_map.mp hu'
      exact (withEnded_eq id v u).2.2 (hunjoined u hu)

/-! ### Beside the main thread -/

/-- The session goes on beside the main thread, and a daemon that has stopped stays so. -/
structure GoesOnBeside (s s' : Session) : Prop extends s.GoesOn s' where
  standing : s'.standing = s.standing
  stopped : s.daemon.word = .stop → s'.daemon.word = .stop

lemma goesOnBeside_onTicker (s : Session) (f : Ticker Site → Ticker Site) :
    ∃ t, s.GoesOnBeside t ∧ (s.onTicker f = t ∨ ∃ id v, s.onTicker f = t.endWorker id v) := by
  simp only [onTicker]
  split
  · refine ⟨s.withTicker (f { s.ticker with app := s.daemon.app }),
      ⟨.of_same rfl rfl rfl rfl, rfl, fun h => h⟩, ?_⟩
    split
    · exact .inr ⟨tickTask, _, rfl⟩
    · exact .inl rfl
  · exact ⟨s, ⟨.refl s, rfl, fun h => h⟩, .inl rfl⟩

/-- What happens beside the main thread ends at most one worker. -/
lemma happen_eq (p : Plan) (s : Session) (h : Happening) :
    ∃ t, s.GoesOnBeside t ∧ (s.happen p h = t ∨ ∃ id v, s.happen p h = t.endWorker id v) := by
  have hsame : s.GoesOnBeside s := ⟨.refl s, rfl, fun h => h⟩
  have hconsole (pending : Bytes) (console : ConsoleAt) (commands : Deque Command) :
      s.GoesOnBeside
        { s with pending := pending, console := console, commands := commands } :=
    ⟨.of_same rfl rfl rfl rfl, rfl, fun h => h⟩
  cases h with
  | read c =>
    simp only [happen, hear]
    split
    · split
      · exact ⟨_, hconsole _ _ s.commands, .inl rfl⟩
      · exact ⟨s, hsame, .inl rfl⟩
    · exact ⟨s, hsame, .inl rfl⟩
  | queue =>
    simp only [happen, queue]
    split
    · split
      · exact ⟨s, hsame, .inl rfl⟩
      · exact ⟨_, hconsole s.pending _ _, .inl rfl⟩
      · exact ⟨_, hconsole s.pending _ s.commands, .inl rfl⟩
      · exact ⟨s, hsame, .inr ⟨consoleTask, .value (), rfl⟩⟩
    · exact ⟨s, hsame, .inl rfl⟩
  | work now =>
    obtain ⟨t, ⟨⟨hmanager, hslots, hguard, htold⟩, hstanding, hstopped⟩, ht⟩ :=
      goesOnBeside_onTicker { s with clock := now } (·.work p.context.tick now)
    exact ⟨t, ⟨⟨hmanager, hslots, hguard, htold⟩, hstanding, hstopped⟩, ht⟩
  | elapse => exact goesOnBeside_onTicker s _
  | crash id payload => exact ⟨s, hsame, .inr ⟨id, .panicked payload, rfl⟩⟩
  | signal sig =>
    have hheard : s.onDaemon (Act.modify (·.hear sig)) = (.returned (),
        { s with
          daemon := (s.daemon.wiped.hear sig).wiped
          journal := s.journal ++ (s.daemon.wiped.hear sig).trace.map .daemon }) :=
      onDaemon_of_returned rfl
    refine ⟨_, ⟨goesOn_daemon (s.daemon.wiped.passes_hear sig), rfl, ?_⟩,
      .inl (by rw [happen, hheard])⟩
    intro hstop
    exact Daemon.word_receive_of_stop (d := s.daemon.wiped) hstop (.signal sig)
  | change t =>
    exact ⟨s.withHost { s.host with tree := t },
      ⟨.of_same rfl rfl rfl rfl, rfl, fun h => h⟩, .inl rfl⟩

/-- Nothing that happens beside the main thread takes the session out of the loop. -/
lemma IsManned.happen (hs : s.IsManned p) (h : Happening) :
    (s.happen p h).IsManned p ∧ (s.happen p h).guard = s.guard ∧
      (s.happen p h).standing = s.standing := by
  obtain ⟨t, ⟨hgoes, hstanding, -⟩, ht | ⟨id, v, ht⟩⟩ := happen_eq p s h
  · rw [ht]
    exact ⟨hs.goesOn hgoes, hgoes.guard, hstanding⟩
  · rw [ht]
    exact ⟨(hs.goesOn hgoes).endWorker id v, hgoes.guard, hstanding⟩

/-! ### The main thread in its loop -/

/-- The main thread is to wait for a command, and the clock is at its end. -/
def IsOverdue (s : Session) : Prop := s.standing = .fetching ∧ s.clock.after? patience = none

/-- The main thread goes on in its loop or leaves it to stop the workers. It panics if it is to wait
until a moment that the clock cannot show. -/
lemma IsManned.step (hs : s.IsManned p) (hp : p.context.IsPlain)
    (hloop : s.standing.isLooping = true) :
    (s.GoesOn (s.step p) ∧
      ((s.step p).standing.isLooping = true ∨ (s.step p).standing = .stopping)) ∨
    (s.IsOverdue ∧ (s.step p).standing = .ended (.panicked Moment.overflow)) := by
  have hplain := hs.bound.isPlain hp
  have hstand (u : Session) (standing : MainAt) : u.GoesOn { u with standing := standing } :=
    .of_same rfl rfl rfl rfl
  cases hstanding : s.standing with
  | starting | stopping | closing | ended =>
    rw [hstanding] at hloop
    cases hloop
  | polling =>
    obtain ⟨goesOn, s', heq, hgoes⟩ := goesOn_onDaemon (s := s)
      (Daemon.comesBack_poll (Daemon.perform p.depth)) hplain
    have hstep : s.step p = { s' with standing := if goesOn then .fetching else .stopping } := by
      rw [step_polling hstanding]
      exact congrArg (andThen p · _) heq
    rw [hstep]
    refine .inl ⟨hgoes.trans (hstand _ _), ?_⟩
    cases goesOn with
    | true => exact .inl rfl
    | false => exact .inr rfl
  | fetching =>
    rw [Session.step, hstanding]
    generalize hpop : s.commands.pop s.clock .front (.upTo patience) = fetched
    obtain ⟨popped, rest⟩ := fetched
    cases popped with
    | got c =>
      exact .inl ⟨.of_same rfl rfl rfl rfl, .inl rfl⟩
    | overflow =>
      have hnone := Deque.overflows_of_pop hpop
      exact .inr ⟨⟨hstanding, Option.isNone_iff_eq_none.mp hnone⟩, rfl⟩
    | nothing | blocks => exact .inl ⟨hstand _ _, .inl rfl⟩
  | handling c =>
    obtain ⟨printed, s', heq, hgoes⟩ := goesOn_onDaemon (s := s) (comesBack_handle c) hplain
    rw [step_handling hstanding, heq]
    refine .inl ⟨hgoes.trans ?_, .inl rfl⟩
    exact (goesOn_write s' (e := .printed printed) rfl rfl).trans (hstand _ _)
  | reporting =>
    rw [step_reporting hstanding]
    exact .inl ⟨(goesOn_takeReports s).trans (hstand _ _), .inl rfl⟩

/-! ### The start -/

/-- Nothing has begun. -/
structure IsFresh (s : Session) : Prop where
  manager : s.manager = Manager.listing []
  quiet : ∀ e ∈ s.journal, e.isFinal = false
  endings : s.endings = []

lemma IsFresh.goesOn (h : s.IsFresh) (hs : s.GoesOn s') : s'.IsFresh :=
  ⟨hs.manager.trans h.manager, hs.quiet h.quiet, hs.endings.trans h.endings⟩

/-- The session is over, or the main loop is to begin. -/
def IsSettled (p : Plan) (s : Session) : Prop :=
  (∃ exit, s.standing = .ended exit) ∨ (s.IsManned p ∧ s.standing = .polling)

lemma isSettled_finish (p : Plan) (s : Session) (exit : Exit) : (s.finish p exit).IsSettled p :=
  .inl ⟨exit, rfl⟩

/-- One more worker is listed. -/
lemma startWorker_listing (p : Plan) (name : String) (f : Session → Session)
    (hmanager : s.manager = Manager.listing ws) (hids : ws.map Worker.id = List.range ws.length)
    (hname : nameFault? name = none) :
    ∃ t, startWorker p s name f = f t ∧ t.daemon = s.daemon ∧
      t.manager = Manager.listing (ws ++ [{ id := ws.length, name := name }]) ∧
      t.endings = s.endings ∧
      ((∀ e ∈ s.journal, e.isFinal = false) → ∀ e ∈ t.journal, e.isFinal = false) := by
  obtain ⟨es, hperform, hes⟩ := Manager.perform_start_listing name hname hids
    fun id => [.finish id (s.lastWords p id)]
  rw [← hmanager] at hperform
  have hstarted : (s.managed p (.start name none)).started? = some (.ok ws.length) := by
    rw [managed, hperform]
    rfl
  refine ⟨_, startWorker_of_ok hperform hstarted, rfl, rfl, ?_, ?_⟩
  · refine (endings_append rfl).trans ?_
    rw [endings_workers, List.filterMap_reverse, List.filterMap_cons_none rfl, hes]
    exact List.append_nil _
  · intro hquiet
    refine List.forall_mem_append.mpr ⟨hquiet, fun e he => ?_⟩
    obtain ⟨_, -, rfl⟩ := List.mem_map.mp he
    rfl

/-- Nobody has ended yet. -/
lemma isCrew_of_running (hids : ws.map Worker.id = List.range p.roster.length)
    (hnames : ws.map Worker.name = p.roster) (hendings : s.endings = [])
    (hrunning : ∀ w ∈ ws, w.phase = .running) : s.IsCrew p ws := by
  refine ⟨hids, hnames, fun id v => ?_⟩
  rw [hendings]
  constructor
  · intro hended
    cases hended
  · rintro ⟨w, hw, -, hverdict⟩
    rw [Worker.verdict?, hrunning w hw] at hverdict
    cases hverdict

lemma isSettled_startWorkers (hs : s.IsFresh) (hbound : s.IsBound p) :
    (s.startWorkers p).IsSettled p := by
  obtain ⟨t, hstart, hdaemon, hmanager, hendings, hquiet⟩ := startWorker_listing p "app-context"
    (fun s => if p.config.isDaemon then { s with standing := .polling }
      else startWorker p s "console" fun s =>
        { s.print { output := "Press the h key to display the Console Menu...\n" } with
          standing := .polling }) hs.manager rfl rfl
  have hstarted : s.startWorkers p = _ := hstart
  rw [hstarted]
  right
  cases hforeground : p.config.isDaemon with
  | true =>
    have hroster : p.roster = ["app-context"] := by rw [Plan.roster, hforeground, if_pos rfl]
    rw [if_pos rfl]
    refine ⟨⟨fun slot => by rw [hdaemon]; exact hbound slot, hquiet hs.quiet, _, hmanager, ?_, ?_⟩,
      rfl⟩
    · refine isCrew_of_running ?_ ?_ (hendings.trans hs.endings) ?_
      · rw [hroster]
        rfl
      · rw [hroster]
        rfl
      · simp
    · simp [Worker.isJoined]
  | false =>
    have hroster : p.roster = ["app-context", "console"] := by
      rw [Plan.roster, hforeground, if_neg Bool.false_ne_true]
    rw [if_neg Bool.false_ne_true]
    obtain ⟨u, hstart', hdaemon', hmanager', hendings', hquiet'⟩ := startWorker_listing p "console"
      (fun s => { s.print { output := "Press the h key to display the Console Menu...\n" } with
          standing := .polling }) hmanager rfl rfl
    rw [hstart']
    have hprinted := goesOn_write u
      (e := .printed { output := "Press the h key to display the Console Menu...\n" }) rfl rfl
    refine ⟨⟨fun slot => by rw [← hbound slot, ← hdaemon, ← hdaemon']; rfl,
      hprinted.quiet (hquiet' (hquiet hs.quiet)), _, hmanager', ?_, ?_⟩, rfl⟩
    · refine isCrew_of_running ?_ ?_ ?_ ?_
      · rw [hroster]
        rfl
      · rw [hroster]
        rfl
      · exact hprinted.endings.trans (hendings'.trans (hendings.trans hs.endings))
      · simp
    · simp [Worker.isJoined]

lemma goesOn_settleIn (pid : Nat) (t : Background.Takeover) (s : Session) :
    s.GoesOn (s.settleIn pid t) := by
  refine ⟨rfl, rfl, rfl, .said Background.leaving :: .forked :: t.said.map .said, ?_, ?_⟩
  · simp [settleIn, write, withHost]
  · simp [JournalEntry.isFinal, JournalEntry.ending?]

lemma isSettled_detach (hs : s.IsFresh) (hbound : s.IsBound p) : (s.detach p).IsSettled p := by
  cases hdaemon : p.config.isDaemon with
  | false =>
    rw [detach, hdaemon, if_neg Bool.false_ne_true]
    exact isSettled_startWorkers hs hbound
  | true =>
    cases hpath : Background.guardPath p.config.pidFile s.host with
    | error f =>
      simp only [detach, hdaemon, hpath]
      exact isSettled_finish ..
    | ok path =>
      rw [detach_eq hdaemon hpath]
      have hgoes := goesOn_settleIn p.childPid (Background.takeOver path p.childPid s.host) s
      split
      · exact isSettled_finish ..
      · obtain ⟨hmanager, hquiet, hendings⟩ := hs.goesOn hgoes
        have hbound' := hbound.goesOn hgoes
        exact isSettled_startWorkers ⟨hmanager, hquiet, hendings⟩ fun slot => hbound' slot

lemma isSettled_startBound (hs : s.IsFresh) (hbound : s.IsBound p) (hp : p.context.IsPlain) :
    (s.startBound p).IsSettled p := by
  obtain ⟨valid, t, hvalidate, hgoes⟩ := goesOn_onDaemon (s := s)
    (Program.comesBack_run (hp.validate p.config) (Daemon.perform p.depth)) (hbound.isPlain hp)
  have hrun : s.onDaemon (run p (p.context.validate p.config)) = (.returned valid, t) := hvalidate
  rw [startBound, hrun]
  simp only [andThen]
  split
  · exact isSettled_finish ..
  · obtain ⟨started, u, hstart, hgoes'⟩ := goesOn_onDaemon (s := t)
      (Daemon.comesBack_startAll (Daemon.perform p.depth))
      ((hbound.goesOn hgoes).isPlain hp)
    have hrun' : t.onDaemon (Daemon.startAll (run p)) = (.returned started, u) := hstart
    rw [hrun']
    simp only
    split
    · exact isSettled_finish ..
    · exact isSettled_detach ((hs.goesOn hgoes).goesOn hgoes')
        ((hbound.goesOn hgoes).goesOn hgoes')

end Session

lemma Daemon.install_passes {σ : Type} (d : Daemon σ) :
    ∃ d', install d = (.returned (), d') ∧ d.Passes d' := by
  cases hd : d.installed with
  | false => exact ⟨_, install_of_deaf hd, rfl, _, rfl, List.forall_mem_singleton.mpr rfl⟩
  | true =>
    refine ⟨d, ?_, .refl d⟩
    simp only [install, Act.bind_eq, Act.andThen, Act.get, hd]
    rfl

namespace Session

variable {p : Plan} {s : Session}

/-- A session that has begun is over, or in its main loop with all workers at work. -/
lemma isSettled_start (hs : s.IsFresh) (hp : p.context.IsPlain) : (s.start p).IsSettled p := by
  have hsaid : s.GoesOn (s.say .info ("Starting taskctl v" ++ version)) := goesOn_write s rfl rfl
  set t := s.say .info ("Starting taskctl v" ++ version) with ht
  obtain ⟨d, hinstall, hpasses⟩ := Daemon.install_passes t.daemon.wiped
  have hinstalled := goesOn_daemon hpasses
  set u : Session := { t with daemon := d.wiped, journal := t.journal ++ d.trace.map .daemon }
  have hbind := onDaemon_of_returned (s := u) (Daemon.perform_bindAll p.context.hook u.daemon.wiped)
  have hstart : s.start p = startBound p (u.onDaemon
      (Daemon.perform 1 (.bindAll p.context.hook))).2 := by
    simp only [start, ← ht, onDaemon_of_returned hinstall, andThen, hbind]
    rfl
  have hfresh := (hs.goesOn hsaid).goesOn hinstalled
  rw [hstart, hbind]
  refine isSettled_startBound ⟨hfresh.manager, ?_, ?_⟩ (fun _ => rfl) hp
  · refine List.forall_mem_append.mpr ⟨hfresh.quiet, ?_⟩
    simp [Daemon.wiped, JournalEntry.isFinal, Event.isClosing]
  · refine (endings_append (s := u) rfl).trans ?_
    rw [hfresh.endings, endings_daemon, List.append_nil]

end Session

end Overseer
