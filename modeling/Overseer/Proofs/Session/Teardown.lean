import Overseer.Proofs.Session.Staff

/-!
# Taking a session down

When the main loop has ended, two steps of the main thread end the session. The first one stops all
workers and joins them. The second one closes the daemon, so that the last hook finds everybody gone
and the daemon stopped, and then gives up the PID file. The session reports that the daemon could
not be closed, or else the first worker that has panicked.
-/

namespace Overseer

/-- How a session ends whose last hook has come back. -/
def Exit.ofClosing (o : Outcome) (stopped : Except WorkerFailure Unit) : Exit :=
  if o.isFailed then .failure .notClosed
  else
    match stopped with
    | .error f => .failure (.workerFailed f)
    | .ok () => .success

namespace Session

variable {p : Plan} {s s' u : Session} {ws : List Worker} {o : Outcome} {exit : Exit}
  {before during after : List JournalEntry} {moves : List Session.Move}

/-- All workers have been stopped, and the last hook is still to run. -/
structure IsDisbanded (p : Plan) (s : Session) (ws : List Worker) : Prop where
  manager : s.manager = Manager.dismissing ws
  bound : s.IsBound p
  quiet : ∀ e ∈ s.journal, e.isFinal = false
  crew : s.IsCrew p ws
  joined : ∀ w ∈ ws, w.isJoined = true ∧ .workers (.joined 0 w.id) ∈ s.journal

/-- The session went on from its main loop at `u` and has been taken down. The journal is split at
the last hook, which came to `o`. -/
structure TornDown (p : Plan) (s u : Session) (exit : Exit)
    (before during after : List JournalEntry) (o : Outcome) : Prop where
  journal : s.journal = before ++ .daemon (.invoked .closing (some p.context.shutdown) .stop) ::
    (during ++ .daemon (.returned .closing o) :: after)
  /-- The last hook does not run another time. -/
  once : ∀ e, .daemon e ∈ before ++ (during ++ after) → e.isClosing = false
  /-- While the hook runs, nothing else is told. -/
  hook : ∀ e ∈ during, ∃ r, e = .daemon (.logged r)
  word : s.daemon.word = .stop
  manager : s.manager = { Manager.dismissing s.manager.workers with isAlive := false }
  ids : s.manager.workers.map Worker.id = List.range p.roster.length
  names : s.manager.workers.map Worker.name = p.roster
  /-- Every worker had ended and was joined before the hook ran. -/
  joined : ∀ w ∈ s.manager.workers, ∃ v, w.phase = .joined v ∧
    .workers (.workerEnded w.id v) ∈ before ∧ .workers (.joined 0 w.id) ∈ before
  endings : ∀ id v, .workers (.workerEnded id v) ∈ s.journal →
    ∃ w ∈ s.manager.workers, w.id = id ∧ w.phase = .joined v
  /-- The PID file is given up after the hook has come back. -/
  guarded : ∀ file, .unguarded file ∉ before ++ during ∧
    (.unguarded file ∈ after ↔ u.guard = some file)
  fails : exit ≠ .success ↔ o.isFailed = true ∨
    ∃ w ∈ s.manager.workers, ∃ payload, w.phase = .joined (.panicked payload)
  notClosed : o.isFailed = true → exit = .failure .notClosed
  /-- Of the workers that have panicked the first is reported. -/
  workerFailed : o.isFailed = false → ∀ w ∈ s.manager.workers, ∀ payload,
    w.phase = .joined (.panicked payload) →
    (∀ w' ∈ s.manager.workers, w'.id < w.id → ∀ q, w'.phase ≠ .joined (.panicked q)) →
    ∃ f, exit = .failure f ∧
      f.message = "stopping workers: " ++ (WorkerFailure.panicked w.name payload.message).message

/-- The main thread was to wait for a command when the clock was at its end. -/
def Overran (p : Plan) (u : Session) (moves : List Session.Move) : Prop :=
  ∃ before after, moves = before ++ .main :: after ∧ (u.play p before).IsOverdue

/-- What becomes of a session that was in its main loop at `u`. -/
structure Orderly (p : Plan) (s u : Session) (moves : List Session.Move) : Prop where
  /-- Until the session is over the last hook has not run, and the PID file is kept. -/
  kept : s.isOver = false → (∀ e ∈ s.journal, e.isFinal = false) ∧ s.guard = u.guard
  stops : s.standing = .stopping → ∃ stopped, (s.step p).standing = .closing stopped
  closes : ∀ stopped, s.standing = .closing stopped →
    (∀ w ∈ s.manager.workers, w.isJoined = true) ∧ ∃ exit, (s.step p).standing = .ended exit
  /-- A session that is over was taken down in order, unless the clock was at its end. -/
  taken : ∀ exit, s.standing = .ended exit →
    (Overran p u moves ∧ exit = .panicked Moment.overflow) ∨
      ∃ before during after o, s.TornDown p u exit before during after o

/-! ### Stopping the workers -/

/-- A worker that is stopped ends as it has ended, or as it does at last. -/
lemma mem_parting {last : TaskId → Verdict Unit} {w : Worker} (hw : w.isJoined = false)
    (v : Verdict Unit) : (w.dismissed last).verdict? = some v ↔
      w.verdict? = some v ∨ (w.id, v) ∈ w.parting last := by
  obtain ⟨i, name, cancelled, phase⟩ := w
  cases phase with
  | running => simp [Worker.dismissed, Worker.collected, Worker.told, Worker.verdict?,
      Worker.parting, WorkerAt.verdict, eq_comm]
  | ended x => simp [Worker.dismissed, Worker.collected, Worker.told, Worker.verdict?,
      Worker.parting, WorkerAt.verdict]
  | joined x => cases hw

lemma id_of_mem_parting {last : TaskId → Verdict Unit} {w : Worker} {x : TaskId × Verdict Unit}
    (h : x ∈ w.parting last) : x.1 = w.id := by
  unfold Worker.parting at h
  split at h
  · rw [List.mem_singleton.mp h]
  · cases h

lemma IsCrew.dismissed (h : s.IsCrew p ws) (hunjoined : ∀ w ∈ ws, w.isJoined = false)
    {last : TaskId → Verdict Unit}
    (hs : s'.endings = s.endings ++ ws.flatMap (Worker.parting last)) :
    s'.IsCrew p (ws.map (Worker.dismissed last)) where
  ids := by
    rw [← h.ids, List.map_map]
    rfl
  names := by
    rw [← h.names, List.map_map]
    rfl
  tally := by
    intro id v
    rw [hs, List.mem_append, h.tally, List.mem_flatMap]
    constructor
    · rintro (⟨w, hw, hid, hv⟩ | ⟨w, hw, hv⟩)
      · exact ⟨w.dismissed last, List.mem_map_of_mem hw, hid,
          (mem_parting (hunjoined w hw) v).mpr (.inl hv)⟩
      · obtain rfl : id = w.id := id_of_mem_parting hv
        exact ⟨w.dismissed last, List.mem_map_of_mem hw, rfl,
          (mem_parting (hunjoined w hw) v).mpr (.inr hv)⟩
    · rintro ⟨w', hw', hid, hv⟩
      obtain ⟨w, hw, rfl⟩ := List.mem_map.mp hw'
      rcases (mem_parting (hunjoined w hw) v).mp hv with hv | hv
      · exact .inl ⟨w, hw, hid, hv⟩
      · right
        refine ⟨w, hw, ?_⟩
        rw [← hid]
        exact hv

/-- The main thread stops all workers, and the daemon is still to be closed. -/
lemma isDisbanded_stopWorkers (hs : s.IsManned p) :
    ∃ ws, (s.stopWorkers p).IsDisbanded p ws ∧ (s.stopWorkers p).guard = s.guard ∧
      (s.stopWorkers p).standing = .closing (batchResult (ws.findSome? Worker.failure?)) := by
  have hsaid := goesOn_write s
    (e := .said ⟨.info, .program, "The daemon process is stopping"⟩) rfl rfl
  set t := s.say .info "The daemon process is stopping" with ht
  have hmanned : t.IsManned p := hs.goesOn hsaid
  obtain ⟨ws, hmanager, hcrew, hunjoined⟩ := hmanned.crew
  obtain ⟨es, hperform, hendings, hjoined, -⟩ :=
    Manager.perform_stopAll_listing (t.lastWords p) hcrew.nodup hunjoined
  rw [← hmanager] at hperform
  set m := t.managed p .stopAll with hm
  have hmanaged : m = { Manager.dismissing (ws.map (Worker.dismissed (t.lastWords p))) with
      history := .stoppedAll 0 (batchResult ((ws.map (Worker.dismissed (t.lastWords p))).findSome?
        Worker.failure?)) :: es } := hperform
  obtain ⟨v, hv, hgoes⟩ : ∃ v : Session,
      v = (if t.works tickTask then t.withTicker (t.lastTick p) else t) ∧ t.GoesOn v := by
    refine ⟨_, rfl, ?_⟩
    split
    · exact .of_same rfl rfl rfl rfl
    · exact .refl t
  have hstopped : m.stoppedAll? = some (batchResult
      ((ws.map (Worker.dismissed (t.lastWords p))).findSome? Worker.failure?)) := by
    rw [hmanaged]
    rfl
  have hstop : s.stopWorkers p = { v.absorb m with
      standing := .closing (m.stoppedAll?.getD (.ok ())) } := by
    rw [hv]
    rfl
  have hended : (v.absorb m).endings =
      t.endings ++ ws.flatMap (Worker.parting (t.lastWords p)) := by
    rw [endings_absorb, hgoes.endings, hmanaged]
    refine congrArg (t.endings ++ ·) ?_
    rw [List.filterMap_cons_none rfl, hendings]
    simp
  have hjournal : (v.absorb m).journal = v.journal ++ m.history.reverse.map .workers := rfl
  refine ⟨ws.map (Worker.dismissed (t.lastWords p)), ?_, ?_, ?_⟩
  · rw [hstop]
    refine ⟨?_, (hmanned.goesOn hgoes).bound, ?_, hcrew.dismissed hunjoined hended, ?_⟩
    · rw [absorb, hmanaged]
      rfl
    · refine List.forall_mem_append.mpr ⟨(hmanned.goesOn hgoes).quiet, fun e he => ?_⟩
      obtain ⟨_, -, rfl⟩ := List.mem_map.mp he
      rfl
    · intro w' hw'
      obtain ⟨w, hw, rfl⟩ := List.mem_map.mp hw'
      refine ⟨rfl, ?_⟩
      refine List.mem_append_right v.journal (List.mem_map_of_mem (List.mem_reverse.mpr ?_))
      rw [hmanaged]
      exact List.mem_cons_of_mem _ (hjoined w hw)
  · rw [hstop]
    exact hgoes.guard.trans hsaid.guard
  · rw [hstop, hstopped]
    rfl

lemma IsDisbanded.goesOn (h : s.IsDisbanded p ws) (hs : s.GoesOn s') : s'.IsDisbanded p ws := by
  refine ⟨hs.manager.trans h.manager, h.bound.goesOn hs, hs.quiet h.quiet, h.crew.goesOn hs, ?_⟩
  obtain ⟨es, hjournal, -⟩ := hs.told
  intro w hw
  rw [hjournal]
  exact (h.joined w hw).imp_right (List.mem_append_left es)

/-- Where all workers have been joined, none of them ends. -/
lemma endWorker_of_joined (hhistory : s.manager.history = [])
    (hjoined : ∀ w ∈ s.manager.workers, w.isJoined = true) (id : TaskId) (v : Verdict Unit) :
    s.endWorker id v = s := by
  have hsame : s.manager.attempt [.finish id v] = s.manager := by
    refine (s.manager.attempt_finish id v).resolve_right ?_
    rintro ⟨w, hw, hrunning, -⟩
    have hj := hjoined w (List.mem_of_find?_eq_some hw)
    rw [Worker.isJoined, hrunning] at hj
    cases hj
  rw [endWorker, hsame, absorb, hhistory]
  simp only [List.reverse_nil, List.map_nil, List.append_nil]
  rw [← hhistory]

/-- With all workers joined, nothing that happens beside the main thread ends one. -/
lemma goesOnBeside_happen (hhistory : s.manager.history = [])
    (hjoined : ∀ w ∈ s.manager.workers, w.isJoined = true) (h : Happening) :
    s.GoesOnBeside (s.happen p h) := by
  obtain ⟨t, hgoes, ht | ⟨id, v, ht⟩⟩ := happen_eq p s h
  · rwa [ht]
  · rw [← hgoes.manager] at hhistory hjoined
    rwa [ht, endWorker_of_joined hhistory hjoined]

/-- Nothing that happens beside the main thread matters to who was stopped. -/
lemma IsDisbanded.happen (hs : s.IsDisbanded p ws) (h : Happening) :
    (s.happen p h).IsDisbanded p ws ∧ (s.happen p h).guard = s.guard ∧
      (s.happen p h).standing = s.standing := by
  have hgoes : s.GoesOnBeside (s.happen p h) := by
    refine goesOnBeside_happen ?_ ?_ h
    · rw [hs.manager]
      rfl
    · rw [hs.manager]
      exact fun w hw => (hs.joined w hw).1
  exact ⟨hs.goesOn hgoes.toGoesOn, hgoes.guard, hgoes.standing⟩

/-! ### Closing the daemon -/

/-- What is told when the program ends with everybody joined. -/
lemma finish_of_dismissing (hmanager : s.manager = Manager.dismissing ws) (exit : Exit) :
    ∃ es, (s.finish p exit).journal = s.journal ++ es ∧
      (s.finish p exit).manager = { Manager.dismissing ws with isAlive := false } ∧
      (s.finish p exit).daemon.word = s.daemon.word ∧
      (∀ e ∈ es, (∀ e', e ≠ .daemon e') ∧ e.ending? = none) ∧
      ∀ file, .unguarded file ∈ es ↔ s.guard = some file := by
  have hdrop : s.managed p .drop = { Manager.dismissing ws with
      isAlive := false
      history := [.dropped 0, .stoppedAll 0 (.ok ()), .removed 0 []] } := by
    rw [managed, hmanager]
    exact Manager.perform_drop_dismissing ws _
  have hguard : (s.absorb (s.managed p .drop)).guard = s.guard := rfl
  set dropped : List JournalEntry := [.workers (.removed 0 []), .workers (.stoppedAll 0 (.ok ())),
    .workers (.dropped 0)]
  rw [finish_eq, hguard]
  cases hfile : s.guard with
  | none =>
    refine ⟨dropped, ?_, ?_, rfl, by simp [dropped, JournalEntry.ending?, ManagerEvent.ending?], ?_⟩
    · simp only [Option.elim, absorb, hdrop]
      rfl
    · simp only [Option.elim, absorb, hdrop]
      rfl
    · simp [dropped]
  | some file =>
    refine ⟨dropped ++ .unguarded file :: (file.drop s.host).2.map .said, ?_, ?_, rfl, ?_, ?_⟩
    · simp only [Option.elim, unguard, write, withHost, absorb, hdrop]
      simp [dropped, host]
    · simp only [Option.elim, unguard, write, withHost, absorb, hdrop]
      rfl
    · simp [dropped, JournalEntry.ending?, ManagerEvent.ending?]
    · simp [dropped, eq_comm]

/-- A worker that was joined is to be reported if its body has panicked. -/
lemma failure?_eq_some {w : Worker} (hw : w.isJoined = true) {f : WorkerFailure} :
    w.failure? = some f ↔
      ∃ payload, w.phase = .joined (.panicked payload) ∧ f = .panicked w.name payload.message := by
  obtain ⟨i, name, cancelled, phase⟩ := w
  cases phase with
  | running | ended => cases hw
  | joined v =>
    cases v with
    | value => simp [Worker.failure?, Worker.verdict?]
    | panicked payload => simp [Worker.failure?, Worker.verdict?, eq_comm]

lemma failure?_eq_none {w : Worker} (hw : w.isJoined = true) :
    w.failure? = none ↔ ∀ payload, w.phase ≠ .joined (.panicked payload) := by
  rw [Option.eq_none_iff_forall_ne_some]
  constructor
  · intro hnone payload hphase
    exact hnone _ ((failure?_eq_some hw).mpr ⟨payload, hphase, rfl⟩)
  · intro hnot f hf
    obtain ⟨payload, hphase, -⟩ := (failure?_eq_some hw).mp hf
    exact hnot payload hphase

lemma ofClosing_ne_success (hjoined : ∀ w ∈ ws, w.isJoined = true) :
    Exit.ofClosing o (batchResult (ws.findSome? Worker.failure?)) ≠ .success ↔ o.isFailed = true ∨
      ∃ w ∈ ws, ∃ payload, w.phase = .joined (.panicked payload) := by
  unfold Exit.ofClosing
  cases hfailed : o.isFailed with
  | true => simp
  | false =>
    cases hfirst : ws.findSome? Worker.failure? with
    | none =>
      have hnone := List.findSome?_eq_none_iff.mp hfirst
      constructor
      · intro hfails
        exact absurd rfl hfails
      · rintro (hclosed | ⟨w, hw, payload, hphase⟩)
        · cases hclosed
        · exact absurd hphase ((failure?_eq_none (hjoined w hw)).mp (hnone w hw) payload)
    | some f =>
      obtain ⟨w, hw, hf⟩ := List.exists_of_findSome?_eq_some hfirst
      obtain ⟨payload, hphase, -⟩ := (failure?_eq_some (hjoined w hw)).mp hf
      exact ⟨fun _ => .inr ⟨w, hw, payload, hphase⟩, fun _ => nofun⟩

/-- The panic that is reported is that of the lowest number. -/
lemma findSome?_failure? {n : Nat} (hids : ws.map Worker.id = List.range n)
    (hjoined : ∀ w ∈ ws, w.isJoined = true) {w : Worker} (hw : w ∈ ws) {payload : Payload}
    (hphase : w.phase = .joined (.panicked payload))
    (hfirst : ∀ w' ∈ ws, w'.id < w.id → ∀ q, w'.phase ≠ .joined (.panicked q)) :
    ws.findSome? Worker.failure? = some (.panicked w.name payload.message) := by
  have hsorted : ws.Pairwise fun w w' => w.id < w'.id := by
    rw [← List.pairwise_map, hids]
    exact List.pairwise_lt_range
  obtain ⟨front, back, rfl⟩ := List.append_of_mem hw
  have hnone : front.findSome? Worker.failure? = none := by
    refine List.findSome?_eq_none_iff.mpr fun w' hw' => ?_
    have hmem : w' ∈ front ++ w :: back := List.mem_append_left _ hw'
    have hlt := (List.pairwise_append.mp hsorted).2.2 w' hw' w List.mem_cons_self
    exact (failure?_eq_none (hjoined w' hmem)).mpr (hfirst w' hmem hlt)
  rw [List.findSome?_append, hnone, Option.none_or, List.findSome?_cons,
    (failure?_eq_some (hjoined w hw)).mpr ⟨payload, hphase, rfl⟩]

lemma exists_of_isJoined {w : Worker} (hw : w.isJoined = true) : ∃ v, w.phase = .joined v := by
  obtain ⟨i, name, cancelled, phase⟩ := w
  cases phase with
  | running | ended => cases hw
  | joined v => exact ⟨v, rfl⟩

lemma mem_endings {id : TaskId} {v : Verdict Unit} :
    (id, v) ∈ s.endings ↔ .workers (.workerEnded id v) ∈ s.journal := by
  rw [endings, List.mem_filterMap]
  constructor
  · rintro ⟨e, he, hending⟩
    cases e with
    | workers e =>
      cases e with
      | workerEnded i x =>
        cases hending
        exact he
      | _ => cases hending
    | _ => cases hending
  · intro he
    exact ⟨_, he, rfl⟩

/-- The program ends after the last hook has come back. -/
lemma tornDown_finish (hs : s.IsDisbanded p ws) (hguard : s.guard = u.guard) {t : Session}
    {es : List (Event Site)} {rs : Records} {said : List JournalEntry}
    (hmanager : t.manager = s.manager) (hguard' : t.guard = s.guard) (hword : t.daemon.word = .stop)
    (hjournal : t.journal = s.journal ++ (es.map .daemon ++
      .daemon (.invoked .closing (some p.context.shutdown) .stop) ::
        (rs.map (fun r => .daemon (.logged r)) ++ .daemon (.returned .closing o) :: said)))
    (hes : ∀ e ∈ es, e.isClosing = false)
    (hsaid : ∀ e ∈ said, e.isFinal = false ∧ e.ending? = none) :
    ∃ before during after,
      (t.finish p (.ofClosing o (batchResult (ws.findSome? Worker.failure?)))).TornDown p u
        (.ofClosing o (batchResult (ws.findSome? Worker.failure?))) before during after o := by
  set exit := Exit.ofClosing o (batchResult (ws.findSome? Worker.failure?)) with hexit
  obtain ⟨last, hlast, hgone, hword', hquiet, hunguarded⟩ :=
    finish_of_dismissing (hmanager.trans hs.manager) exit
  have hworkers : (t.finish p exit).manager.workers = ws := by rw [hgone]; rfl
  have hjoined (w : Worker) (hw : w ∈ ws) := (hs.joined w hw).1
  refine ⟨s.journal ++ es.map .daemon, rs.map fun r => .daemon (.logged r), said ++ last, ?_⟩
  constructor
  case journal =>
    rw [hlast, hjournal]
    simp
  case once =>
    intro e he
    simp only [List.mem_append] at he
    rcases he with (he | he) | he | he | he
    · exact hs.quiet _ he
    · obtain ⟨e', he', heq⟩ := List.mem_map.mp he
      cases heq
      exact hes e he'
    · obtain ⟨r, -, heq⟩ := List.mem_map.mp he
      cases heq
      rfl
    · exact (hsaid _ he).1
    · exact absurd rfl ((hquiet _ he).1 e)
  case hook =>
    intro e he
    obtain ⟨r, -, rfl⟩ := List.mem_map.mp he
    exact ⟨r, rfl⟩
  case word =>
    rw [hword', hword]
  case manager =>
    rw [hworkers, hgone]
  case ids =>
    rw [hworkers]
    exact hs.crew.ids
  case names =>
    rw [hworkers]
    exact hs.crew.names
  case joined =>
    rw [hworkers]
    intro w hw
    obtain ⟨v, hv⟩ := exists_of_isJoined (hjoined w hw)
    have hended : (w.id, v) ∈ s.endings :=
      (hs.crew.tally w.id v).mpr ⟨w, hw, rfl, by rw [Worker.verdict?, hv]⟩
    exact ⟨v, hv, List.mem_append_left _ (mem_endings.mp hended),
      List.mem_append_left _ (hs.joined w hw).2⟩
  case endings =>
    rw [hworkers]
    intro id v hended
    have hsame : (t.finish p exit).endings = s.endings := by
      rw [endings, hlast, List.filterMap_append, List.filterMap_eq_nil_iff.mpr
        fun e he => (hquiet e he).2, hjournal]
      simp only [List.filterMap_append, List.filterMap_cons, endings_daemon,
        List.filterMap_eq_nil_iff.mpr fun e he => (hsaid e he).2]
      simp [endings, JournalEntry.ending?]
    have hmem := mem_endings.mpr hended
    rw [hsame, hs.crew.tally] at hmem
    obtain ⟨w, hw, hid, hverdict⟩ := hmem
    obtain ⟨v', hv'⟩ := exists_of_isJoined (hjoined w hw)
    rw [Worker.verdict?, hv'] at hverdict
    cases hverdict
    exact ⟨w, hw, hid, hv'⟩
  case guarded =>
    intro file
    constructor
    · intro hmem
      simp only [List.mem_append] at hmem
      rcases hmem with (hmem | hmem) | hmem
      · exact Bool.noConfusion (hs.quiet _ hmem)
      · simp at hmem
      · simp at hmem
    · rw [← hguard, ← hguard', ← hunguarded, List.mem_append]
      refine or_iff_right fun hmem => ?_
      exact Bool.noConfusion (hsaid _ hmem).1
  case fails =>
    rw [hworkers, hexit]
    exact ofClosing_ne_success hjoined
  case notClosed =>
    intro hfailed
    simp only [hexit, Exit.ofClosing, hfailed, if_true]
  case workerFailed =>
    rw [hworkers]
    intro hclosed w hw payload hphase hfirst
    have hfailure := findSome?_failure? hs.crew.ids hjoined hw hphase hfirst
    refine ⟨.workerFailed (.panicked w.name payload.message), ?_, rfl⟩
    simp only [hexit, Exit.ofClosing, hclosed, hfailure]
    rfl

/-- Once the last hook has come back, the program ends. -/
lemma close_of_closed (stopped : Except WorkerFailure Unit) {t : Session}
    (h : s.onDaemon (Daemon.closeAll (run p)) = (.returned o, t)) :
    ∃ t' : Session, s.close p stopped = t'.finish p (.ofClosing o stopped) ∧
      t'.manager = t.manager ∧ t'.guard = t.guard ∧ t'.daemon = t.daemon ∧
      ∃ said, t'.journal = t.journal ++ said ∧
        ∀ e ∈ said, e.isFinal = false ∧ e.ending? = none := by
  have hnothing : t.journal = t.journal ++ [] := (List.append_nil _).symm
  unfold close
  rw [h]
  simp only [andThen, Exit.ofClosing]
  split
  · exact ⟨t, rfl, rfl, rfl, rfl, [], hnothing, by simp⟩
  · cases stopped with
    | error f => exact ⟨t, rfl, rfl, rfl, rfl, [], hnothing, by simp⟩
    | ok => exact ⟨_, rfl, rfl, rfl, rfl, [_], rfl, List.forall_mem_singleton.mpr ⟨rfl, rfl⟩⟩

/-- The daemon is closed, and the program ends. -/
lemma tornDown_close (hs : s.IsDisbanded p ws) (hguard : s.guard = u.guard)
    (hp : p.context.IsPlain) :
    ∃ exit before during after o,
      (s.close p (batchResult (ws.findSome? Worker.failure?))).standing = .ended exit ∧
      (s.close p (batchResult (ws.findSome? Worker.failure?))).TornDown p u exit
        before during after o := by
  obtain ⟨o, d, es, rs, r, hclose, -, hword, htrace, hes⟩ :=
    Daemon.closeAll_of_isPlain (Daemon.perform p.depth) (d := s.daemon.wiped)
      (hs.bound .close) (hp.hook .close)
  set t : Session := { s with daemon := d.wiped, journal := s.journal ++ d.trace.map .daemon }
  have hclosed : s.onDaemon (Daemon.closeAll (run p)) = (.returned o, t) :=
    onDaemon_of_returned hclose
  obtain ⟨t', hfinish, hmanager, hguard', hdaemon, said, hsaid, hquiet⟩ :=
    close_of_closed (batchResult (ws.findSome? Worker.failure?)) hclosed
  set stored : Event Site := .stored (some .closing) .stop
  have htold : d.trace = es ++ (stored ::
      .invoked .closing (some p.context.shutdown) .stop :: (rs.map .logged ++
        [.returned .closing o, .logged r])) := htrace
  have hjournal : t'.journal = s.journal ++ ((es ++ [stored]).map .daemon ++
      .daemon (.invoked .closing (some p.context.shutdown) .stop) ::
        (rs.map (fun r => .daemon (.logged r)) ++ .daemon (.returned .closing o) ::
          (.daemon (.logged r) :: said))) := by
    rw [hsaid]
    simp [t, htold]
  have hes' : ∀ e ∈ es ++ [stored], e.isClosing = false :=
    List.forall_mem_append.mpr ⟨hes, List.forall_mem_singleton.mpr rfl⟩
  have hlast : ∀ e ∈ .daemon (.logged r) :: said, e.isFinal = false ∧ e.ending? = none :=
    List.forall_mem_cons.mpr ⟨⟨rfl, rfl⟩, hquiet⟩
  obtain ⟨before, during, after, htorn⟩ := tornDown_finish hs hguard hmanager hguard'
    (by rw [hdaemon]; exact hword) hjournal hes' hlast
  rw [hfinish]
  exact ⟨_, before, during, after, o, rfl, htorn⟩

/-! ### After the end -/

/-- Nothing that happens after the end changes what has come of it. -/
lemma TornDown.happen (hs : s.TornDown p u exit before during after o) (h : Happening) :
    ∃ after', (s.happen p h).TornDown p u exit before during after' o := by
  obtain ⟨⟨hmanager, -, -, es, hjournal, hes⟩, -, hstopped⟩ :
      s.GoesOnBeside (s.happen p h) := by
    refine goesOnBeside_happen ?_ ?_ h
    · rw [hs.manager]
      rfl
    · intro w hw
      obtain ⟨v, hv, -⟩ := hs.joined w hw
      rw [Worker.isJoined, hv]
  refine ⟨after ++ es, ?_⟩
  constructor
  case journal =>
    rw [hjournal, hs.journal]
    simp
  case once =>
    intro e he
    rw [← List.append_assoc, ← List.append_assoc, List.append_assoc before, List.mem_append] at he
    exact he.elim (hs.once e) fun he => (hes _ he).1
  case hook => exact hs.hook
  case word => exact hstopped hs.word
  case manager =>
    rw [hmanager]
    exact hs.manager
  case ids =>
    rw [hmanager]
    exact hs.ids
  case names =>
    rw [hmanager]
    exact hs.names
  case joined =>
    rw [hmanager]
    exact hs.joined
  case endings =>
    rw [hmanager, hjournal]
    intro id v hended
    rcases List.mem_append.mp hended with hended | hended
    · exact hs.endings id v hended
    · cases (hes _ hended).2
  case guarded =>
    intro file
    refine (hs.guarded file).imp_right fun hafter => ?_
    rw [← hafter, List.mem_append]
    refine or_iff_left fun hmem => ?_
    exact Bool.noConfusion (hes _ hmem).1
  case fails =>
    rw [hmanager]
    exact hs.fails
  case notClosed => exact hs.notClosed
  case workerFailed =>
    rw [hmanager]
    exact hs.workerFailed

/-! ### Whole sessions -/

/-- How far a session is that went on from its main loop at `u`. -/
inductive Leaving (p : Plan) (s u : Session) (moves : List Session.Move) : Prop where
  | looping (hs : s.IsManned p) (hguard : s.guard = u.guard)
      (h : s.standing.isLooping = true ∨ s.standing = .stopping)
  | closing (ws : List Worker) (hs : s.IsDisbanded p ws) (hguard : s.guard = u.guard)
      (h : s.standing = .closing (batchResult (ws.findSome? Worker.failure?)))
  | overran (hmoves : Overran p u moves) (h : s.standing = .ended (.panicked Moment.overflow))
  | down (exit : Exit) (before during after : List JournalEntry) (o : Outcome)
      (hs : s.TornDown p u exit before during after o) (h : s.standing = .ended exit)

lemma standing_happen (p : Plan) (s : Session) (h : Happening) :
    (s.happen p h).standing = s.standing := by
  obtain ⟨t, hgoes, ht | ⟨id, v, ht⟩⟩ := happen_eq p s h
  · rw [ht]
    exact hgoes.standing
  · rw [ht]
    exact hgoes.standing

lemma Overran.concat (h : Overran p u moves) (m : Session.Move) : Overran p u (moves ++ [m]) := by
  obtain ⟨before, after, rfl, hoverdue⟩ := h
  exact ⟨before, after ++ [m], by simp, hoverdue⟩

lemma Leaving.happen (hs : s.Leaving p u moves) (h : Happening) :
    (s.happen p h).Leaving p u (moves ++ [.beside h]) := by
  have hstanding := standing_happen p s h
  cases hs with
  | looping hs hguard hloop =>
    obtain ⟨hmanned, hguard', -⟩ := hs.happen h
    exact .looping hmanned (hguard'.trans hguard) (by rwa [hstanding])
  | closing ws hs hguard hclosing =>
    obtain ⟨hdisbanded, hguard', -⟩ := hs.happen h
    exact .closing ws hdisbanded (hguard'.trans hguard) (by rwa [hstanding])
  | overran hmoves hended => exact .overran (hmoves.concat _) (by rwa [hstanding])
  | down exit before during after o hs hended =>
    obtain ⟨after', htorn⟩ := hs.happen h
    exact .down exit before during after' o htorn (by rwa [hstanding])

lemma Leaving.step (hs : (u.play p moves).Leaving p u moves) (hp : p.context.IsPlain) :
    ((u.play p moves).step p).Leaving p u (moves ++ [.main]) := by
  cases hs with
  | looping hs hguard hloop =>
    rcases hloop with hloop | hstopping
    · rcases hs.step hp hloop with ⟨hgoes, hstanding⟩ | ⟨hoverdue, hended⟩
      · exact .looping (hs.goesOn hgoes) (hgoes.guard.trans hguard) hstanding
      · exact .overran ⟨moves, [], rfl, hoverdue⟩ hended
    · obtain ⟨ws, hdisbanded, hguard', hstanding⟩ := isDisbanded_stopWorkers hs
      rw [Session.step, hstopping]
      exact .closing ws hdisbanded (hguard'.trans hguard) hstanding
  | closing ws hs hguard hclosing =>
    obtain ⟨exit, before, during, after, o, hended, htorn⟩ := tornDown_close hs hguard hp
    rw [Session.step, hclosing]
    exact .down exit before during after o htorn hended
  | overran hmoves hended =>
    rw [step_ended hended]
    exact .overran (hmoves.concat _) hended
  | down exit before during after o hs hended =>
    rw [step_ended hended]
    exact .down exit before during after o hs hended

lemma play_concat (p : Plan) (s : Session) (moves : List Session.Move) (m : Session.Move) :
    s.play p (moves ++ [m]) = (s.play p moves).move p m := List.foldl_concat ..

/-- From its main loop on a session goes through the stages. -/
lemma leaving_play (hu : u.IsManned p) (hloop : u.standing.isLooping = true)
    (hp : p.context.IsPlain) (moves : List Session.Move) :
    (u.play p moves).Leaving p u moves := by
  induction moves using List.reverseRecOn with
  | nil => exact .looping hu rfl (.inl hloop)
  | append_singleton moves m ih =>
    rw [play_concat]
    cases m with
    | main => exact ih.step hp
    | beside h => exact ih.happen h

lemma standing_close (p : Plan) (stopped : Except WorkerFailure Unit) (s : Session) :
    ∃ exit, (s.close p stopped).standing = .ended exit := by
  unfold close
  rcases s.onDaemon (Daemon.closeAll (run p)) with ⟨closed | m | _, t⟩
  · simp only [andThen]
    split
    · exact ⟨_, rfl⟩
    · cases stopped <;> exact ⟨_, rfl⟩
  · exact ⟨_, rfl⟩
  · exact ⟨_, rfl⟩

lemma Leaving.orderly (hs : s.Leaving p u moves) : s.Orderly p u moves := by
  constructor
  case kept =>
    intro hover
    cases hs with
    | looping hs hguard => exact ⟨hs.quiet, hguard⟩
    | closing ws hs hguard => exact ⟨hs.quiet, hguard⟩
    | overran _ hended | down _ _ _ _ _ _ hended =>
      rw [isOver, hended] at hover
      cases hover
  case stops =>
    intro hstopping
    cases hs with
    | looping hs =>
      obtain ⟨ws, -, -, hclosing⟩ := isDisbanded_stopWorkers hs
      rw [Session.step, hstopping]
      exact ⟨_, hclosing⟩
    | closing _ _ _ h | overran _ h | down _ _ _ _ _ _ h =>
      rw [hstopping] at h
      cases h
  case closes =>
    intro stopped hclosing
    cases hs with
    | looping _ _ hloop =>
      rw [hclosing] at hloop
      rcases hloop with hloop | hloop <;> cases hloop
    | closing ws hs =>
      rw [Session.step, hclosing, hs.manager]
      exact ⟨fun w hw => (hs.joined w hw).1, standing_close p stopped s⟩
    | overran _ h | down _ _ _ _ _ _ h =>
      rw [hclosing] at h
      cases h
  case taken =>
    intro exit hended
    cases hs with
    | looping _ _ hloop =>
      rw [hended] at hloop
      rcases hloop with hloop | hloop <;> cases hloop
    | closing _ _ _ h =>
      rw [hended] at h
      cases h
    | overran hmoves h =>
      rw [hended] at h
      cases h
      exact .inl ⟨hmoves, rfl⟩
    | down _ before during after o hs h =>
      rw [hended] at h
      cases h
      exact .inr ⟨before, during, after, o, hs⟩

/-- Until it is to be closed, a session is fresh or has its workers at work. -/
def IsUnclosed (p : Plan) (s : Session) : Prop :=
  (s.standing = .starting ∧ s.IsFresh) ∨
  (s.IsManned p ∧ (s.standing.isLooping = true ∨ s.standing = .stopping)) ∨
  (∃ stopped, s.standing = .closing stopped) ∨ ∃ exit, s.standing = .ended exit

lemma IsFresh.happen (hs : s.IsFresh) (h : Happening) : (s.happen p h).IsFresh := by
  refine hs.goesOn (goesOnBeside_happen ?_ ?_ h).toGoesOn
  · rw [hs.manager]
    rfl
  · rw [hs.manager]
    intro w hw
    cases hw

lemma IsUnclosed.move (hs : s.IsUnclosed p) (hp : p.context.IsPlain) (m : Session.Move) :
    (s.move p m).IsUnclosed p := by
  cases m with
  | beside h =>
    have hstanding : (s.move p (.beside h)).standing = s.standing := standing_happen p s h
    unfold IsUnclosed
    rw [hstanding]
    rcases hs with ⟨hstart, hfresh⟩ | ⟨hmanned, hloop⟩ | hlate
    · exact .inl ⟨hstart, hfresh.happen h⟩
    · exact .inr (.inl ⟨(hmanned.happen h).1, hloop⟩)
    · exact .inr (.inr hlate)
  | main =>
    rw [Session.move]
    rcases hs with ⟨hstart, hfresh⟩ | ⟨hmanned, hloop | hstopping⟩ | ⟨stopped, hclosing⟩ |
      ⟨exit, hended⟩
    · rw [Session.step, hstart]
      rcases isSettled_start hfresh hp with hended | ⟨hmanned, hpolling⟩
      · exact .inr (.inr (.inr hended))
      · refine .inr (.inl ⟨hmanned, .inl ?_⟩)
        simp only [hpolling]
        rfl
    · rcases hmanned.step hp hloop with ⟨hgoes, hstanding⟩ | ⟨-, hended⟩
      · exact .inr (.inl ⟨hmanned.goesOn hgoes, hstanding⟩)
      · exact .inr (.inr (.inr ⟨_, hended⟩))
    · obtain ⟨ws, -, -, hclosing⟩ := isDisbanded_stopWorkers hmanned
      rw [Session.step, hstopping]
      exact .inr (.inr (.inl ⟨_, hclosing⟩))
    · rw [Session.step, hclosing]
      exact .inr (.inr (.inr (standing_close p stopped s)))
    · rw [step_ended hended]
      exact .inr (.inr (.inr ⟨exit, hended⟩))

lemma isUnclosed_play (d : Daemon Site) (hp : p.context.IsPlain) (moves : List Session.Move) :
    (Session.play p { daemon := d } moves).IsUnclosed p := by
  induction moves using List.reverseRecOn with
  | nil => exact .inl ⟨rfl, rfl, nofun, rfl⟩
  | append_singleton moves m ih =>
    rw [play_concat]
    exact ih.move hp m

/-- However a session has come into its main loop and whatever happens then: all workers are joined
before the last hook runs, which it does once and with the daemon stopped, and what the session
reports is that it failed or else the first panic of a worker. -/
theorem taken_down_in_order {d : Daemon Site} {beginning : List Session.Move}
    (hp : p.context.IsPlain)
    (hloop : (Session.play p { daemon := d } beginning).standing = .polling)
    (moves : List Session.Move) :
    ((Session.play p { daemon := d } beginning).play p moves).Orderly p
      (Session.play p { daemon := d } beginning) moves := by
  set u := Session.play p { daemon := d } beginning with hu
  have hlooping : u.standing.isLooping = true := by rw [hloop]; rfl
  have hmanned : u.IsManned p := by
    rcases isUnclosed_play d hp beginning with ⟨hstart, -⟩ | ⟨hmanned, -⟩ | ⟨_, hlate⟩ | ⟨_, hlate⟩
    · rw [← hu, hloop] at hstart
      cases hstart
    · exact hmanned
    · rw [← hu, hloop] at hlate
      cases hlate
    · rw [← hu, hloop] at hlate
      cases hlate
  exact (leaving_play hmanned hlooping hp moves).orderly

/-- Both workers panic, the console first, and a signal ends the loop. -/
def calamity : List Session.Move :=
  [.beside (.crash consoleTask (.text "late")), .beside (.crash tickTask .other),
    .beside (.signal .term), .main, .main, .main]

/-- The worker with the lower number is reported. -/
theorem taken_down_in_order_calamity :
    let u := Session.play {} { daemon := { app := {}, attached := true } } [.main]
    let s := u.play {} calamity
    u.standing = .polling ∧ s.Orderly {} u calamity ∧
      s.exit? =
        some (.failure (.workerFailed (.panicked "app-context" "unknown panic payload"))) := by
  intro u s
  have hplain : (Application.context : Context Site).IsPlain := Application.isPlain_context _
  have hloop : u.standing = .polling := MainAt.polling_of_toGo (by decide +kernel)
  exact ⟨hloop, taken_down_in_order hplain hloop calamity, by decide +kernel⟩

end Session

end Overseer
