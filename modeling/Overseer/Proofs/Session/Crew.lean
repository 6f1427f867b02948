import Overseer.Proofs.Session.Course
import Overseer.Proofs.Worker.Dismissal

/-!
# The workers of a session

A session in the foreground has two workers from its main loop on, and nobody stops them before the
main thread stops both. The journal tells how the body of each of them has ended, so a session whose
journal tells of no panic stops both of them without a complaint.
-/

namespace Overseer

/-- How the body of a worker has ended, if the entry tells of it. -/
def JournalEntry.ending? : JournalEntry → Option (TaskId × Verdict Unit)
  | workers e => e.ending?
  | _ => none

namespace Session

variable {p : Plan} {s s' : Session} {ticker console : WorkerAt} {v w : Verdict Unit}

/-- How the bodies of workers have ended, in order. -/
def endings (s : Session) : List (TaskId × Verdict Unit) :=
  s.journal.filterMap JournalEntry.ending?

/-- No worker has panicked. -/
def IsUnharmed (s : Session) : Prop := ∀ id payload, (id, .panicked payload) ∉ s.endings

/-- The first worker while it is alone. -/
def pioneer : Manager where
  nextId := 1
  table := [tickTask]
  workers := [{ id := tickTask, name := "app-context" }]

/-- The two workers while they are listed. -/
def crew (ticker console : WorkerAt) : Manager where
  nextId := 2
  table := [tickTask, consoleTask]
  workers := [{ id := tickTask, name := "app-context", phase := ticker },
    { id := consoleTask, name := "console", phase := console }]

/-- The two workers once they have been stopped. -/
def dismissed (v w : Verdict Unit) : Manager where
  nextId := 2
  workers := [{ id := tickTask, name := "app-context", cancelled := true, phase := .joined v },
    { id := consoleTask, name := "console", cancelled := true, phase := .joined w }]

/-- The worker runs, or the journal tells how it has ended. -/
def Accounts (s : Session) (id : TaskId) : WorkerAt → Prop
  | .running => True
  | .ended v => (id, v) ∈ s.endings
  | .joined _ => False

/-- The two workers are listed. -/
def IsStaffed (s : Session) : Prop :=
  ∃ ticker console, s.manager = crew ticker console ∧ s.Accounts tickTask ticker ∧
    s.Accounts consoleTask console

/-- The two workers have been stopped, and `stopped` is what came of it. -/
def IsDismissed (s : Session) (stopped : Except WorkerFailure Unit) : Prop :=
  ∃ v w, s.manager = dismissed v w ∧ (tickTask, v) ∈ s.endings ∧ (consoleTask, w) ∈ s.endings ∧
    (v = .value () → w = .value () → stopped = .ok ())

/-! ### How bodies have ended -/

lemma endings_append {es : List JournalEntry} (h : s'.journal = s.journal ++ es) :
    s'.endings = s.endings ++ es.filterMap JournalEntry.ending? := by
  rw [endings, endings, h, List.filterMap_append]

lemma endings_subset {es : List JournalEntry} (h : s'.journal = s.journal ++ es) :
    s.endings ⊆ s'.endings := by
  rw [endings_append h]
  exact List.subset_append_left _ _

@[simp] lemma endings_daemon (es : List (Event Site)) :
    (es.map JournalEntry.daemon).filterMap JournalEntry.ending? = [] :=
  List.filterMap_eq_nil_iff.mpr (List.forall_mem_map.mpr fun _ _ => rfl)

@[simp] lemma endings_said (rs : Records) :
    (rs.map JournalEntry.said).filterMap JournalEntry.ending? = [] :=
  List.filterMap_eq_nil_iff.mpr (List.forall_mem_map.mpr fun _ _ => rfl)

@[simp] lemma endings_workers (es : List ManagerEvent) :
    (es.map JournalEntry.workers).filterMap JournalEntry.ending? =
      es.filterMap ManagerEvent.ending? := by
  rw [List.filterMap_map]
  rfl

/-- A worker that has not panicked has ended as it should. -/
lemma eq_value_of_isUnharmed (h : s.IsUnharmed) {id : TaskId} (hended : (id, v) ∈ s.endings) :
    v = .value () := by
  cases v with
  | value u => rfl
  | panicked payload => exact absurd hended (h id payload)

/-! ### Starting -/

lemma startWorker_of_ok {name : String} {f : Session → Session} {m : Manager}
    {es : List ManagerEvent} {id : TaskId}
    (hmanaged : s.managed p (.start name none) = { m with history := es })
    (hstarted : (s.managed p (.start name none)).started? = some (.ok id)) :
    startWorker p s name f = f { s with
      manager := { m with history := [] }
      journal := s.journal ++ es.reverse.map .workers } := by
  simp only [startWorker, hstarted]
  rw [hmanaged]
  rfl

lemma perform_start_ticker (react : TaskId → List ManagerAction) :
    let m := ({} : Manager).perform (.start "app-context" none) react
    ∃ es, m = { pioneer with history := es } ∧ m.started? = some (.ok tickTask) :=
  ⟨_, rfl, rfl⟩

lemma perform_start_console (react : TaskId → List ManagerAction) :
    let m := pioneer.perform (.start "console" none) react
    ∃ es, m = { crew .running .running with history := es } ∧
      m.started? = some (.ok consoleTask) :=
  ⟨_, rfl, rfl⟩

/-- In the foreground both workers are started, and the main loop begins. -/
lemma startWorkers_eq (h : s.manager = {}) (hforeground : p.config.isDaemon = false) :
    ∃ es : List ManagerEvent, s.startWorkers p = { s with
      manager := crew .running .running
      journal := s.journal ++ es.map .workers ++
        [.printed { output := "Press the h key to display the Console Menu...\n" }]
      standing := .polling } := by
  obtain ⟨es, hticker, hstarted⟩ := perform_start_ticker fun id => [.finish id (s.lastWords p id)]
  rw [← h] at hticker hstarted
  rw [startWorkers, startWorker_of_ok hticker hstarted, hforeground, if_neg Bool.false_ne_true]
  set u : Session := { s with
    manager := { pioneer with history := [] }
    journal := s.journal ++ es.reverse.map .workers }
  obtain ⟨es', hconsole, hstarted'⟩ :=
    perform_start_console fun id => [.finish id (u.lastWords p id)]
  rw [startWorker_of_ok (s := u) hconsole hstarted']
  refine ⟨es.reverse ++ es'.reverse, ?_⟩
  rw [List.map_append, ← List.append_assoc]
  rfl

/-! ### Bodies that end -/

/-- Whether a body ended makes a difference at a worker that runs only. -/
lemma attempt_finish_crew (ticker console : WorkerAt) (id : TaskId) (x : Verdict Unit) :
    (crew ticker console).attempt [.finish id x] = crew ticker console ∨
    (id = tickTask ∧ ticker = .running ∧ (crew ticker console).attempt [.finish id x] =
      { crew (.ended x) console with history := [.workerEnded id x] }) ∨
    (id = consoleTask ∧ console = .running ∧ (crew ticker console).attempt [.finish id x] =
      { crew ticker (.ended x) with history := [.workerEnded id x] }) := by
  by_cases htick : id = tickTask
  · subst htick
    cases ticker with
    | running => exact .inr (.inl ⟨rfl, rfl, rfl⟩)
    | ended v | joined v => exact .inl rfl
  · by_cases hconsole : id = consoleTask
    · subst hconsole
      cases console with
      | running => exact .inr (.inr ⟨rfl, rfl, rfl⟩)
      | ended v | joined v => exact .inl rfl
    · left
      have hnone : (crew ticker console).worker? id = none := by
        simp [Manager.worker?, crew, Ne.symm htick, Ne.symm hconsole]
      simp [Manager.attempt, Manager.step, hnone]

/-! ### Stopping -/

/-- What is wrong with the end of a body. -/
def failure? (name : String) (v : Verdict Unit) : Option WorkerFailure :=
  match v.result name with
  | .ok () => none
  | .error f => some f

/-- What comes of stopping both workers: the failure of the first one, if there is one. -/
def dismissal (v w : Verdict Unit) : Except WorkerFailure Unit :=
  match failure? "app-context" v <|> failure? "console" w with
  | some f => .error f
  | none => .ok ()

/-- How the body of a worker ends while it is waited for, where `last` is what it ends with if it
still runs. -/
def newEndings (id : TaskId) (last : Verdict Unit) : WorkerAt → List (TaskId × Verdict Unit)
  | .running => [(id, last)]
  | _ => []

/-- A worker that is waited for ends. -/
def parting (last : TaskId → Verdict Unit) (id : TaskId) : List ManagerAction :=
  [.finish id (last id)]

/-- Both workers are told to stop, end and are joined. -/
lemma perform_stopAll_crew (hticker : ∀ v, ticker ≠ .joined v) (hconsole : ∀ v, console ≠ .joined v)
    (last : TaskId → Verdict Unit) : ∃ es,
    (crew ticker console).perform .stopAll (parting last) =
      { dismissed (ticker.verdict (last tickTask)) (console.verdict (last consoleTask)) with
        history := .stoppedAll 0 (dismissal (ticker.verdict (last tickTask))
          (console.verdict (last consoleTask))) :: es } ∧
    es.filterMap ManagerEvent.ending? =
      newEndings consoleTask (last consoleTask) console ++
        newEndings tickTask (last tickTask) ticker := by
  set ws : List Worker := [{ id := tickTask, name := "app-context", phase := ticker },
    { id := consoleTask, name := "console", phase := console }] with hws
  have hunjoined : ∀ w ∈ ws, w.isJoined = false := by
    rw [hws, List.forall_mem_cons, List.forall_mem_singleton]
    constructor
    · cases ticker with
      | running | ended v => rfl
      | joined v => exact absurd rfl (hticker v)
    · cases console with
      | running | ended v => rfl
      | joined v => exact absurd rfl (hconsole v)
  have hfailure (v w : Verdict Unit) : batchResult (([
      { id := tickTask, name := "app-context", cancelled := true, phase := .joined v },
      { id := consoleTask, name := "console", cancelled := true, phase := .joined w }] :
        List Worker).findSome? Worker.failure?) = dismissal v w := by
    cases v <;> cases w <;> rfl
  have hids : (ws.map Worker.id).Nodup := show [tickTask, consoleTask].Nodup by decide
  obtain ⟨es, hstop, hcollects⟩ := Manager.perform_stopAll_listing last hids hunjoined
  refine ⟨es, ?_, ?_⟩
  · rw [← hfailure]
    exact hstop
  · rw [hcollects.endings, hws]
    cases ticker <;> cases console <;> rfl

/-- Nothing is left to stop, and nothing is said. -/
lemma perform_drop_dismissed (react : TaskId → List ManagerAction) : ∃ es : List ManagerEvent,
    (dismissed v w).perform .drop react = { dismissed v w with isAlive := false, history := es } ∧
      es.filterMap ManagerEvent.ending? = [] ∧ recordsOf (es.map .workers) = [] :=
  ⟨_, rfl, rfl, rfl⟩

lemma perform_drop_empty (react : TaskId → List ManagerAction) : ∃ es : List ManagerEvent,
    ({} : Manager).perform .drop react = { isAlive := false, history := es } ∧
      es.filterMap ManagerEvent.ending? = [] ∧ recordsOf (es.map .workers) = [] :=
  ⟨_, rfl, rfl, rfl⟩

end Session

end Overseer
