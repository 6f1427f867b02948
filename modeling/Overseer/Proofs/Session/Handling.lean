import Overseer.Proofs.Session.Effects

/-!
# What the main thread does for its commands

Each step of the main thread keeps the balance between what was asked for at the console and what
the session has done, from its first word to its last.
-/

namespace Overseer

namespace Session

open Console

variable {p : Plan} {s s' : Session} {taken : List Chunk} {handled : List Command}
  {file : Option String} {cwd : Location}

/-! ### The main thread -/

/-- A poll that finds nothing to handle goes on unless a stop was asked for. -/
lemma UnderWay.settle (h : UnderWay taken handled s) (hstanding : s.standing = .polling)
    (hword : s.daemon.word = .running ∨ s.daemon.word = .stop) :
    UnderWay taken handled (s.step p) := by
  obtain ⟨hstaffed, -⟩ := h.isAt hstanding
  have hasked := h.asked_at hstanding
  have hsettled : s.daemon.word.isTransient = false := by
    rcases hword with hword | hword <;> rw [hword] <;> rfl
  rw [step_of_settled hstanding h.arrivals hsettled]
  refine { h with trace := rfl, asked := ?_, effects := ?_, place := ?_ }
  · rcases hword with hword | hword <;> rw [hword] <;> exact hasked
  · rw [effects_append rfl]
    exact (congrArg (· ++ _) (List.append_nil _)).trans h.effects
  · have hstaffed' : IsStaffed { s with
        daemon := s.daemon.wiped
        journal := s.journal ++ [.loaded s.daemon.word, .loaded s.daemon.word].map .daemon
        standing := if s.daemon.word.isAlive then .fetching else .stopping } :=
      hstaffed.mono rfl (endings_subset rfl)
    rcases hword with hword | hword <;> simp only [hword] at hstaffed' ⊢
    · exact ⟨hstaffed', hword⟩
    · exact ⟨hstaffed', hword⟩

/-- A poll handles a request for a reload, and goes on. -/
lemma UnderWay.reload (h : UnderWay taken handled s) (hstanding : s.standing = .polling)
    (hservice : s.daemon.InService (Application.Finds file cwd)) (hword : s.daemon.word = .reload) :
    UnderWay taken handled (s.step p) := by
  obtain ⟨hstaffed, -⟩ := h.isAt hstanding
  obtain ⟨heffects, hreloads, hstopped⟩ := h.balance hword
  have hasked := h.asked_at hstanding
  rw [step_of_reload hstanding h.arrivals hword (hservice.slots .reload)
    hservice.site.reconfigure]
  refine { h with
    trace := rfl, asked := hasked, effects := ?_, reloads := hreloads, stopped := ?_
    place := ⟨hstaffed.mono rfl (endings_subset rfl), rfl⟩ }
  · -- the hook that was owed is run, and nothing is owed any more
    rw [effects_append rfl, effects_reload, ← heffects]
    exact List.append_nil _
  · rw [← hstopped]
    exact ⟨nofun, nofun⟩

/-- The next command is taken, if there is one. -/
lemma UnderWay.fetch (h : UnderWay taken handled s) (hstanding : s.standing = .fetching) :
    UnderWay taken handled (s.step p) := by
  obtain ⟨hstaffed, hword⟩ := h.isAt hstanding
  have hasked := h.asked_at hstanding
  cases hitems : s.commands.items with
  | nil =>
    rw [step_of_nothing hstanding h.room hitems]
    refine { h with asked := hasked, place := ⟨hstaffed.mono rfl (List.Subset.refl _), ?_⟩ }
    rw [hword]
    exact List.mem_cons_self
  | cons c rest =>
    rw [step_of_got hstanding h.room hitems]
    refine { h with asked := ?_, place := ⟨hstaffed.mono rfl (List.Subset.refl _), hword⟩ }
    rw [hasked, hitems]
    simp [MainAt.inHand]

/-- A command is carried out. -/
lemma UnderWay.handle (h : UnderWay taken handled s) {c : Command}
    (hstanding : s.standing = .handling c) :
    UnderWay taken (handled ++ [c]) (s.step p) := by
  obtain ⟨hstaffed, hword⟩ := h.isAt hstanding
  obtain ⟨heffects, hreloads, hstopped⟩ := h.balance hword
  -- a quit that was carried out before would have left its word
  have hgoes : .quit ∉ handled := fun hquit => by cases hstopped.mpr hquit
  rw [step_of_handling hstanding h.arrivals (by rw [hword]; decide), hword]
  refine { h with
    trace := rfl, asked := ?_, effects := ?_, reloads := ?_, stopped := ?_, last := ?_
    place := ⟨hstaffed.mono rfl (endings_subset (List.append_assoc _ _ _)), ?_⟩ }
  · rw [h.asked_at hstanding]
    simp [MainAt.inHand]
  · rw [effects_append (List.append_assoc _ _ _), List.append_assoc, effects_tale]
    rw [List.flatMap_append, ← List.cons_append, ← heffects]
    simp [State.owed]
  · rw [List.count_append, ← hreloads]
    cases c <;> rfl
  · simp only [List.mem_append, List.mem_singleton, hgoes, false_or]
    cases c <;> simp [Command.order?]
  · rwa [List.dropLast_concat]
  · cases c <;> simp [Command.order?]

/-- The reports of the tick worker are taken. -/
lemma UnderWay.report (h : UnderWay taken handled s) (hstanding : s.standing = .reporting) :
    UnderWay taken handled (s.step p) := by
  obtain ⟨hstaffed, hword⟩ := h.isAt hstanding
  have hasked := h.asked_at hstanding
  obtain ⟨rs, heard, hstep⟩ := step_of_reporting (p := p) hstanding
  rw [hstep]
  refine { h with
    asked := hasked, effects := ?_
    place := ⟨hstaffed.mono rfl (endings_subset rfl), hword⟩ }
  rw [effects_append rfl, effects_said, List.append_nil]
  exact h.effects

/-- Both workers are stopped. -/
lemma UnderWay.stop (hcontext : p.context = Application.context) (h : UnderWay taken handled s)
    (hstanding : s.standing = .stopping) : UnderWay taken handled (s.step p) := by
  obtain ⟨⟨ticker, console, hcrew, hticker, hconsole⟩, hword⟩ := h.isAt hstanding
  have hasked := h.asked_at hstanding
  obtain ⟨last, es, t, a, hstep, hreloads, hendings⟩ := step_of_stopping hcontext hstanding hcrew
    (fun v hjoined => by rw [hjoined] at hticker; exact hticker)
    (fun v hjoined => by rw [hjoined] at hconsole; exact hconsole)
  have hnew : (JournalEntry.said ⟨.info, .program, "The daemon process is stopping"⟩ ::
      es.map .workers).filterMap JournalEntry.ending? =
      newEndings tickTask last ticker ++ newEndings consoleTask (.value ()) console := by
    rw [List.filterMap_cons_none rfl, endings_workers, hendings]
  rw [hstep]
  refine { h with
    asked := hasked, effects := ?_, reloads := ?_
    place := ⟨⟨_, _, rfl, ?_, ?_, fun hv hw => ?_⟩, hword⟩ }
  · rw [effects_append rfl, List.filterMap_cons_none rfl, effects_workers, List.append_nil]
    exact h.effects
  · rw [← h.reloads, ← hreloads]
  · -- either the worker had ended before, or its end is told just now
    rw [endings_append rfl, hnew]
    cases ticker with
    | running => simp [newEndings, WorkerAt.verdict]
    | ended v => exact List.mem_append_left _ hticker
    | joined v => exact hticker.elim
  · rw [endings_append rfl, hnew]
    cases console with
    | running => simp [newEndings, WorkerAt.verdict]
    | ended v => exact List.mem_append_left _ hconsole
    | joined v => exact hconsole.elim
  · rw [hv, hw]
    rfl

lemma recordsOf_append (es es' : List JournalEntry) :
    recordsOf (es ++ es') = recordsOf es ++ recordsOf es' :=
  List.filterMap_append

/-- The daemon is closed, and the session is over. -/
lemma UnderWay.close (h : UnderWay taken handled s) {stopped : Except WorkerFailure Unit}
    (hstanding : s.standing = .closing stopped)
    (hservice : s.daemon.InService (Application.Finds file cwd)) :
    UnderWay taken handled (s.step p) := by
  obtain ⟨⟨v, w, hmanager, hticker, hconsole, hgood⟩, hword⟩ := h.isAt hstanding
  obtain ⟨heffects, hreloads, hstopped⟩ := h.balance hword
  have hasked := h.asked_at hstanding
  obtain ⟨es, hstep, hes, hrecords⟩ := step_of_closing (p := p) hstanding h.arrivals
    (hservice.slots .close) hmanager h.guard
  have hended : (s.step p).endings = s.endings := by
    rw [hstep, endings_append (s := s.shut) rfl, endings_append rfl, endings_daemon,
      List.filterMap_append, endings_said, endings_workers, hes]
    simp only [List.append_nil]
  have hunharmed : (s.step p).IsUnharmed → exitOf stopped = .success := by
    rw [IsUnharmed, hended]
    intro hunharmed
    rw [hgood (eq_value_of_isUnharmed hunharmed hticker)
      (eq_value_of_isUnharmed hunharmed hconsole), exitOf]
  rw [hstep] at hunharmed ⊢
  refine { h with
    trace := rfl, asked := hasked, effects := ?_, reloads := hreloads
    stopped := hstopped
    place := ⟨⟨⟨v, w, rfl⟩, hunharmed, fun hsuccess => ?_, ?_⟩, rfl⟩ }
  · rw [effects_append (s := s.shut) rfl, effects_append rfl, effects_setting (.inr rfl),
      List.filterMap_append, effects_said, effects_workers]
    simp only [List.append_nil]
    exact heffects
  · cases stopped with
    | error f => cases hsuccess
    | ok _ =>
      rw [recordsOf_append, recordsOf_append, hrecords, List.append_nil]
      exact List.getLast?_concat
  · cases stopped with
    | error f => exact .inr ⟨f, rfl⟩
    | ok _ => exact .inl rfl

/-- The main thread takes its next step, which carries out what it has in hand. -/
lemma UnderWay.main (hcontext : p.context = Application.context) (h : UnderWay taken handled s)
    (hservice : s.isOver = false → s.daemon.InService (Application.Finds file cwd)) :
    UnderWay taken (handled ++ s.standing.inHand) (s.step p) := by
  have hempty (hkept : UnderWay taken handled (s.step p)) :
      UnderWay taken (handled ++ []) (s.step p) := by
    rw [List.append_nil]
    exact hkept
  cases hstanding : s.standing with
  | starting => exact absurd hstanding h.begun
  | polling =>
    obtain hword | hword | hword := h.word_of_polling hstanding
    · exact hempty (h.settle hstanding (.inl hword))
    · exact hempty (h.reload hstanding (hservice (by rw [isOver, hstanding])) hword)
    · exact hempty (h.settle hstanding (.inr hword))
  | fetching => exact hempty (h.fetch hstanding)
  | handling c => exact h.handle hstanding
  | reporting => exact hempty (h.report hstanding)
  | stopping => exact hempty (h.stop hcontext hstanding)
  | closing stopped =>
    exact hempty (h.close hstanding (hservice (by rw [isOver, hstanding])))
  | ended exit =>
    have hsame : s.step p = s := step_ended hstanding
    refine hempty ?_
    rw [hsame]
    exact h

/-! ### The beginning -/

lemma reloads_validate (c : Config) (a : Site) :
    (Application.validate c a).2.1.app.reloads = a.app.reloads := by
  simp only [Application.validate]
  split
  · rfl
  · simp only
    split
    · split <;> rfl
    · rfl

/-- Where the configuration file is there, a configuration is refused for itself only. -/
lemma validate_of_failed {c : Config} {a : Site}
    (hfound : ∀ path, c.configFile = some path → a.host.pathExists path = true)
    (hfailed : (Application.validate c a).1.isFailed = true) : ∃ f, c.validate.1 = .error f := by
  simp only [Application.validate] at hfailed
  split at hfailed
  · rename_i f said hrefused
    exact ⟨f, by rw [hrefused]⟩
  · cases hfile : c.configFile with
    | none =>
      simp only [hfile] at hfailed
      cases hfailed
    | some path =>
      simp only [hfile, Application.lookFor_of_pathExists (hfound path hfile)] at hfailed
      cases hfailed

/-- The session was refused, and nothing was done. -/
structure Refused (p : Plan) (s : Session) : Prop where
  standing : s.standing = .ended (.failure .misconfigured)
  manager : s.manager = { isAlive := false }
  effects : s.effects = []
  word : s.daemon.word = .start
  reloads : s.daemon.app.app.reloads = 0
  commands : s.commands.items = []
  console : s.console = .reading
  invalid : ∃ f, p.config.validate.1 = .error f

/-- How far a session has come. -/
inductive Stage (p : Plan) (cwd : Location) (pid : Nat) :
    List Chunk → List Command → Session → Prop where
  | unbegun (host : Host) (clock : Moment) (hcwd : host.cwd = cwd)
      (hfound : ∀ path, p.config.configFile = some path → host.pathExists path = true)
      (hroom : (clock.after? patience).isSome = true) :
      Stage p cwd pid [] [] (Session.unbegun host pid clock)
  | refused {s : Session} (h : Refused p s) : Stage p cwd pid [] [] s
  | underWay {taken : List Chunk} {handled : List Command} {s : Session}
      (h : UnderWay taken handled s) : Stage p cwd pid taken handled s

lemma effects_preface (p : Plan) : (preface p).filterMap JournalEntry.effect? = [] := rfl

variable {host : Host} {pid : Nat} {clock : Moment}

lemma effects_examined : (examined p host pid clock).effects = [] := by
  rw [effects, examined, List.filterMap_append, effects_preface, effects_logged]
  rfl

lemma effects_opened : (opened p host pid clock).effects = [] := by
  rw [effects_append (s := examined p host pid clock) rfl, effects_examined,
    effects_setting (.inl rfl)]
  rfl

/-- A session begins, unless its configuration is refused. -/
lemma Stage.start (hcontext : p.context = Application.context)
    (hforeground : p.config.isDaemon = false)
    (hfound : ∀ path, p.config.configFile = some path → host.pathExists path = true)
    (hroom : (clock.after? patience).isSome = true) :
    Stage p cwd pid [] [] ((Session.unbegun host pid clock).step p) := by
  cases hvalid : (Application.validate p.config { host := host }).1.isFailed with
  | true =>
    obtain ⟨es, hstep⟩ := step_of_refused pid clock hcontext hvalid
    rw [hstep]
    refine .refused ⟨rfl, rfl, ?_, rfl, reloads_validate _ _, rfl, rfl,
      validate_of_failed (a := { host := host }) hfound hvalid⟩
    rw [effects_append (s := examined p host pid clock) rfl, effects_examined, effects_workers]
    rfl
  | false =>
    obtain ⟨es, hstep⟩ := step_of_opened pid clock hcontext hforeground hvalid
    rw [hstep]
    refine .underWay {
      arrivals := rfl, trace := rfl, guard := rfl, room := hroom, asked := rfl
      reading := fun _ => ⟨rfl, rfl⟩
      effects := ?_
      reloads := reloads_validate _ _
      stopped := ⟨nofun, nofun⟩
      last := nofun
      place := ⟨⟨.running, .running, rfl, trivial, trivial⟩, List.mem_cons_self⟩ }
    rw [effects_append (s := opened p host pid clock) (List.append_assoc _ _ _), effects_opened,
      List.filterMap_append, effects_workers]
    rfl

end Session

end Overseer
