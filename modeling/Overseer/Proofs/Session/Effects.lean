import Overseer.Proofs.Console.Lines
import Overseer.Proofs.Session.Steps

/-!
# What a session does for its commands

A command asks something of the daemon or writes an answer, and a request for a reload is handled
by the next poll. What a session has taken in at the console accounts for all that it has done, is
doing and has to do, and a step of the main thread or of anybody else keeps the balance as long as
no signal comes in.
-/

namespace Overseer

/-- What a session does for a command. -/
inductive Effect where
  /-- A state was asked for, and either took its place in the word or was refused. -/
  | requested (r : State) (accepted : Bool)
  /-- A request was handled by running a hook. -/
  | handled (r : State) (hook : Option (Program Site))
  | wrote (p : Printed)

/-- The effect that an event of the daemon tells of. -/
def Event.effect? : Event Site → Option Effect
  | requested r accepted => some (.requested r accepted)
  | invoked (.handling r) hook _ => some (.handled r hook)
  | _ => none

/-- The effect that an entry tells of. -/
def JournalEntry.effect? : JournalEntry → Option Effect
  | daemon e => e.effect?
  | printed p => some (.wrote p)
  | _ => none

/-- The reload hook was run. -/
def Effect.reloaded : Effect := .handled .reload (some (.act Application.reconfigure))

/-- All that is done for a command. -/
def Command.effects : Command → List Effect
  | quit => [.requested .stop true, .wrote {}]
  | reload => [.requested .reload true, .wrote {}, .reloaded]
  | version => [.wrote { output := " v." ++ Overseer.version ++ "\n" }]
  | help => [.wrote { complaints := Console.help ++ "\n" }]

/-- What the next poll does if it finds this word. -/
def State.owed : State → List Effect
  | reload => [.reloaded]
  | _ => []

/-- The command that is being carried out. -/
def MainAt.inHand : MainAt → List Command
  | handling c => [c]
  | _ => []

/-- Whether the console reads again once all it has read is queued. -/
def ConsoleAt.readsOn : ConsoleAt → Bool
  | reading => true
  | queueing _ more => more

namespace Session

/-- What a session has done, in order. -/
def effects (s : Session) : List Effect := s.journal.filterMap JournalEntry.effect?

/-- What is written when the main loop begins. -/
def greeting : Printed := { output := "Press the h key to display the Console Menu...\n" }

/-- The session is over. It has ended well unless a worker has panicked, and it says so. -/
structure HasEnded (s : Session) (exit : Exit) : Prop where
  crew : ∃ v w, s.manager = { dismissed v w with isAlive := false }
  unharmed : s.IsUnharmed → exit = .success
  reported : exit = .success →
    (recordsOf s.journal).getLast? = some (report s.daemon.app.app.reloads)
  failed : exit = .success ∨ ∃ f, exit = .failure (.workerFailed f)

/-- What is to be found where the main thread stands, once the session has begun. -/
def IsAt (s : Session) : MainAt → Prop
  | .starting => False
  | .polling | .reporting => s.IsStaffed ∧ s.daemon.word ∈ [.running, .reload, .stop]
  | .fetching | .handling _ => s.IsStaffed ∧ s.daemon.word = .running
  | .stopping => s.IsStaffed ∧ s.daemon.word = .stop
  | .closing stopped => s.IsDismissed stopped ∧ s.daemon.word = .stop
  | .ended exit => s.HasEnded exit ∧ s.daemon.word = .stop

/-- The session has taken in `taken` and has carried out `handled`, and nothing is lost. -/
structure UnderWay (taken : List Console.Chunk) (handled : List Command) (s : Session) :
    Prop where
  arrivals : s.daemon.arrivals = []
  trace : s.daemon.trace = []
  guard : s.guard = none
  room : (s.clock.after? patience).isSome = true
  asked : Console.asked taken =
    handled ++ s.standing.inHand ++ s.commands.items ++ s.console.todo
  reading : s.console.readsOn = true →
    Console.isClosed taken = false ∧ s.pending = Console.unfinished taken
  effects : s.effects ++ s.daemon.word.owed = .wrote greeting :: handled.flatMap Command.effects
  reloads : s.daemon.app.app.reloads + s.daemon.word.owed.length = handled.count .reload
  stopped : s.daemon.word = .stop ↔ .quit ∈ handled
  last : .quit ∉ handled.dropLast
  place : s.IsAt s.standing

variable {p : Plan} {s s' : Session} {taken : List Console.Chunk} {handled : List Command}

/-! ### What is known at a place -/

section

variable {m : MainAt} {r : State}

lemma UnderWay.isAt (h : UnderWay taken handled s) (hstanding : s.standing = m) : s.IsAt m :=
  hstanding ▸ h.place

lemma UnderWay.asked_at (h : UnderWay taken handled s) (hstanding : s.standing = m) :
    Console.asked taken = handled ++ m.inHand ++ s.commands.items ++ s.console.todo :=
  hstanding ▸ h.asked

lemma UnderWay.balance (h : UnderWay taken handled s) (hword : s.daemon.word = r) :
    s.effects ++ r.owed = .wrote greeting :: handled.flatMap Command.effects ∧
      s.daemon.app.app.reloads + r.owed.length = handled.count .reload ∧
      (r = .stop ↔ .quit ∈ handled) :=
  hword ▸ ⟨h.effects, h.reloads, h.stopped⟩

lemma UnderWay.begun (h : UnderWay taken handled s) : s.standing ≠ .starting :=
  fun hstarting => h.isAt hstarting

lemma UnderWay.word_of_polling (h : UnderWay taken handled s) (hstanding : s.standing = .polling) :
    s.daemon.word = .running ∨ s.daemon.word = .reload ∨ s.daemon.word = .stop := by
  have hword := (h.isAt hstanding).2
  simpa only [List.mem_cons, List.not_mem_nil, or_false] using hword

end

/-! ### What tells of no effect -/

lemma effects_append {es : List JournalEntry} (h : s'.journal = s.journal ++ es) :
    s'.effects = s.effects ++ es.filterMap JournalEntry.effect? := by
  rw [effects, effects, h, List.filterMap_append]

@[simp] lemma effects_said (rs : Records) :
    (rs.map JournalEntry.said).filterMap JournalEntry.effect? = [] :=
  List.filterMap_eq_nil_iff.mpr (List.forall_mem_map.mpr fun _ _ => rfl)

@[simp] lemma effects_workers (es : List ManagerEvent) :
    (es.map JournalEntry.workers).filterMap JournalEntry.effect? = [] :=
  List.filterMap_eq_nil_iff.mpr (List.forall_mem_map.mpr fun _ _ => rfl)

@[simp] lemma effects_logged (rs : Records) :
    ((rs.map Event.logged).map JournalEntry.daemon).filterMap JournalEntry.effect? = [] := by
  rw [List.map_map]
  exact List.filterMap_eq_nil_iff.mpr (List.forall_mem_map.mpr fun _ _ => rfl)

lemma effects_setting {t : Transition} (ht : t = .starting ∨ t = .closing) (w : State)
    (f : Site → Outcome × Site × Records) (a : Site) (said : String) :
    ((Daemon.settingTale t w f a said).map JournalEntry.daemon).filterMap JournalEntry.effect? =
      [] := by
  rcases ht with rfl | rfl <;>
    simp [Daemon.settingTale, Transition.tale, JournalEntry.effect?, Event.effect?,
      List.filterMap_cons]

/-! ### What does -/

/-- A poll that handles a request for a reload runs its hook. -/
lemma effects_reload (a : Site) :
    ((Event.loaded .reload :: (Daemon.dispatchTale .reload Application.reconfigure a ++
      [.loaded .running])).map JournalEntry.daemon).filterMap JournalEntry.effect? =
      [.reloaded] := by
  simp [Daemon.dispatchTale, Transition.tale, JournalEntry.effect?, Event.effect?,
    List.filterMap_cons, Effect.reloaded]

/-- A command is carried out at once, but that a poll has to follow a request for a reload. -/
lemma effects_tale (c : Command) :
    (c.tale.map JournalEntry.daemon ++ [JournalEntry.printed c.answer]).filterMap
      JournalEntry.effect? ++ (c.order?.getD .running).owed = c.effects := by
  cases c <;> rfl

/-! ### Beside the main thread -/

/-- What the console takes in if this happens. -/
def takes (s : Session) : Happening → List Console.Chunk
  | .read c => if s.console = .reading ∧ s.works consoleTask = true then [c] else []
  | _ => []

lemma Accounts.mono {id : TaskId} {w : WorkerAt} (h : s.Accounts id w)
    (hendings : s.endings ⊆ s'.endings) : s'.Accounts id w := by
  cases w with
  | running => trivial
  | ended v => exact hendings h
  | joined v => exact h

lemma IsStaffed.mono (h : s.IsStaffed) (hmanager : s'.manager = s.manager)
    (hendings : s.endings ⊆ s'.endings) : s'.IsStaffed := by
  obtain ⟨ticker, console, hcrew, hticker, hconsole⟩ := h
  exact ⟨ticker, console, hmanager.trans hcrew, hticker.mono hendings, hconsole.mono hendings⟩

/-- Of what the main thread has to do with, only the count of ticks has changed. -/
lemma IsAt.of_same {m : MainAt} (h : s.IsAt m) (hmanager : s'.manager = s.manager)
    (hjournal : s'.journal = s.journal) (hword : s'.daemon.word = s.daemon.word)
    (hreloads : s'.daemon.app.app.reloads = s.daemon.app.app.reloads) : s'.IsAt m := by
  have hendings : s'.endings = s.endings := by rw [endings, hjournal, endings]
  have hstaffed (hs : s.IsStaffed) : s'.IsStaffed :=
    hs.mono hmanager (by rw [hendings]; exact List.Subset.refl _)
  cases m with
  | starting => exact h
  | polling | reporting | fetching | handling c | stopping =>
    exact ⟨hstaffed h.1, by rw [hword]; exact h.2⟩
  | closing stopped =>
    obtain ⟨⟨v, w, hcrew, hticker, hconsole, hstopped⟩, hstop⟩ := h
    refine ⟨⟨v, w, hmanager.trans hcrew, ?_, ?_, hstopped⟩, hword.trans hstop⟩
    · rw [hendings]
      exact hticker
    · rw [hendings]
      exact hconsole
  | ended exit =>
    obtain ⟨⟨⟨v, w, hcrew⟩, hunharmed, hreported, hfailed⟩, hstop⟩ := h
    refine ⟨⟨⟨v, w, hmanager.trans hcrew⟩, ?_, ?_, hfailed⟩, hword.trans hstop⟩
    · rw [IsUnharmed, hendings]
      exact hunharmed
    · rw [hjournal, hreloads]
      exact hreported

/-- Time goes by, and the application changes, but no reload is counted. -/
lemma UnderWay.drift (h : UnderWay taken handled s) {clock : Moment}
    (hroom : (clock.after? patience).isSome = true) (t : Ticker Site) {a : Site}
    (hreloads : a.app.reloads = s.daemon.app.app.reloads) :
    UnderWay taken handled
      { s with clock := clock, ticker := t, daemon := { s.daemon with app := a } } :=
  { h with
    room := hroom
    reloads := by rw [← h.reloads, ← hreloads]
    place := h.place.of_same rfl rfl rfl hreloads }

/-- What workers tell is no effect. -/
lemma UnderWay.of_workers (h : UnderWay taken handled s) (m : Manager) (es : List ManagerEvent)
    (hplace : IsAt { s with manager := m, journal := s.journal ++ es.map .workers }
      s.standing) :
    UnderWay taken handled { s with manager := m, journal := s.journal ++ es.map .workers } :=
  { h with
    effects := by
      rw [effects_append rfl, effects_workers, List.append_nil]
      exact h.effects
    place := hplace }

lemma endings_endWorker (s : Session) (id : TaskId) (v : Verdict Unit) :
    (s.endWorker id v).endings = s.endings ++
      (s.manager.attempt [.finish id v]).history.reverse.filterMap ManagerEvent.ending? := by
  rw [endings_append rfl, endings_workers]

lemma IsStaffed.endWorker (h : s.IsStaffed) (id : TaskId) (v : Verdict Unit) :
    (s.endWorker id v).IsStaffed := by
  have hgrown : s.endings ⊆ (s.endWorker id v).endings := by
    rw [endings_endWorker]
    exact List.subset_append_left _ _
  have hmanager : (s.endWorker id v).manager =
      { s.manager.attempt [.finish id v] with history := [] } := rfl
  obtain ⟨ticker, console, hcrew, hticker, hconsole⟩ := h
  rcases attempt_finish_crew ticker console id v with
    hsame | ⟨rfl, rfl, hended⟩ | ⟨rfl, rfl, hended⟩
  · refine ⟨ticker, console, ?_, hticker.mono hgrown, hconsole.mono hgrown⟩
    rw [hmanager, hcrew, hsame]
    rfl
  · refine ⟨.ended v, console, ?_, ?_, hconsole.mono hgrown⟩
    · rw [hmanager, hcrew, hended]
      rfl
    · rw [Accounts, endings_endWorker, hcrew, hended]
      exact List.mem_append_right _ (List.mem_singleton_self _)
  · refine ⟨ticker, .ended v, ?_, hticker.mono hgrown, ?_⟩
    · rw [hmanager, hcrew, hended]
      rfl
    · rw [Accounts, endings_endWorker, hcrew, hended]
      exact List.mem_append_right _ (List.mem_singleton_self _)

lemma endWorker_of_idle {id : TaskId} {v : Verdict Unit}
    (hsame : s.manager.attempt [.finish id v] = s.manager) (hhistory : s.manager.history = []) :
    s.endWorker id v = s := by
  rw [endWorker, absorb, hsame, hhistory]
  simp only [List.reverse_nil, List.map_nil, List.append_nil]
  rw [← hhistory]

/-- Workers that were stopped do not end again. -/
lemma attempt_finish_dismissed (v w x : Verdict Unit) (b : Bool) (id : TaskId) :
    ({ dismissed v w with isAlive := b } : Manager).attempt [.finish id x] =
      { dismissed v w with isAlive := b } := by
  by_cases htick : id = tickTask
  · subst htick
    rfl
  · by_cases hconsole : id = consoleTask
    · subst hconsole
      rfl
    · have hnone : ({ dismissed v w with isAlive := b } : Manager).worker? id = none := by
        simp [Manager.worker?, dismissed, Ne.symm htick, Ne.symm hconsole]
      simp [Manager.attempt, Manager.step, hnone]

lemma UnderWay.endWorker (h : UnderWay taken handled s) (id : TaskId) (v : Verdict Unit) :
    UnderWay taken handled (s.endWorker id v) := by
  have hworkers (hplace : (s.endWorker id v).IsAt s.standing) :
      UnderWay taken handled (s.endWorker id v) := h.of_workers _ _ hplace
  cases hstanding : s.standing with
  | starting => exact absurd hstanding h.begun
  | polling | reporting | fetching | handling c | stopping =>
    obtain ⟨hstaffed, hword⟩ := h.isAt hstanding
    rw [hstanding] at hworkers
    exact hworkers ⟨hstaffed.endWorker id v, hword⟩
  | closing stopped =>
    obtain ⟨⟨v', w', hcrew, -⟩, -⟩ := h.isAt hstanding
    have hsame : s.endWorker id v = s := endWorker_of_idle
      (by rw [hcrew]; exact attempt_finish_dismissed v' w' v true id) (by rw [hcrew]; rfl)
    rw [hsame]
    exact h
  | ended exit =>
    obtain ⟨⟨⟨v', w', hcrew⟩, -⟩, -⟩ := h.isAt hstanding
    have hsame : s.endWorker id v = s := endWorker_of_idle
      (by rw [hcrew]; exact attempt_finish_dismissed v' w' v false id) (by rw [hcrew]; rfl)
    rw [hsame]
    exact h

lemma UnderWay.onTicker (h : UnderWay taken handled s) {f : Ticker Site → Ticker Site}
    (hf : (f { s.ticker with app := s.daemon.app }).app.app.reloads =
      s.daemon.app.app.reloads) : UnderWay taken handled (s.onTicker f) := by
  have hdrifted : UnderWay taken handled (s.withTicker (f { s.ticker with app := s.daemon.app })) :=
    h.drift h.room _ hf
  simp only [Session.onTicker]
  split
  · split
    · exact hdrifted.endWorker _ _
    · exact hdrifted
  · exact h

/-- A console that is ready takes in what was read, and reads on unless the input has ended. -/
lemma hear_of_ready (hreading : s.console = .reading) (hworks : s.works consoleTask = true)
    (c : Console.Chunk) : ∃ more,
      s.hear c = { s with
        pending := (Console.forward s.pending c).2.pending
        console := .queueing (Console.forward s.pending c).2.commands more } ∧
      (more = true → (Console.forward s.pending c).1 = .ok true) := by
  simp only [Session.hear, hreading, if_pos hworks]
  rcases Console.forward s.pending c with ⟨_ | more, reading⟩
  · exact ⟨false, rfl, fun h => Bool.noConfusion h⟩
  · cases more with
    | true => exact ⟨true, rfl, fun _ => rfl⟩
    | false => exact ⟨false, rfl, fun h => Bool.noConfusion h⟩

/-- A console that is not ready does not read. -/
lemma hear_of_not_ready (h : ¬ (s.console = .reading ∧ s.works consoleTask = true))
    (c : Console.Chunk) : s.hear c = s := by
  simp only [Session.hear]
  split
  · rename_i hreading
    rw [if_neg fun hworks => h ⟨hreading, hworks⟩]
  · rfl

/-- The console takes in what was read. -/
lemma UnderWay.hear (h : UnderWay taken handled s) (c : Console.Chunk) :
    UnderWay (taken ++ s.takes (.read c)) handled (s.hear c) := by
  by_cases hready : s.console = .reading ∧ s.works consoleTask = true
  · have htakes : s.takes (.read c) = [c] := if_pos hready
    obtain ⟨hreading, hworks⟩ := hready
    obtain ⟨hopen, hpending⟩ := h.reading (by rw [hreading]; rfl)
    obtain ⟨more, hhear, hmore⟩ := hear_of_ready hreading hworks c
    have hasked := h.asked
    rw [hreading, ConsoleAt.todo, List.append_nil] at hasked
    rw [htakes, hhear]
    refine { h with
      asked := ?_, reading := fun hreadsOn => ?_, place := h.place.of_same rfl rfl rfl rfl }
    · rw [Console.asked_concat hopen, hasked, hpending]
      rfl
    · have hforward := hmore hreadsOn
      rw [hpending] at hforward ⊢
      exact Console.unfinished_concat hopen (Prod.ext hforward rfl)
  · have htakes : s.takes (.read c) = [] := if_neg hready
    rw [htakes, hear_of_not_ready hready, List.append_nil]
    exact h

/-- The console queues what it has read. -/
lemma UnderWay.queue (h : UnderWay taken handled s) : UnderWay taken handled s.queue := by
  have hasked := h.asked
  have hreading := h.reading
  simp only [Session.queue]
  split
  · split
    · exact h
    · rename_i c todo more hconsole
      rw [hconsole] at hasked hreading
      refine { h with
        asked := ?_, reading := hreading, place := h.place.of_same rfl rfl rfl rfl }
      rw [hasked]
      simp [ConsoleAt.todo, Deque.push]
    · rename_i hconsole
      rw [hconsole] at hasked hreading
      exact { h with
        asked := hasked, reading := fun _ => hreading rfl
        place := h.place.of_same rfl rfl rfl rfl }
    · exact h.endWorker _ _
  · exact h

/-- Nothing comes in from outside, the configuration file stays where it is, and clocks can show
when a wait is over. -/
def Move.IsCalm (file : Option String) (cwd : Location) : Session.Move → Prop
  | .beside (.signal _) => False
  | .beside (.work now) => (now.after? patience).isSome = true
  | m => m.Spares file cwd

lemma UnderWay.beside (hcontext : p.context = Application.context) {file : Option String}
    {cwd : Location} {h : Happening} (hcalm : Move.IsCalm file cwd (.beside h))
    (hs : UnderWay taken handled s) :
    UnderWay (taken ++ s.takes h) handled (s.happen p h) := by
  have hquiet (hnone : s.takes h = []) (hkept : UnderWay taken handled (s.happen p h)) :
      UnderWay (taken ++ s.takes h) handled (s.happen p h) := by
    rw [hnone, List.append_nil]
    exact hkept
  cases h with
  | read c => exact hs.hear c
  | signal sig => exact hcalm.elim
  | queue => exact hquiet rfl hs.queue
  | work now =>
    have hclock : UnderWay taken handled { s with clock := now } := hs.drift hcalm s.ticker rfl
    refine hquiet rfl (hclock.onTicker (f := (·.work p.context.tick now)) ?_)
    refine Ticker.app_work (J := fun a : Site => a.app.reloads = s.daemon.app.app.reloads)
      (fun least a ha => ?_) rfl now
    rw [hcontext]
    exact ha
  | elapse => exact hquiet rfl (hs.onTicker (by rw [Ticker.app_elapse]))
  | crash id payload => exact hquiet rfl (hs.endWorker id _)
  | change t => exact hquiet rfl (hs.drift hs.room s.ticker rfl)

end Session

end Overseer
