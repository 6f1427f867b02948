import Overseer.Proofs.Lifecycle.Alone
import Overseer.Proofs.Session.Crew
import Overseer.Proofs.Session.Reloads

/-!
# Steps of an undisturbed session

While nothing comes in from outside, what the main thread does with its next step is settled by
where it stands, by the word of the daemon and by the commands that are queued.
-/

namespace Overseer

namespace Command

/-- What a command asks of the daemon. -/
def order? : Command → Option State
  | quit => some .stop
  | reload => some .reload
  | version | help => none

/-- What a command writes. -/
def answer : Command → Printed
  | version => { output := " v." ++ Overseer.version ++ "\n" }
  | help => { complaints := Console.help ++ "\n" }
  | quit | reload => {}

/-- What is told of a command that is carried out. -/
def tale : Command → List (Event Site)
  | quit => [.logged ⟨.info, .program, "Quit requested from console"⟩, .requested .stop true]
  | reload => [.logged ⟨.info, .program, "Reload requested from console"⟩, .requested .reload true]
  | version | help => []

/-- A command that finds the daemon in service gets what it asks for. -/
lemma handle_of_nil {d : Daemon Site} (h : d.arrivals = []) (hw : d.word ≠ .stop) (c : Command) :
    c.handle d = (.returned c.answer,
      { d with word := c.order?.getD d.word, trace := d.trace ++ c.tale }) := by
  have hasked (message : String) (s : State) :
      (do
        Act.log .info .program message
        discard (Act.request s)
        return {} : Act Site Printed) d =
      (.returned {}, { d with
        word := s
        trace := d.trace ++ [.logged ⟨.info, .program, message⟩, .requested s true] }) := by
    have hdiscard : (discard (Act.request s) : Act Site Unit) =
        (Act.request s).andThen fun _ => .done () := rfl
    have hrequest (e : Daemon Site) (he : e.arrivals = []) (hword : e.word ≠ .stop) :
        ((Act.request s).andThen fun _ => .done ()) e = (.returned (),
          { e with word := s, trace := e.trace ++ [.requested s true] }) :=
      Act.andThen_returned (Act.request_of_nil he hword s)
    simp only [Act.bind_eq, Act.pure_eq, hdiscard]
    refine (Act.andThen_returned (Act.log_eq _ _ _ _)).trans ?_
    refine (Act.andThen_returned (hrequest _ (by exact h) (by exact hw))).trans ?_
    simp only [Act.done, List.append_assoc, List.cons_append, List.nil_append]
  cases c with
  | quit => exact hasked _ _
  | reload => exact hasked _ _
  | version | help => simp only [handle, order?, answer, tale, Option.getD_none, List.append_nil,
      Act.pure_eq, Act.done]

end Command

namespace Deque

variable {α : Type} {now : Moment} {t : Span}

lemma pop_front_of_cons {d : Deque α} {a : α} {as : List α} (hd : d.items = a :: as)
    (hroom : (now.after? t).isSome = true) : d.pop now .front (.upTo t) = (.got a, ⟨as⟩) := by
  have hclear : (Patience.upTo t).overflows now = false := by
    rw [Patience.overflows, Option.isNone_eq_false_iff.mpr hroom]
  have htake : d.take? .front = some (a, ⟨as⟩) := by
    rw [take?, peek?, drop, hd]
    rfl
  rw [pop, hclear, htake]
  rfl

lemma pop_front_of_nil {d : Deque α} (hd : d.items = []) (hroom : (now.after? t).isSome = true) :
    d.pop now .front (.upTo t) = (.nothing, d) := by
  have hclear : (Patience.upTo t).overflows now = false := by
    rw [Patience.overflows, Option.isNone_eq_false_iff.mpr hroom]
  have htake : d.take? .front = none := by
    rw [take?, peek?, hd]
    rfl
  rw [pop, hclear, htake]
  rfl

end Deque

lemma Daemon.install_of_deaf {σ : Type} {d : Daemon σ} (h : d.installed = false) :
    install d = (.returned (), { d with
      installed := true
      trace := d.trace ++ [.logged ⟨.info, .signals,
        "OS signal handlers installed (SIGINT, SIGTERM, SIGHUP, SIGUSR1, SIGUSR2)"⟩] }) := by
  simp only [install, Act.bind_eq, Act.andThen, Act.get, h]
  rfl

lemma Daemon.perform_bindAll {σ : Type} (hooks : Slot → Program σ) (d : Daemon σ) :
    perform 1 (.bindAll hooks) d = (.returned .unit, { d with
      slots := fun slot => some (hooks slot)
      trace := d.trace ++ [.began (.bindAll hooks)] ++ [.boundAll hooks] ++
        [.logged ⟨.debug, .lifecycle, "Lifecycle context bound to daemon hooks"⟩] ++
        [.ended (.bindAll hooks) .unit] }) :=
  rfl

namespace Session

variable {p : Plan} {s : Session} {α : Type} {ticker console : WorkerAt} {v w : Verdict Unit}

/-! ### The main loop -/

lemma onDaemon_of_returned {x : Act Site α} {a : α} {d : Daemon Site}
    (h : x s.daemon.wiped = (.returned a, d)) :
    s.onDaemon x = (.returned a,
      { s with daemon := d.wiped, journal := s.journal ++ d.trace.map .daemon }) := by
  simp only [onDaemon, Daemon.wiped] at h ⊢
  rw [h]

/-- A poll with nothing to handle. -/
lemma step_of_settled (hstanding : s.standing = .polling) (harrivals : s.daemon.arrivals = [])
    (hw : s.daemon.word.isTransient = false) :
    s.step p = { s with
      daemon := s.daemon.wiped
      journal := s.journal ++
        [.loaded s.daemon.word, .loaded s.daemon.word].map .daemon
      standing := if s.daemon.word.isAlive then .fetching else .stopping } := by
  have hpoll : Daemon.poll (run p) s.daemon.wiped = _ :=
    Daemon.poll_of_settled (by exact harrivals) (by exact hw)
  rw [step_polling hstanding, onDaemon_of_returned hpoll]
  rfl

/-- A poll that handles a request for a reload. -/
lemma step_of_reload (hstanding : s.standing = .polling) (harrivals : s.daemon.arrivals = [])
    (hw : s.daemon.word = .reload)
    (hslot : s.daemon.slots .reload = some (.act Application.reconfigure))
    (hpassed : (Application.reconfigure s.daemon.app).1 = .passed) :
    s.step p = { s with
      daemon := { s.daemon.wiped with
        word := .running, app := (Application.reconfigure s.daemon.app).2.1 }
      journal := s.journal ++ (.loaded .reload ::
        (Daemon.dispatchTale .reload Application.reconfigure s.daemon.app ++
          [.loaded .running])).map .daemon
      standing := .fetching } := by
  have hpoll : Daemon.poll (run p) s.daemon.wiped = _ :=
    Daemon.poll_of_request (by exact harrivals) (by exact hw) rfl (by exact hslot)
      (by rw [Daemon.wiped, hpassed]; rfl)
  rw [step_polling hstanding, onDaemon_of_returned hpoll]
  rfl

/-- A command is waiting. -/
lemma step_of_got (hstanding : s.standing = .fetching)
    (hroom : (s.clock.after? patience).isSome = true) {c : Command} {rest : List Command}
    (hcommands : s.commands.items = c :: rest) :
    s.step p = { s with commands := ⟨rest⟩, standing := .handling c } := by
  have hpop := Deque.pop_front_of_cons hcommands hroom
  rw [step, hstanding]
  -- the wait itself is better not computed
  generalize s.commands.pop s.clock .front (.upTo patience) = fetched at hpop ⊢
  rw [hpop]

/-- No command is waiting. -/
lemma step_of_nothing (hstanding : s.standing = .fetching)
    (hroom : (s.clock.after? patience).isSome = true) (hcommands : s.commands.items = []) :
    s.step p = { s with standing := .reporting } := by
  have hpop := Deque.pop_front_of_nil hcommands hroom
  rw [step, hstanding]
  generalize s.commands.pop s.clock .front (.upTo patience) = fetched at hpop ⊢
  rw [hpop]

/-- A command is carried out. -/
lemma step_of_handling {c : Command} (hstanding : s.standing = .handling c)
    (harrivals : s.daemon.arrivals = []) (hw : s.daemon.word ≠ .stop) :
    s.step p = { s with
      daemon := { s.daemon.wiped with word := c.order?.getD s.daemon.word }
      journal := s.journal ++ c.tale.map .daemon ++ [.printed c.answer]
      standing := .reporting } := by
  have hhandle : c.handle s.daemon.wiped = _ :=
    Command.handle_of_nil (by exact harrivals) (by exact hw) c
  rw [step_handling hstanding, onDaemon_of_returned hhandle]
  rfl

/-- The reports of the tick worker are taken. -/
lemma step_of_reporting (hstanding : s.standing = .reporting) : ∃ (rs : Records) (heard : Nat),
    s.step p = { s with
      journal := s.journal ++ rs.map .said, heard := heard, standing := .polling } := by
  have hsaid (reports : List TickReport) (u : Session) : ∃ rs : Records,
      reports.foldl (fun s r => s.say .debug ("Application tick " ++ toString r.number ++
        " (next in " ++ toString r.interval.millis ++ " ms)")) u =
      { u with journal := u.journal ++ rs.map .said } := by
    induction reports generalizing u with
    | nil => exact ⟨[], by rw [List.map_nil, List.append_nil]; rfl⟩
    | cons r reports ih =>
      obtain ⟨rs, hrs⟩ := ih (u.say .debug ("Application tick " ++ toString r.number ++
        " (next in " ++ toString r.interval.millis ++ " ms)"))
      rw [List.foldl_cons, hrs, say, write, List.append_assoc]
      exact ⟨_ :: rs, rfl⟩
  obtain ⟨rs, hrs⟩ := hsaid (s.ticker.reports.drop s.heard) s
  rw [Session.step_reporting hstanding, takeReports]
  refine ⟨rs, s.ticker.reports.length, ?_⟩
  simp only [hrs]

/-! ### The end -/

/-- The workers are stopped. The tick worker may tick once more. -/
lemma step_of_stopping (hcontext : p.context = Application.context)
    (hstanding : s.standing = .stopping) (hcrew : s.manager = crew ticker console)
    (hticker : ∀ v, ticker ≠ .joined v) (hconsole : ∀ v, console ≠ .joined v) :
    ∃ (last : Verdict Unit) (es : List ManagerEvent) (t : Ticker Site) (a : Site),
      s.step p = { s with
        daemon := { s.daemon with app := a }
        manager := dismissed (ticker.verdict last) (console.verdict (.value ()))
        ticker := t
        journal := s.journal ++
          (.said ⟨.info, .program, "The daemon process is stopping"⟩ :: es.map .workers)
        standing := .closing (dismissal (ticker.verdict last) (console.verdict (.value ()))) } ∧
      a.app.reloads = s.daemon.app.app.reloads ∧
      es.filterMap ManagerEvent.ending? =
        newEndings tickTask last ticker ++ newEndings consoleTask (.value ()) console := by
  set u := s.say .info "The daemon process is stopping" with hu
  obtain ⟨es, hstop, hes⟩ := perform_stopAll_crew hticker hconsole (u.lastWords p)
  rw [← hcrew] at hstop
  have hmanaged : u.managed p .stopAll = _ := hstop
  have hlastTick : (u.lastTick p).app.app.reloads = s.daemon.app.app.reloads := by
    refine Ticker.app_stop (J := fun a : Site => a.app.reloads = s.daemon.app.app.reloads)
      (fun least a ha => ?_) rfl _
    rw [hcontext]
    exact ha
  obtain ⟨t, a, hticked, ha⟩ : ∃ t a,
      (if u.works tickTask then u.withTicker (u.lastTick p) else u) =
        { u with ticker := t, daemon := { u.daemon with app := a } } ∧
      a.app.reloads = s.daemon.app.app.reloads := by
    split
    · exact ⟨_, _, rfl, hlastTick⟩
    · exact ⟨u.ticker, u.daemon.app, rfl, rfl⟩
  refine ⟨u.lastWords p tickTask, (ManagerEvent.stoppedAll 0 (dismissal
    (ticker.verdict (u.lastWords p tickTask)) (console.verdict (u.lastWords p consoleTask))) ::
      es).reverse, t, a, ?_, ha, ?_⟩
  · rw [step, hstanding]
    simp only [stopWorkers]
    rw [← hu, hticked, hmanaged]
    simp only [absorb, hu, say, write, List.append_assoc, List.cons_append, List.nil_append]
    rfl
  · rw [List.filterMap_reverse, List.filterMap_cons_none rfl, hes]
    cases ticker <;> cases console <;> rfl

/-- What is said when a session has ended well. -/
def report (reloads : Nat) : Record :=
  ⟨.info, .program, "The daemon process ended successfully (" ++ toString reloads ++
    " reloads handled)"⟩

/-- The workers are stopped, so the program ends without a word. -/
lemma finish_of_dismissed (hmanager : s.manager = dismissed v w) (hguard : s.guard = none)
    (exit : Exit) : ∃ es : List ManagerEvent,
      s.finish p exit = { s with
        manager := { dismissed v w with isAlive := false }
        journal := s.journal ++ es.map .workers
        standing := .ended exit } ∧
      es.filterMap ManagerEvent.ending? = [] ∧ recordsOf (es.map .workers) = [] := by
  obtain ⟨es, hdrop, hendings, hrecords⟩ :=
    perform_drop_dismissed (v := v) (w := w) fun id => [.finish id (s.lastWords p id)]
  have hmanaged : s.managed p .drop = { dismissed v w with isAlive := false, history := es } := by
    rw [managed, hmanager, hdrop]
  refine ⟨es.reverse, ?_, ?_, ?_⟩
  · rw [finish, hmanaged]
    simp only [absorb, hguard]
    rfl
  · rw [List.filterMap_reverse, hendings, List.reverse_nil]
  · rw [recordsOf, List.map_reverse, List.filterMap_reverse, ← recordsOf, hrecords,
      List.reverse_nil]

/-- The session once its daemon was closed. -/
def shut (s : Session) : Session :=
  { s with
    daemon := { s.daemon.wiped with word := .stop }
    journal := s.journal ++ (Daemon.settingTale .closing .stop Application.shutdown s.daemon.app
      "Daemon closed (close hook: ").map .daemon }

lemma onDaemon_closeAll (harrivals : s.daemon.arrivals = [])
    (hslot : s.daemon.slots .close = some (.act Application.shutdown)) :
    s.onDaemon (Daemon.closeAll (run p)) = (.returned .passed, s.shut) := by
  have hclose : Daemon.closeAll (run p) s.daemon.wiped = _ :=
    Daemon.closeAll_of_nil (by exact harrivals) (by exact hslot)
  rw [onDaemon_of_returned hclose]
  rfl

/-- What is said when the daemon was closed. -/
def farewell (reloads : Nat) : Except WorkerFailure Unit → Records
  | .ok () => [report reloads]
  | .error _ => []

/-- How a session ends whose daemon was closed. -/
def exitOf : Except WorkerFailure Unit → Exit
  | .ok () => .success
  | .error f => .failure (.workerFailed f)

/-- The daemon is closed. The session has ended well unless a worker has failed. -/
lemma step_of_closing {stopped : Except WorkerFailure Unit}
    (hstanding : s.standing = .closing stopped) (harrivals : s.daemon.arrivals = [])
    (hslot : s.daemon.slots .close = some (.act Application.shutdown))
    (hmanager : s.manager = dismissed v w) (hguard : s.guard = none) :
    ∃ es : List ManagerEvent,
      s.step p = { s.shut with
        manager := { dismissed v w with isAlive := false }
        journal := s.shut.journal ++
          ((farewell s.daemon.app.app.reloads stopped).map .said ++ es.map .workers)
        standing := .ended (exitOf stopped) } ∧
      es.filterMap ManagerEvent.ending? = [] ∧ recordsOf (es.map .workers) = [] := by
  set said := (farewell s.daemon.app.app.reloads stopped).map JournalEntry.said with hsaid
  obtain ⟨es, hfinish, hendings, hrecords⟩ :=
    finish_of_dismissed (p := p) (s := { s.shut with journal := s.shut.journal ++ said })
      hmanager hguard (exitOf stopped)
  refine ⟨es, ?_, hendings, hrecords⟩
  rw [step, hstanding]
  simp only [close, onDaemon_closeAll harrivals hslot, andThen]
  rw [← List.append_assoc]
  cases stopped with
  | ok _ => exact hfinish
  | error f =>
    rw [hsaid, farewell, List.map_nil, List.append_nil] at hfinish ⊢
    exact hfinish

/-! ### The beginning -/

/-- No worker was started, so the program ends without a word. -/
lemma finish_of_vacant (hmanager : s.manager = {}) (hguard : s.guard = none)
    (exit : Exit) : ∃ es : List ManagerEvent,
      s.finish p exit = { s with
        manager := { isAlive := false }
        journal := s.journal ++ es.map .workers
        standing := .ended exit } := by
  obtain ⟨es, hdrop, -, -⟩ := perform_drop_empty fun id => [.finish id (s.lastWords p id)]
  have hmanaged : s.managed p .drop = { isAlive := false, history := es } := by
    rw [managed, hmanager, hdrop]
  refine ⟨es.reverse, ?_⟩
  rw [finish, hmanaged]
  simp only [absorb, hguard]

/-- A session in the process `pid` that has not begun. -/
def unbegun (host : Host) (pid : Nat) (clock : Moment) : Session where
  daemon := { app := { host := host }, attached := true, pid := pid }
  clock := clock

/-- What is told before the configuration is looked at. -/
def preface (p : Plan) : List JournalEntry :=
  [.said ⟨.info, .program, "Starting taskctl v" ++ version⟩] ++
    ([Event.logged ⟨.info, .signals,
      "OS signal handlers installed (SIGINT, SIGTERM, SIGHUP, SIGUSR1, SIGUSR2)"⟩].map .daemon ++
    [.began (.bindAll p.context.hook), .boundAll p.context.hook,
      .logged ⟨.debug, .lifecycle, "Lifecycle context bound to daemon hooks"⟩,
      .ended (.bindAll p.context.hook) .unit].map .daemon)

/-- The session once its hooks are bound. -/
def bound (p : Plan) (host : Host) (pid : Nat) (clock : Moment) : Session where
  daemon := {
    app := { host := host }
    slots := fun slot => some (p.context.hook slot)
    attached := true
    installed := true
    pid := pid }
  clock := clock
  journal := preface p

variable {host : Host} {pid : Nat} {clock : Moment}

lemma step_unbegun :
    (unbegun host pid clock).step p = (bound p host pid clock).startBound p := by
  set t := (unbegun host pid clock).say .info ("Starting taskctl v" ++ version) with ht
  have hinstall := onDaemon_of_returned (s := t) (Daemon.install_of_deaf rfl)
  generalize hu : ({ t with daemon := _, journal := _ } : Session) = u at hinstall
  have hbind := onDaemon_of_returned (s := u) (Daemon.perform_bindAll p.context.hook _)
  generalize hv : ({ u with daemon := _, journal := _ } : Session) = v at hbind
  have hbound : v = bound p host pid clock := by
    rw [← hv, ← hu]
    rfl
  have hstep : (unbegun host pid clock).step p = (unbegun host pid clock).start p := rfl
  simp only [hstep, start, ← ht, hinstall, andThen, hbind, hbound]
  rfl

/-- The session once its configuration was looked at. -/
def examined (p : Plan) (host : Host) (pid : Nat) (clock : Moment) : Session :=
  let turn := Application.validate p.config { host := host }
  { bound p host pid clock with
    daemon := { (bound p host pid clock).daemon with app := turn.2.1 }
    journal := preface p ++ (turn.2.2.map .logged).map .daemon }

lemma onDaemon_validate (hcontext : p.context = Application.context) :
    (bound p host pid clock).onDaemon (run p (p.context.validate p.config)) =
      (.returned (Application.validate p.config { host := host }).1,
        examined p host pid clock) := by
  have hvalidate := Program.run_act (Daemon.perform p.depth) (Application.validate p.config)
    (bound p host pid clock).daemon.wiped
  rw [hcontext]
  rw [show Application.context.validate p.config = .act (Application.validate p.config) from rfl]
  rw [run, onDaemon_of_returned hvalidate]
  rfl

/-- A session whose configuration is refused is over. -/
lemma step_of_refused (pid : Nat) (clock : Moment) (hcontext : p.context = Application.context)
    (hfailed : (Application.validate p.config { host := host }).1.isFailed = true) :
    ∃ es : List ManagerEvent, (unbegun host pid clock).step p =
      { examined p host pid clock with
        manager := { isAlive := false }
        journal := (examined p host pid clock).journal ++ es.map .workers
        standing := .ended (.failure .misconfigured) } := by
  obtain ⟨es, hfinish⟩ := finish_of_vacant (p := p) (s := examined p host pid clock) rfl rfl
    (.failure .misconfigured)
  refine ⟨es, ?_⟩
  rw [step_unbegun, startBound, onDaemon_validate hcontext]
  simp only [andThen, hfailed, if_true]
  exact hfinish

/-- The session once its daemon was started. -/
def opened (p : Plan) (host : Host) (pid : Nat) (clock : Moment) : Session :=
  let u := examined p host pid clock
  { u with
    daemon := { u.daemon with word := .running }
    journal := u.journal ++ (Daemon.settingTale .starting .running Application.start u.daemon.app
      "Daemon started (start hook: ").map .daemon }

lemma onDaemon_startAll (hcontext : p.context = Application.context) :
    (examined p host pid clock).onDaemon (Daemon.startAll (run p)) =
      (.returned .passed, opened p host pid clock) := by
  have hslot : (examined p host pid clock).daemon.wiped.slots .start =
      some (.act Application.start) := by
    have hhook : p.context.hook .start = .act Application.start := by rw [hcontext]; rfl
    exact congrArg some hhook
  have hstart : Daemon.startAll (run p) (examined p host pid clock).daemon.wiped = _ :=
    Daemon.startAll_of_nil rfl hslot
  have hopened : (examined p host pid clock).onDaemon (Daemon.startAll (run p)) = _ :=
    onDaemon_of_returned hstart
  rw [hopened]
  rfl

/-- A session in the foreground enters its main loop. -/
lemma step_of_opened (pid : Nat) (clock : Moment) (hcontext : p.context = Application.context)
    (hforeground : p.config.isDaemon = false)
    (hpassed : (Application.validate p.config { host := host }).1.isFailed = false) :
    ∃ es : List ManagerEvent, (unbegun host pid clock).step p =
      { opened p host pid clock with
        manager := crew .running .running
        journal := (opened p host pid clock).journal ++ es.map .workers ++
          [.printed { output := "Press the h key to display the Console Menu...\n" }]
        standing := .polling } := by
  obtain ⟨es, hworkers⟩ :=
    startWorkers_eq (p := p) (s := opened p host pid clock) rfl hforeground
  refine ⟨es, ?_⟩
  have hstarted : Outcome.passed.isFailed = false := rfl
  rw [step_unbegun, startBound, onDaemon_validate hcontext]
  simp only [andThen, hpassed, onDaemon_startAll hcontext, hstarted, Bool.false_eq_true, if_false,
    detach, hforeground]
  exact hworkers

end Session

end Overseer
