import Overseer.Proofs.Session.Service
import Overseer.Session

/-!
# The course of a session

What a session tells of its daemon is one trace. The main thread puts the daemon into service when
it starts, goes on with it through the main loop, which tells of nothing but routine, and closes it
at the end.
-/

namespace Overseer

open View

/-- What an entry tells of the daemon. -/
def JournalEntry.ofDaemon? : JournalEntry → Option (Event Site)
  | daemon e => some e
  | _ => none

namespace Session

variable {p : Plan} {s s' s'' : Session}

/-- What a session has told of its daemon, in order. -/
def told (s : Session) : List (Event Site) := s.journal.filterMap JournalEntry.ofDaemon?

/-- The session goes on with events that satisfy `P`, and they tell what becomes of the daemon. -/
def Leads (P : List (Event Site) → Prop) (s s' : Session) : Prop :=
  ∃ es, s'.told = s.told ++ es ∧ Path (s.daemon.view .free) es (s'.daemon.view .free) ∧ P es

/-- The session goes on, and each event satisfies `E`. -/
def Goes (E : Event Site → Prop) (s s' : Session) : Prop := s.Leads (fun es => ∀ e ∈ es, E e) s'

/-- Nothing is told, and the daemon is as before, but for its application. -/
structure Quiet (s s' : Session) : Prop where
  told : s'.told = s.told
  word : s'.daemon.word = s.daemon.word
  slots : s'.daemon.slots = s.daemon.slots
  attached : s'.daemon.attached = s.daemon.attached
  installed : s'.daemon.installed = s.daemon.installed

variable {E : Event Site → Prop}

lemma Leads.trans {P P' P'' : List (Event Site) → Prop} (h : s.Leads P s') (h' : s'.Leads P' s'')
    (hP : ∀ es es', P es → P' es' → P'' (es ++ es')) : s.Leads P'' s'' := by
  obtain ⟨es, htold, hpath, hes⟩ := h
  obtain ⟨es', htold', hpath', hes'⟩ := h'
  refine ⟨es ++ es', ?_, hpath.append hpath', hP es es' hes hes'⟩
  rw [htold', htold, List.append_assoc]

lemma Goes.trans (h : s.Goes E s') (h' : s'.Goes E s'') : s.Goes E s'' :=
  Leads.trans h h' fun _ _ hes hes' => List.forall_mem_append.mpr ⟨hes, hes'⟩

lemma Goes.mono {E' : Event Site → Prop} (h : s.Goes E s') (hE : ∀ e, E e → E' e) :
    s.Goes E' s' := by
  obtain ⟨es, htold, hpath, hes⟩ := h
  exact ⟨es, htold, hpath, fun e he => hE e (hes e he)⟩

namespace Quiet

lemma refl (s : Session) : s.Quiet s := ⟨rfl, rfl, rfl, rfl, rfl⟩

lemma trans (h : s.Quiet s') (h' : s'.Quiet s'') : s.Quiet s'' :=
  ⟨h'.told.trans h.told, h'.word.trans h.word, h'.slots.trans h.slots,
    h'.attached.trans h.attached, h'.installed.trans h.installed⟩

lemma goes (h : s.Quiet s') : s.Goes E s' := by
  refine ⟨[], by rw [h.told, List.append_nil], ?_, by simp⟩
  rw [Daemon.view, Daemon.view, h.word, h.slots]
  exact .nil _

lemma inService (h : s.Quiet s') {I I' : Site → Prop} (hs : s.daemon.InService I)
    (happ : I' s'.daemon.app) : s'.daemon.InService I' := by
  refine ⟨fun slot => ?_, ?_, ?_, happ⟩
  · rw [h.slots, hs.slots]
  · rw [h.attached, hs.attached]
  · rw [h.installed, hs.installed]

end Quiet

/-! ### What tells nothing -/

lemma told_append (journal : List JournalEntry) {es : List JournalEntry}
    (h : ∀ e ∈ es, e.ofDaemon? = none) :
    (journal ++ es).filterMap JournalEntry.ofDaemon? =
      journal.filterMap JournalEntry.ofDaemon? := by
  rw [List.filterMap_append, List.filterMap_eq_nil_iff.mpr h, List.append_nil]

lemma quiet_write (s : Session) {e : JournalEntry} (he : e.ofDaemon? = none) :
    s.Quiet (s.write e) :=
  ⟨told_append s.journal (List.forall_mem_singleton.mpr he), rfl, rfl, rfl, rfl⟩

lemma quiet_say (s : Session) (level : Level) (message : String) :
    s.Quiet (s.say level message) :=
  s.quiet_write rfl

lemma quiet_absorb (s : Session) (m : Manager) : s.Quiet (s.absorb m) := by
  refine ⟨told_append s.journal fun e he => ?_, rfl, rfl, rfl, rfl⟩
  obtain ⟨_, -, rfl⟩ := List.mem_map.mp he
  rfl

/-- Records that the main thread says tell nothing of the daemon. -/
lemma quiet_saidAll (s : Session) (rs : Records) :
    s.Quiet { s with journal := s.journal ++ rs.map JournalEntry.said } := by
  refine ⟨told_append s.journal fun e he => ?_, rfl, rfl, rfl, rfl⟩
  obtain ⟨_, -, rfl⟩ := List.mem_map.mp he
  rfl

/-- Gives up the PID file. -/
def unguard (file : PidFile) (s : Session) : Session :=
  let u := (s.withHost (file.drop s.host).1).write (.unguarded file)
  { u with guard := none, journal := u.journal ++ (file.drop s.host).2.map JournalEntry.said }

lemma quiet_unguard (file : PidFile) (s : Session) : s.Quiet (s.unguard file) := by
  have hwritten : s.Quiet ((s.withHost (file.drop s.host).1).write (.unguarded file)) := by
    obtain ⟨htold, -, -, -, -⟩ := quiet_write (s.withHost (file.drop s.host).1)
      (e := .unguarded file) rfl
    exact ⟨htold, rfl, rfl, rfl, rfl⟩
  obtain ⟨htold, -, -, -, -⟩ := quiet_saidAll
    ((s.withHost (file.drop s.host).1).write (.unguarded file)) (file.drop s.host).2
  exact ⟨htold.trans hwritten.told, rfl, rfl, rfl, rfl⟩

lemma finish_eq (p : Plan) (s : Session) (exit : Exit) : s.finish p exit =
    { ((s.absorb (s.managed p .drop)).guard.elim (s.absorb (s.managed p .drop))
        fun file => (s.absorb (s.managed p .drop)).unguard file) with
      standing := .ended exit } := by
  simp only [finish]
  cases (s.absorb (s.managed p .drop)).guard <;> rfl

lemma quiet_finish (p : Plan) (s : Session) (exit : Exit) : s.Quiet (s.finish p exit) := by
  have habsorbed := s.quiet_absorb (s.managed p .drop)
  rw [finish_eq]
  cases (s.absorb (s.managed p .drop)).guard with
  | none =>
    obtain ⟨htold, -, -, -, -⟩ := habsorbed
    exact ⟨htold, rfl, rfl, rfl, rfl⟩
  | some file =>
    obtain ⟨htold, -, -, -, -⟩ := habsorbed.trans (quiet_unguard file _)
    exact ⟨htold, rfl, rfl, rfl, rfl⟩

@[simp] lemma standing_finish (p : Plan) (s : Session) (exit : Exit) :
    (s.finish p exit).standing = .ended exit := rfl

lemma isOver_finish (p : Plan) (s : Session) (exit : Exit) :
    (s.finish p exit).isOver = true := by
  rw [isOver, standing_finish]

lemma quiet_takeReports (s : Session) :
    s.Quiet s.takeReports ∧ s.takeReports.daemon = s.daemon := by
  have hsaid (reports : List TickReport) (u : Session) :
      u.Quiet (reports.foldl (fun s r => s.say .debug ("Application tick " ++ toString r.number ++
        " (next in " ++ toString r.interval.millis ++ " ms)")) u) ∧
      (reports.foldl (fun s r => s.say .debug ("Application tick " ++ toString r.number ++
        " (next in " ++ toString r.interval.millis ++ " ms)")) u).daemon = u.daemon := by
    induction reports generalizing u with
    | nil => exact ⟨.refl u, rfl⟩
    | cons r reports ih => exact (ih _).imp_left (u.quiet_say _ _).trans
  obtain ⟨⟨htold, hword, hslots, hattached, hinstalled⟩, hdaemon⟩ :=
    hsaid (s.ticker.reports.drop s.heard) s
  exact ⟨⟨htold, hword, hslots, hattached, hinstalled⟩, hdaemon⟩

end Session

/-! ### The tick worker -/

namespace Ticker

variable {σ : Type} {rule : TickRule σ} {J : σ → Prop}

/-- Whatever the ticks keep, the steps of the worker keep. -/
lemma app_work (hrule : ∀ least a, J a → J (rule least a).2) {t : Ticker σ} (h : J t.app)
    (now : Moment) : J (t.work rule now).app := by
  unfold work
  split
  · exact h
  · rcases hanswer : rule t.interval t.app with ⟨interval | payload, app⟩
    all_goals
      have happ := hrule t.interval t.app h
      rw [hanswer] at happ
      exact happ
  · exact h
  · split <;> exact h
  · split <;> exact h
  · exact h

lemma app_elapse (t : Ticker σ) : t.elapse.app = t.app := by
  unfold elapse
  split <;> rfl

lemma app_stop (hrule : ∀ least a, J a → J (rule least a).2) {t : Ticker σ} (h : J t.app)
    (now : Moment) : J (t.stop rule now).app := by
  have hcancelled : J ({ t with isCancelled := true } : Ticker σ).app := h
  exact app_work hrule (app_work hrule (app_work hrule (app_work hrule (app_work hrule
    hcancelled now) now) now) now) now

end Ticker

/-! ### The main thread -/

/-- What a session in which `I₀` holds at first and `I` in service has to keep. -/
structure Plan.Upholds (p : Plan) (I₀ I : Site → Prop) (ok : Outcome → Prop) : Prop where
  context : p.context = Application.context
  turns : Application.Upholds I ok
  valid : ∀ a, I₀ a → (Application.validate p.config a).1.isFailed = false →
    I (Application.validate p.config a).2.1
  tickBefore : ∀ least a, I₀ a → I₀ (Application.tick least a).2.1
  tick : ∀ least a, I a → I (Application.tick least a).2.1
  leave : p.config.isDaemon = true → ∀ path a, I a →
    Background.guardPath p.config.pidFile a.host = .ok path →
      I { a with host := (Background.takeOver path p.childPid a.host).host }

/-- What a session may tell: routine, and that the daemon was closed. -/
def Event.IsOrderly (ok : Outcome → Prop) (e : Event Site) : Prop :=
  e.IsRoutine ok ∨ e = .stored (some .closing) .stop

/-- The daemon without its trace. -/
def Daemon.wiped {σ : Type} (d : Daemon σ) : Daemon σ := { d with trace := [] }

lemma Daemon.InService.wiped {I : Site → Prop} {d : Daemon Site} (h : d.InService I) :
    d.wiped.InService I :=
  ⟨h.slots, h.attached, h.installed, h.site⟩

namespace Session

variable {p : Plan} {s s' s'' : Session} {α : Type} {I I₀ : Site → Prop} {ok : Outcome → Prop}
  {E : Event Site → Prop}

lemma told_onDaemon (s : Session) (x : Act Site α) :
    (s.onDaemon x).2.told = s.told ++ (x s.daemon.wiped).2.trace := by
  have hmap (es : List (Event Site)) :
      (es.map JournalEntry.daemon).filterMap JournalEntry.ofDaemon? = es := by
    rw [List.filterMap_map]
    exact List.filterMap_some
  simp only [onDaemon, told, List.filterMap_append, hmap, Daemon.wiped]

/-- The main thread does something with the daemon, which comes back. -/
lemma onDaemon_returned {x : Act Site α} {a : α} {d : Daemon Site}
    (P : List (Event Site) → Prop) (h : x s.daemon.wiped = (.returned a, d)) (hx : x.Tells)
    (hP : P d.trace) :
    ∃ s', s.onDaemon x = (.returned a, s') ∧ s.Leads P s' ∧ s'.daemon = d.wiped ∧
      s'.standing = s.standing := by
  obtain ⟨es, htrace, hpath⟩ := hx s.daemon.wiped
  have htold := s.told_onDaemon x
  rw [h] at htrace hpath htold
  obtain rfl : d.trace = es := htrace
  have heq : s.onDaemon x = (.returned a, { s with
      daemon := d.wiped, journal := s.journal ++ d.trace.map JournalEntry.daemon }) := by
    simp only [onDaemon, Daemon.wiped] at h ⊢
    rw [h]
  rw [heq] at htold ⊢
  exact ⟨_, rfl, ⟨d.trace, htold, hpath, hP⟩, rfl, rfl⟩

/-- Something has come in meanwhile, and the signals among it were heard. -/
def Hears (s s' : Session) : Prop :=
  ∃ k es, s'.daemon.arrivals = s.daemon.arrivals.drop k ∧ s'.told = s.told ++ es ∧
    ∀ now ∈ s.daemon.arrivals.take k, Event.Answer es now

lemma Hears.of_arrivals (harrivals : s'.daemon.arrivals = s.daemon.arrivals)
    (htold : s'.told = s.told) : s.Hears s' :=
  ⟨0, [], by rw [harrivals, List.drop_zero], by rw [htold, List.append_nil], by simp⟩

/-- The main thread does something with a daemon in service. -/
lemma serves_onDaemon {x : Act Site α} {post : α → Prop} (h : s.daemon.InService I)
    (hx : x.Serves I E post) (ht : x.Tells) :
    ∃ a s', s.onDaemon x = (.returned a, s') ∧ post a ∧ s.Goes E s' ∧ s'.daemon.InService I ∧
      s.Hears s' := by
  obtain ⟨a, d, hrun, ha, hservice, ⟨es, htrace, hes⟩, k, es', harrivals, htrace', hheard⟩ :=
    hx _ h.wiped
  obtain rfl : d.trace = es := htrace
  obtain rfl : d.trace = es' := htrace'
  obtain ⟨s', heq, hgoes, hdaemon, -⟩ := onDaemon_returned (∀ e ∈ ·, E e) hrun ht hes
  have htold := s.told_onDaemon x
  rw [heq, hrun] at htold
  refine ⟨a, s', heq, ha, hgoes, ?_, k, d.trace, ?_, htold, hheard⟩
  · rw [hdaemon]
    exact hservice.wiped
  · rw [hdaemon]
    exact harrivals

/-- The main thread goes on: the session is over, or the daemon stays in service. -/
structure Proceeds (I : Site → Prop) (ok : Outcome → Prop) (s s' : Session) : Prop where
  goes : s.Goes (Event.IsOrderly ok) s'
  steady : s'.isOver = false → s.Goes (Event.IsRoutine ok) s' ∧ s'.daemon.InService I
  begun : s'.standing ≠ .starting

lemma Proceeds.of_goes (h : s.Goes (Event.IsRoutine ok) s') (hservice : s'.daemon.InService I)
    (hbegun : s'.standing ≠ .starting) : s.Proceeds I ok s' :=
  ⟨h.mono fun _ => .inl, fun _ => ⟨h, hservice⟩, hbegun⟩

lemma Proceeds.after (h : s.Goes (Event.IsRoutine ok) s') (h' : s'.Proceeds I ok s'') :
    s.Proceeds I ok s'' :=
  ⟨(h.mono fun _ => .inl).trans h'.goes, fun hover => (h'.steady hover).imp_left h.trans,
    h'.begun⟩

lemma proceeds_finish (p : Plan) (s : Session) (exit : Exit) :
    s.Proceeds I ok (s.finish p exit) := by
  refine ⟨(s.quiet_finish p exit).goes, fun hover => ?_, by simp⟩
  rw [isOver_finish] at hover
  cases hover

lemma proceeds_startWorker (name : String) {f : Session → Session} (h : s.daemon.InService I)
    (hf : ∀ u : Session, u.daemon.InService I → u.Proceeds I ok (f u)) :
    s.Proceeds I ok (startWorker p s name f) := by
  have hquiet := s.quiet_absorb (s.managed p (.start name none))
  simp only [startWorker]
  split
  · exact .after hquiet.goes (proceeds_finish ..)
  · exact .after hquiet.goes (proceeds_finish ..)
  · exact .after hquiet.goes (hf _ (hquiet.inService h h.site))

lemma proceeds_startWorkers (h : s.daemon.InService I) : s.Proceeds I ok (startWorkers p s) := by
  refine proceeds_startWorker _ h fun u hu => ?_
  split
  · exact .of_goes (Quiet.goes ⟨rfl, rfl, rfl, rfl, rfl⟩) hu nofun
  · refine proceeds_startWorker _ hu fun v hv => ?_
    obtain ⟨htold, -, -, -, -⟩ := v.quiet_write
      (e := .printed { output := "Press the h key to display the Console Menu...\n" }) rfl
    exact .of_goes (Quiet.goes ⟨htold, rfl, rfl, rfl, rfl⟩) hv nofun

lemma quiet_withGuard (s : Session) (guard : Option PidFile) :
    s.Quiet { s with guard := guard } :=
  ⟨rfl, rfl, rfl, rfl, rfl⟩

/-- The new process goes on with the session. -/
def settleIn (pid : Nat) (t : Background.Takeover) (s : Session) : Session :=
  let u := (s.write (.said Background.leaving)).write .forked
  let u := { u with daemon := { u.daemon with pid := pid } }.withHost t.host
  { u with journal := u.journal ++ t.said.map JournalEntry.said }

lemma quiet_settleIn (pid : Nat) (t : Background.Takeover) (s : Session) :
    s.Quiet (s.settleIn pid t) := by
  obtain ⟨htold, -, -, -, -⟩ := (s.quiet_write (e := .said Background.leaving) rfl).trans
    ((quiet_write _ (e := .forked) rfl).trans (quiet_saidAll _ t.said))
  exact ⟨htold, rfl, rfl, rfl, rfl⟩

lemma detach_eq {path : Option String} (hdaemon : p.config.isDaemon = true)
    (hpath : Background.guardPath p.config.pidFile s.host = .ok path) :
    s.detach p =
      match (Background.takeOver path p.childPid s.host).guard with
      | .error f =>
        (s.settleIn p.childPid (Background.takeOver path p.childPid s.host)).finish p
          (.failure (.service f))
      | .ok guard =>
        startWorkers p { s.settleIn p.childPid (Background.takeOver path p.childPid s.host) with
          guard := guard } := by
  simp only [detach, hdaemon, hpath]
  rfl

/-- Going to the background is no matter of the daemon. -/
lemma proceeds_detach (hp : p.Upholds I₀ I ok) (h : s.daemon.InService I) :
    s.Proceeds I ok (s.detach p) := by
  by_cases hdaemon : p.config.isDaemon = true
  · cases hpath : Background.guardPath p.config.pidFile s.host with
    | error f =>
      simp only [detach, hdaemon, hpath]
      exact proceeds_finish ..
    | ok path =>
      rw [detach_eq hdaemon hpath]
      set t := Background.takeOver path p.childPid s.host with ht
      have hquiet := quiet_settleIn p.childPid t s
      have hservice : (s.settleIn p.childPid t).daemon.InService I :=
        hquiet.inService h (hp.leave hdaemon path s.daemon.app h.site hpath)
      split
      · exact .after hquiet.goes (proceeds_finish ..)
      · exact .after (hquiet.trans (quiet_withGuard _ _)).goes
          (proceeds_startWorkers (by exact hservice))
  · simp only [detach, hdaemon]
    exact proceeds_startWorkers h

/-! ### The main loop -/

/-- Hooks are run as turns of the application. -/
lemma runsTurns_run (p : Plan) : Daemon.RunsTurns (run p) := ⟨Daemon.perform p.depth, rfl⟩

lemma tells_run (p : Plan) (hook : Program Site) : (run p hook).Tells :=
  Program.tells_run (Daemon.tells_perform p.depth) hook

lemma serves_handle (c : Command) :
    (c.handle : Act Site Printed).Serves I (Event.IsRoutine ok) fun _ => True := by
  cases c with
  | quit | reload =>
    unfold Command.handle
    simp only [Act.bind_eq, Act.pure_eq]
    refine (Act.serves_log (fun _ h => h) _ _ _).andThen fun _ _ => ?_
    have hasked (r : State) :
        (discard (Act.request r) : Act Site Unit).Serves I (Event.IsRoutine ok) fun _ => True :=
      (Act.serves_request (fun _ h => h) r).andThen fun _ _ => Act.serves_done trivial
    exact (hasked _).andThen fun _ _ => Act.serves_done trivial
  | version | help => exact Act.serves_done trivial

lemma tells_handle (c : Command) : (c.handle : Act Site Printed).Tells := by
  cases c with
  | quit | reload =>
    refine (Act.tells_log _ _ _).andThen fun _ => ?_
    refine Act.Tells.andThen ?_ fun _ => Act.tells_done _
    exact (Act.tells_request _).andThen fun _ => Act.tells_done _
  | version | help => exact Act.tells_done _

lemma app_lastTick (hp : p.Upholds I₀ I ok) (h : I s.daemon.app) : I (s.lastTick p).app := by
  refine Ticker.app_stop (fun least a ha => ?_) h _
  rw [hp.context]
  exact hp.tick least a ha

/-- Stopping the workers is no matter of the daemon, but the tick worker may tick once more. -/
lemma proceeds_stopWorkers (hp : p.Upholds I₀ I ok) (h : s.daemon.InService I) :
    s.Proceeds I ok (s.stopWorkers p) := by
  have hsaid := s.quiet_say .info "The daemon process is stopping"
  set u := s.say .info "The daemon process is stopping" with hu
  have hservice : u.daemon.InService I := hsaid.inService h h.site
  obtain ⟨v, hv, hquiet, happ⟩ : ∃ v : Session,
      v = (if u.works tickTask then u.withTicker (u.lastTick p) else u) ∧ u.Quiet v ∧
        I v.daemon.app := by
    refine ⟨_, rfl, ?_⟩
    split
    · exact ⟨⟨rfl, rfl, rfl, rfl, rfl⟩, app_lastTick hp hservice.site⟩
    · exact ⟨.refl u, hservice.site⟩
  have habsorbed := hquiet.trans (v.quiet_absorb (u.managed p .stopAll))
  have hstop : s.stopWorkers p = { v.absorb (u.managed p .stopAll) with
      standing := .closing ((u.managed p .stopAll).stoppedAll?.getD (.ok ())) } := by
    rw [hv]
    rfl
  rw [hstop]
  obtain ⟨htold, hword, hslots, hattached, hinstalled⟩ := hsaid.trans habsorbed
  have hall : s.Quiet { v.absorb (u.managed p .stopAll) with
      standing := .closing ((u.managed p .stopAll).stoppedAll?.getD (.ok ())) } :=
    ⟨htold, hword, hslots, hattached, hinstalled⟩
  exact .of_goes hall.goes (hall.inService h happ) nofun

lemma finish_of_closed (stopped : Except WorkerFailure Unit) {o : Outcome} {u : Session}
    (h : s.onDaemon (Daemon.closeAll (run p)) = (.returned o, u)) :
    ∃ v exit, u.Quiet v ∧ s.close p stopped = v.finish p exit := by
  unfold close
  rw [h]
  simp only [andThen]
  split
  · exact ⟨u, _, .refl u, rfl⟩
  · split
    · exact ⟨u, _, .refl u, rfl⟩
    · exact ⟨_, _, u.quiet_say _ _, rfl⟩

/-- A daemon in service is closed, and the program ends. -/
lemma close_eq (hp : p.Upholds I₀ I ok) (h : s.daemon.InService I)
    (stopped : Except WorkerFailure Unit) :
    ∃ v exit, s.Goes (Event.IsOrderly ok) v ∧ s.close p stopped = v.finish p exit := by
  obtain ⟨o, u, heq, -, hgoes, -, -⟩ := serves_onDaemon (E := Event.IsOrderly ok) h
    (Daemon.serves_closeAll (fun _ => .inl) hp.turns (runsTurns_run p) (.inr rfl))
    (Daemon.tells_closeAll (tells_run p))
  obtain ⟨v, exit, hquiet, hclose⟩ := finish_of_closed stopped heq
  exact ⟨v, exit, hgoes.trans hquiet.goes, hclose⟩

/-- The session is over once the daemon was closed. -/
lemma proceeds_close (hp : p.Upholds I₀ I ok) (h : s.daemon.InService I)
    (stopped : Except WorkerFailure Unit) : s.Proceeds I ok (s.close p stopped) := by
  obtain ⟨v, exit, hgoes, hclose⟩ := close_eq hp h stopped
  rw [hclose]
  refine ⟨hgoes.trans (v.quiet_finish p exit).goes, fun hover => ?_, by simp⟩
  rw [isOver_finish] at hover
  cases hover

lemma step_ended {exit : Exit} (h : s.standing = .ended exit) : s.step p = s := by
  rw [step, h]

lemma isOver_iff (s : Session) : s.isOver = true ↔ ∃ exit, s.standing = .ended exit := by
  unfold isOver
  cases s.standing <;> simp

lemma step_polling (h : s.standing = .polling) : s.step p =
    andThen p (s.onDaemon (Daemon.poll (run p))) fun goesOn s =>
      { s with standing := if goesOn then .fetching else .stopping } := by
  rw [step, h]

/-- A poll that comes back decides where the main thread goes on. -/
lemma step_of_poll {b : Bool} {d : Daemon Site} (hstanding : s.standing = .polling)
    (hpoll : Daemon.poll (run p) s.daemon.wiped = (.returned b, d)) :
    ∃ u, s.onDaemon (Daemon.poll (run p)) = (.returned b, u) ∧ u.daemon = d.wiped ∧
      s.step p = { u with standing := if b then .fetching else .stopping } := by
  obtain ⟨u, heq, -, hdaemon, -⟩ := onDaemon_returned (fun _ => True) hpoll
    (Daemon.tells_poll (tells_run p)) trivial
  refine ⟨u, heq, hdaemon, ?_⟩
  rw [step_polling hstanding, heq]
  rfl

lemma step_handling {c : Command} (h : s.standing = .handling c) : s.step p =
    andThen p (s.onDaemon c.handle) fun printed s =>
      { s.print printed with standing := .reporting } := by
  rw [step, h]

lemma step_reporting (h : s.standing = .reporting) :
    s.step p = { s.takeReports with standing := .polling } := by
  rw [step, h]

/-- What a wait for a command brings is handled, unless the clock cannot show when it ends. -/
lemma proceeds_fetch (h : s.daemon.InService I) (hstanding : s.standing = .fetching) :
    s.Proceeds I ok (s.step p) := by
  rw [step, hstanding]
  -- the wait itself is of no account, and its deadline is better not computed
  generalize s.commands.pop s.clock .front (.upTo patience) = fetched
  obtain ⟨popped, rest⟩ := fetched
  cases popped with
  | got c => exact .of_goes (Quiet.goes ⟨rfl, rfl, rfl, rfl, rfl⟩) h nofun
  | overflow => exact proceeds_finish ..
  | _ => exact .of_goes (Quiet.goes ⟨rfl, rfl, rfl, rfl, rfl⟩) h nofun

/-- The main thread goes on from wherever it stands in the loop. -/
lemma proceeds_step (hp : p.Upholds I₀ I ok) (h : s.daemon.InService I)
    (hbegun : s.standing ≠ .starting) (hover : s.isOver = false) :
    s.Proceeds I ok (s.step p) := by
  cases hstanding : s.standing with
  | starting => exact absurd hstanding hbegun
  | polling =>
    obtain ⟨goesOn, s', heq, -, hgoes, hservice, -⟩ := serves_onDaemon h
      (Daemon.serves_poll (fun _ h => h) hp.turns (runsTurns_run p))
      (Daemon.tells_poll (tells_run p))
    rw [step_polling hstanding, heq]
    refine .after hgoes (.of_goes (Quiet.goes ⟨rfl, rfl, rfl, rfl, rfl⟩) hservice ?_)
    cases goesOn <;> nofun
  | fetching => exact proceeds_fetch h hstanding
  | handling c =>
    obtain ⟨printed, s', heq, -, hgoes, hservice, -⟩ :=
      serves_onDaemon (E := Event.IsRoutine ok) h (serves_handle c) (tells_handle c)
    rw [step_handling hstanding, heq]
    obtain ⟨htold, -, -, -, -⟩ := s'.quiet_write (e := .printed printed) rfl
    exact .after hgoes (.of_goes (Quiet.goes ⟨htold, rfl, rfl, rfl, rfl⟩) hservice nofun)
  | reporting =>
    rw [step_reporting hstanding]
    obtain ⟨⟨htold, hword, hslots, hattached, hinstalled⟩, hdaemon⟩ := s.quiet_takeReports
    rw [← hdaemon] at h
    exact .of_goes (Quiet.goes ⟨htold, hword, hslots, hattached, hinstalled⟩) h nofun
  | stopping =>
    rw [step, hstanding]
    exact proceeds_stopWorkers hp h
  | closing stopped =>
    rw [step, hstanding]
    exact proceeds_close hp h stopped
  | ended exit =>
    rw [isOver, hstanding] at hover
    cases hover

/-! ### The start of a session -/

/-- One of the events is the start of the daemon, and the others satisfy `E`. -/
def StartsOnce (E : Event Site → Prop) (es : List (Event Site)) : Prop :=
  ∃ before after, es = before ++ .stored (some .starting) .running :: after ∧
    (∀ e ∈ before, E e) ∧ ∀ e ∈ after, E e

/-- The daemon is started once, or not yet. -/
def MayStart (E : Event Site → Prop) (es : List (Event Site)) : Prop :=
  (∀ e ∈ es, E e) ∨ StartsOnce E es

variable {es es' : List (Event Site)}

lemma StartsOnce.mono {E' : Event Site → Prop} (h : StartsOnce E es) (hE : ∀ e, E e → E' e) :
    StartsOnce E' es := by
  obtain ⟨before, after, rfl, hbefore, hafter⟩ := h
  exact ⟨before, after, rfl, fun e he => hE e (hbefore e he), fun e he => hE e (hafter e he)⟩

lemma StartsOnce.append (h : StartsOnce E es) (h' : ∀ e ∈ es', E e) :
    StartsOnce E (es ++ es') := by
  obtain ⟨before, after, rfl, hbefore, hafter⟩ := h
  refine ⟨before, after ++ es', ?_, hbefore, List.forall_mem_append.mpr ⟨hafter, h'⟩⟩
  rw [List.append_assoc, List.cons_append]

lemma StartsOnce.prepend (h : ∀ e ∈ es, E e) (h' : StartsOnce E es') :
    StartsOnce E (es ++ es') := by
  obtain ⟨before, after, rfl, hbefore, hafter⟩ := h'
  refine ⟨es ++ before, after, (List.append_assoc ..).symm, ?_, hafter⟩
  exact List.forall_mem_append.mpr ⟨h, hbefore⟩

lemma MayStart.append (h : MayStart E es) (h' : ∀ e ∈ es', E e) : MayStart E (es ++ es') := by
  cases h with
  | inl hall => exact .inl (List.forall_mem_append.mpr ⟨hall, h'⟩)
  | inr honce => exact .inr (honce.append h')

lemma MayStart.prepend (h : ∀ e ∈ es, E e) (h' : MayStart E es') : MayStart E (es ++ es') := by
  cases h' with
  | inl hall => exact .inl (List.forall_mem_append.mpr ⟨h, hall⟩)
  | inr honce => exact .inr (.prepend h honce)

/-- The session has begun: it is over, or the daemon was started and is in service. -/
structure Begins (I : Site → Prop) (ok : Outcome → Prop) (s s' : Session) : Prop where
  leads : s.Leads (MayStart (Event.IsOrderly ok)) s'
  steady : s'.isOver = false →
    s.Leads (StartsOnce (Event.IsRoutine ok)) s' ∧ s'.daemon.InService I
  begun : s'.standing ≠ .starting

/-- What comes before the daemon is started. -/
lemma Begins.after (h : s.Goes (Event.IsRoutine ok) s') (h' : s'.Begins I ok s'') :
    s.Begins I ok s'' := by
  refine ⟨Leads.trans h h'.leads fun _ _ hes => .prepend fun e he => .inl (hes e he),
    fun hover => ?_, h'.begun⟩
  obtain ⟨hleads, hservice⟩ := h'.steady hover
  exact ⟨Leads.trans h hleads fun _ _ => .prepend, hservice⟩

/-- What comes after the daemon was started. -/
lemma Begins.before (h : s.Leads (StartsOnce (Event.IsRoutine ok)) s')
    (h' : s'.Proceeds I ok s'') : s.Begins I ok s'' := by
  refine ⟨h.trans h'.goes fun _ _ hes hes' => .inr ((hes.mono fun _ => .inl).append hes'),
    fun hover => ?_, h'.begun⟩
  obtain ⟨hgoes, hservice⟩ := h'.steady hover
  exact ⟨h.trans hgoes fun _ _ => .append, hservice⟩

lemma begins_finish (p : Plan) (s : Session) (exit : Exit) : s.Begins I ok (s.finish p exit) := by
  have hproceeds : s.Proceeds I ok (s.finish p exit) := proceeds_finish p s exit
  obtain ⟨es, htold, hpath, hes⟩ := hproceeds.goes
  refine ⟨⟨es, htold, hpath, .inl hes⟩, fun hover => ?_, by simp⟩
  rw [isOver_finish] at hover
  cases hover

/-- Listening to signals changes nothing but that. -/
lemma install_returned (ok : Outcome → Prop) (d : Daemon Site) :
    ∃ d', Daemon.install d = (.returned (), d') ∧ d'.installed = true ∧
    d'.attached = d.attached ∧ d'.app = d.app ∧
    ∃ es, d'.trace = d.trace ++ es ∧ ∀ e ∈ es, e.IsRoutine ok := by
  cases hd : d.installed with
  | true =>
    refine ⟨d, ?_, hd, rfl, rfl, [], (List.append_nil _).symm, by simp⟩
    simp only [Daemon.install, Act.bind_eq, Act.andThen, Act.get, hd]
    rfl
  | false =>
    refine ⟨{ d with installed := true }.note (.logged ⟨.info, .signals,
      "OS signal handlers installed (SIGINT, SIGTERM, SIGHUP, SIGUSR1, SIGUSR2)"⟩), ?_, rfl, rfl,
      rfl, _, rfl, by simp [Event.IsRoutine]⟩
    simp only [Daemon.install, Act.bind_eq, Act.andThen, Act.get, hd]
    rfl

/-- Binding all hooks changes nothing but the slots. -/
lemma bindAll_returned (ok : Outcome → Prop) (hooks : Slot → Program Site) (d : Daemon Site) :
    ∃ answer d', Daemon.perform 1 (.bindAll hooks) d = (.returned answer, d') ∧
    d'.slots = (fun slot => some (hooks slot)) ∧ d'.installed = d.installed ∧
    d'.attached = d.attached ∧ d'.app = d.app ∧
    ∃ es, d'.trace = d.trace ++ es ∧ ∀ e ∈ es, e.IsRoutine ok := by
  refine ⟨.unit, _, rfl, rfl, rfl, rfl, rfl, [.began (.bindAll hooks), .boundAll hooks,
    .logged ⟨.debug, .lifecycle, "Lifecycle context bound to daemon hooks"⟩,
    .ended (.bindAll hooks) .unit], ?_, ?_⟩
  · simp only [Daemon.note, List.append_assoc]
    rfl
  · simp [Event.IsRoutine]

/-- What the main thread does once the hooks are bound. -/
def startBound (p : Plan) (s : Session) : Session :=
  andThen p (s.onDaemon (run p (p.context.validate p.config))) fun valid s =>
  if valid.isFailed then s.finish p (.failure .misconfigured)
  else
    andThen p (s.onDaemon (Daemon.startAll (run p))) fun started s =>
    if started.isFailed then s.finish p (.failure .notStarted) else s.detach p

/-- The main thread listens to signals and binds the hooks. -/
lemma start_eq (ok : Outcome → Prop) (hattached : s.daemon.attached = true)
    (hsite : I₀ s.daemon.app) (hcontext : p.context = Application.context) :
    ∃ u, s.start p = u.startBound p ∧ s.Goes (Event.IsRoutine ok) u ∧
      u.daemon.InService I₀ := by
  have hsaid := s.quiet_say .info ("Starting taskctl v" ++ version)
  set t := s.say .info ("Starting taskctl v" ++ version) with ht
  obtain ⟨d, hinstall, hinstalled, hattached', happ, es, htrace, hes⟩ :=
    install_returned ok t.daemon.wiped
  obtain rfl : d.trace = es := htrace
  obtain ⟨v, hv, hgoes, hdaemon, -⟩ :=
    onDaemon_returned (∀ e ∈ ·, Event.IsRoutine ok e) hinstall Daemon.tells_install hes
  obtain ⟨answer, d', hbind, hslots, hinstalled', hattached'', happ', es', htrace', hes'⟩ :=
    bindAll_returned ok p.context.hook v.daemon.wiped
  obtain rfl : d'.trace = es' := htrace'
  obtain ⟨u, hu, hgoes', hdaemon', -⟩ := onDaemon_returned (∀ e ∈ ·, Event.IsRoutine ok e) hbind
    (Daemon.tells_perform 1 _) hes'
  rw [hdaemon] at hinstalled' hattached'' happ'
  refine ⟨u, ?_, Goes.trans hsaid.goes (Goes.trans hgoes hgoes'), ?_⟩
  · simp only [start, ← ht, hv, andThen, hu]
    rfl
  · rw [hdaemon']
    refine ⟨fun slot => ?_, ?_, ?_, ?_⟩
    · rw [← Application.hook_context, ← hcontext]
      exact congrFun hslots slot
    · exact hattached''.trans (hattached'.trans hattached)
    · exact hinstalled'.trans hinstalled
    · have hsame : d'.wiped.app = s.daemon.app := happ'.trans happ
      rw [hsame]
      exact hsite

/-- The configuration is looked at, the daemon is started, and the program goes to the
background. -/
lemma begins_startBound (hp : p.Upholds I₀ I ok) (h : s.daemon.InService I₀) :
    s.Begins I ok (s.startBound p) := by
  set turn := Application.validate p.config s.daemon.app with hturn
  have hvalidate : run p (p.context.validate p.config) s.daemon.wiped = (.returned turn.1,
      { s.daemon with app := turn.2.1, trace := turn.2.2.map .logged }) := by
    rw [hp.context]
    exact Program.run_act (Daemon.perform p.depth) (Application.validate p.config) s.daemon.wiped
  obtain ⟨v, hv, hgoes, hdaemon, -⟩ := onDaemon_returned (∀ e ∈ ·, Event.IsRoutine ok e) hvalidate
    (tells_run p _) fun e he => by
      obtain ⟨r, -, rfl⟩ := List.mem_map.mp he
      trivial
  rw [startBound, hv]
  simp only [andThen]
  split
  · exact .after hgoes (begins_finish ..)
  · rename_i hvalid
    have hservice : v.daemon.InService I := by
      rw [hdaemon]
      exact ⟨h.slots, h.attached, h.installed, hp.valid _ h.site (Bool.not_eq_true _ ▸ hvalid)⟩
    obtain ⟨o, d, es, es', hstart, hservice', htrace, hes, hes'⟩ :=
      Daemon.startAll_eq (E := Event.IsRoutine ok) (fun _ h => h) hp.turns (runsTurns_run p)
        hservice.wiped
    obtain ⟨w, hw, hleads, hdaemon', -⟩ := onDaemon_returned (StartsOnce (Event.IsRoutine ok))
      hstart (Daemon.tells_startAll (tells_run p)) ⟨es, es', htrace, hes, hes'⟩
    refine .after hgoes ?_
    rw [hw]
    simp only
    split
    · exact .before hleads (proceeds_finish ..)
    · refine .before hleads (proceeds_detach hp ?_)
      rw [hdaemon']
      exact hservice'.wiped

lemma begins_start (hp : p.Upholds I₀ I ok) (hattached : s.daemon.attached = true)
    (hsite : I₀ s.daemon.app) : s.Begins I ok (s.start p) := by
  obtain ⟨u, hstart, hgoes, hservice⟩ := start_eq ok hattached hsite hp.context
  rw [hstart]
  exact .after hgoes (begins_startBound hp hservice)

end Session

end Overseer
