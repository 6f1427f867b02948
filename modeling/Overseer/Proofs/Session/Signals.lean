import Mathlib.Data.List.Basic
import Overseer.Proofs.Lifecycle.Stop
import Overseer.Proofs.Session.Steady

/-!
# Signals to stop

Starting the daemon is the only thing in a session that leaves a stop, and it is done once. A signal
to stop that comes in after it therefore ends the main loop: the next poll says that the daemon does
not go on, however many requests come in meanwhile. A signal that comes in before the daemon is
started is overwritten.
-/

namespace Overseer

open View

lemma Event.IsOrderly.restarts_eq_false {ok : Outcome → Prop} {e : Event Site}
    (h : e.IsOrderly ok) : e.restarts = false := by
  cases h with
  | inl hroutine =>
    cases e with
    | stored writer w =>
      cases writer with
      | none => exact hroutine.elim
      | some t =>
        cases t with
        | starting => exact hroutine.elim
        | handling r | closing => rfl
    | _ => rfl
  | inr hclosed =>
    subst hclosed
    rfl

lemma View.Step.stop_of_requested {v v' : View Site} {b : Bool}
    (h : Step v (.requested .stop b) v') : v'.word = .stop := by
  cases h <;> rfl

/-! ### Signals that come in during a poll -/

namespace Daemon

variable {σ : Type} {d : Daemon σ} {sig : OsSignal}

lemma attached_ask (d : Daemon σ) (s : State) : (d.ask s).attached = d.attached := by
  unfold ask
  split <;> rfl

lemma installed_ask (d : Daemon σ) (s : State) : (d.ask s).installed = d.installed := by
  unfold ask
  split <;> rfl

/-- A daemon that listens to signals goes on to do so, whatever comes in. -/
lemma listens_receive (h : d.attached = true ∧ d.installed = true) (a : Arrival) :
    (d.receive a).attached = true ∧ (d.receive a).installed = true := by
  cases a with
  | request s =>
    rw [receive, attached_ask, installed_ask]
    exact h
  | signal s =>
    rw [receive, hear, h.1, h.2]
    exact ⟨(attached_ask d _).trans h.1, (installed_ask d _).trans h.2⟩

lemma word_hear_of_listens (h : d.attached = true ∧ d.installed = true)
    (hsig : sig.requestedState = .stop) : (d.hear sig).word = .stop := by
  rw [hear, h.1, h.2, Bool.and_self, if_pos rfl, hsig, ask]
  split
  · rename_i hw
    exact hw
  · rfl

lemma word_foldl_receive_of_mem (h : d.attached = true ∧ d.installed = true)
    (hsig : sig.requestedState = .stop) {as : List Arrival} (hmem : Arrival.signal sig ∈ as) :
    (as.foldl receive d).word = .stop := by
  induction as generalizing d with
  | nil => cases hmem
  | cons a as ih =>
    rw [List.foldl_cons]
    cases hmem with
    | head => exact word_foldl_receive_of_stop (word_hear_of_listens h hsig) as
    | tail _ hrest => exact ih (listens_receive h a) hrest

/-- Among what comes in first is a signal to stop. -/
lemma word_arrive_of_mem (h : d.attached = true ∧ d.installed = true)
    (hsig : sig.requestedState = .stop) {now : List Arrival} {later : List (List Arrival)}
    (harrivals : d.arrivals = now :: later) (hmem : Arrival.signal sig ∈ now) :
    d.arrive.word = .stop := by
  rw [arrive, harrivals]
  exact word_foldl_receive_of_mem (d := { d with arrivals := later }) h hsig hmem

/-- A poll that finds the daemon stopped says that it does not go on. -/
lemma poll_of_arrive_stop (run : Program σ → Act σ Outcome) (h : d.arrive.word = .stop) :
    ∃ d', poll run d = (.returned false, d') ∧ d'.word = .stop := by
  have hload : Act.load d = (.returned .stop, (Act.load d).2) := by
    rw [← h]
    rfl
  have hword : (Act.load d).2.word = .stop := h
  have hsilent : Hushed .poll (.bool false) (Act.load : Act σ State) .stop := hushed_load
  obtain ⟨d', hload', hw', -⟩ := hsilent (Act.load d).2 hword
  refine ⟨d', ?_, hw'⟩
  simp only [poll, Act.bind_eq, Act.pure_eq]
  rw [Act.andThen_returned hload, if_neg (by decide), Act.andThen_returned hload']
  rfl

end Daemon

/-! ### The main loop -/

/-- Whether the main thread is inside the main loop. -/
def MainAt.isLooping : MainAt → Bool
  | .polling | .fetching | .handling _ | .reporting => true
  | _ => false

/-- How many steps are left until the main loop ends, once the daemon has stopped. -/
def MainAt.toGo : MainAt → Nat
  | .polling => 1
  | .reporting => 2
  | .handling _ => 3
  | .fetching => 4
  | _ => 0

lemma MainAt.toGo_le (m : MainAt) : m.toGo ≤ 4 := by
  unfold toGo
  split <;> omega

lemma MainAt.polling_of_toGo {m : MainAt} (h : m.toGo = 1) : m = .polling := by
  cases m with
  | polling => rfl
  | _ => cases h

lemma MainAt.fetching_of_toGo {m : MainAt} (h : m.toGo = 4) : m = .fetching := by
  cases m with
  | fetching => rfl
  | _ => cases h

lemma MainAt.isLooping_of_toGo {m : MainAt} (h : m.toGo = 0) : m.isLooping = false := by
  cases m with
  | polling | fetching | reporting => cases h
  | handling c => cases h
  | _ => rfl

/-- The request that an event tells of. -/
def Event.request? : Event Site → Option (State × Bool)
  | .requested s accepted => some (s, accepted)
  | _ => none

/-- The record that an event tells of. -/
def Event.record? : Event Site → Option Record
  | .logged r => some r
  | _ => none

/-- Whether the main thread moves. -/
def Session.Move.isMain : Session.Move → Bool
  | .main => true
  | .beside _ => false

namespace Session

variable {p : Plan} {s s' : Session} {I I₀ : Site → Prop} {ok : Outcome → Prop}
  {E : Event Site → Prop} {w : View Site} {es before rest : List (Event Site)}

/-- The daemon was started, and asked to stop after that. -/
def IsToStop (s : Session) : Prop :=
  ∃ before between b after, s.told =
    before ++ .stored (some .starting) .running :: (between ++ .requested .stop b :: after)

lemma IsToStop.mono (h : s.IsToStop) (htold : s.told <+: s'.told) : s'.IsToStop := by
  obtain ⟨before, between, b, after, heq⟩ := h
  obtain ⟨more, hmore⟩ := htold
  refine ⟨before, between, b, after ++ more, ?_⟩
  rw [← hmore, heq]
  simp

/-- What is told after the start. There is no second one. -/
lemma MayStart.orderly_rest (h : MayStart E es) (hE : ¬ E (.stored (some .starting) .running))
    (heq : es = before ++ .stored (some .starting) .running :: rest) : ∀ e ∈ rest, E e := by
  cases h with
  | inl hall =>
    refine absurd (hall _ ?_) hE
    rw [heq]
    exact List.mem_append_right _ (List.mem_cons_self ..)
  | inr honce =>
    obtain ⟨before', rest', rfl, hbefore, hrest⟩ := honce
    obtain ⟨-, -, rfl⟩ := (List.append_cons_inj_of_notMem (fun hmem => hE (hbefore _ hmem))
      (fun hmem => hE (hrest _ hmem))).mp heq
    exact hrest

lemma Steady.word_of_isToStop (h : s.Steady I₀ I ok w) (hstop : s.IsToStop) :
    s.daemon.word = .stop := by
  obtain ⟨before, between, b, after, heq⟩ := hstop
  have hrest : ∀ e ∈ between ++ .requested .stop b :: after, e.IsOrderly ok :=
    h.once.orderly_rest (by simp [Event.IsOrderly, Event.IsRoutine]) heq
  have hpath := h.path
  rw [heq] at hpath
  obtain ⟨_, -, hstarted⟩ := hpath.split
  cases hstarted with
  | cons _ hpath =>
    obtain ⟨_, -, hasked⟩ := hpath.split
    cases hasked with
    | cons hstep hafter =>
      -- only a start leaves a stop, and there is no second one
      refine (hafter.keeps_stop hstep.stop_of_requested fun e he => ?_).1
      exact (hrest e (List.mem_append_right _ (List.mem_cons_of_mem _ he))).restarts_eq_false

lemma isOver_of_isLooping (h : s.standing.isLooping = true) : s.isOver = false := by
  rw [Bool.eq_false_iff]
  intro hover
  obtain ⟨exit, hended⟩ := s.isOver_iff.mp hover
  rw [hended] at h
  cases h

/-- Inside the main loop the daemon has been started and is in service. -/
lemma Steady.of_isLooping (h : s.Steady I₀ I ok w) (hloop : s.standing.isLooping = true) :
    StartsOnce (Event.IsRoutine ok) s.told ∧ s.daemon.InService I := by
  refine h.steady ?_ (isOver_of_isLooping hloop)
  intro hstarting
  rw [hstarting] at hloop
  cases hloop

/-- What is told after the start asks to stop. -/
lemma isToStop_of_told {b : Bool} (h : StartsOnce E s.told) (htold : s'.told = s.told ++ es)
    (hmem : .requested .stop b ∈ es) : s'.IsToStop := by
  obtain ⟨before, after, heq, -, -⟩ := h
  obtain ⟨between, rest, rfl⟩ := List.append_of_mem hmem
  refine ⟨before, after ++ between, b, rest, ?_⟩
  rw [htold, heq]
  simp

/-- A signal to stop is heard inside the main loop. -/
lemma Steady.isToStop_signal (h : s.Steady I₀ I ok w) (hloop : s.standing.isLooping = true)
    {sig : OsSignal} (hsig : sig.requestedState = .stop) :
    (s.happen p (.signal sig)).IsToStop := by
  obtain ⟨honce, hservice⟩ := h.of_isLooping hloop
  obtain ⟨es, htrace, hheard⟩ := Daemon.receive_told hservice.wiped (.signal sig)
  obtain ⟨b, hmem⟩ := hheard sig rfl
  have htold : (s.happen p (.signal sig)).told = s.told ++ es := by
    obtain rfl : (s.daemon.wiped.hear sig).trace = es := htrace
    exact told_onDaemon s (Act.modify (·.hear sig))
  rw [hsig] at hmem
  exact isToStop_of_told honce htold hmem

lemma arrivals_finish (p : Plan) (s : Session) (exit : Exit) :
    (s.finish p exit).daemon.arrivals = s.daemon.arrivals := by
  simp only [finish]
  split <;> rfl

/-- What comes in during a step of the main loop is heard. -/
lemma hears_step (hp : p.Upholds I₀ I ok) (h : s.daemon.InService I)
    (hloop : s.standing.isLooping = true) : s.Hears (s.step p) := by
  cases hstanding : s.standing with
  | polling =>
    obtain ⟨b, u, heq, -, -, -, hheard⟩ := serves_onDaemon h
      (Daemon.serves_poll (fun _ h => h) hp.turns (runsTurns_run p))
      (Daemon.tells_poll (tells_run p))
    rw [step_polling hstanding, heq]
    exact hheard
  | fetching =>
    rw [step, hstanding]
    generalize s.commands.pop s.clock .front (.upTo patience) = fetched
    obtain ⟨popped, rest⟩ := fetched
    cases popped with
    | overflow => exact .of_arrivals (s.arrivals_finish p _) (s.quiet_finish p _).told
    | _ => exact .of_arrivals rfl rfl
  | handling c =>
    obtain ⟨printed, u, heq, -, -, -, k, es, harrivals, htold, hheard⟩ :=
      serves_onDaemon (E := Event.IsRoutine ok) h (serves_handle c) (tells_handle c)
    rw [step_handling hstanding, heq]
    exact ⟨k, es, harrivals, (u.quiet_write (e := .printed printed) rfl).told.trans htold, hheard⟩
  | reporting =>
    obtain ⟨hquiet, hdaemon⟩ := s.quiet_takeReports
    rw [step_reporting hstanding]
    exact .of_arrivals (congrArg Daemon.arrivals hdaemon) hquiet.told
  | _ =>
    rw [hstanding] at hloop
    cases hloop

/-- A signal to stop that comes in during a step of the main loop is heard, too. -/
lemma Steady.isToStop_step (hp : p.Upholds I₀ I ok) (h : s.Steady I₀ I ok w)
    (hloop : s.standing.isLooping = true) {sig : OsSignal} (hsig : sig.requestedState = .stop) :
    ∃ k, (s.step p).daemon.arrivals = s.daemon.arrivals.drop k ∧
      ∀ now ∈ s.daemon.arrivals.take k, .signal sig ∈ now → (s.step p).IsToStop := by
  obtain ⟨honce, hservice⟩ := h.of_isLooping hloop
  obtain ⟨k, es, harrivals, htold, hheard⟩ := hears_step hp hservice hloop
  refine ⟨k, harrivals, fun now hnow hmem => ?_⟩
  obtain ⟨b, hb⟩ := hheard now hnow sig hmem
  rw [hsig] at hb
  exact isToStop_of_told honce htold hb

/-- The main loop is left once a poll finds the daemon stopped. -/
lemma step_of_stopped (hstanding : s.standing = .polling)
    (hw : s.daemon.wiped.arrive.word = .stop) :
    (∃ u, s.onDaemon (Daemon.poll (run p)) = (.returned false, u)) ∧
      (s.step p).standing = .stopping := by
  obtain ⟨d, hpoll, -⟩ := Daemon.poll_of_arrive_stop (run p) hw
  obtain ⟨u, heq, -, hstep⟩ := step_of_poll hstanding hpoll
  refine ⟨⟨u, heq⟩, ?_⟩
  rw [hstep]
  rfl

/-- Each step brings a stopped session closer to the end of its main loop. -/
lemma toGo_step (hp : p.Upholds I₀ I ok) (h : s.Steady I₀ I ok w) (hw : s.daemon.word = .stop)
    (hbegun : s.standing ≠ .starting) :
    (s.step p).standing.toGo ≤ s.standing.toGo - 1 := by
  cases hstanding : s.standing with
  | starting => exact absurd hstanding hbegun
  | polling =>
    rw [(step_of_stopped hstanding (Daemon.word_arrive_of_stop hw)).2]
    decide
  | fetching =>
    rw [step, hstanding]
    generalize s.commands.pop s.clock .front (.upTo patience) = fetched
    obtain ⟨popped, rest⟩ := fetched
    cases popped with
    | got c => exact Nat.le_refl 3
    | overflow => exact Nat.zero_le _
    | _ => exact Nat.le_succ 2
  | handling c =>
    obtain ⟨-, hservice⟩ := h.of_isLooping (by rw [hstanding]; rfl)
    obtain ⟨printed, u, heq, -⟩ :=
      serves_onDaemon (E := Event.IsRoutine ok) hservice (serves_handle c) (tells_handle c)
    rw [step_handling hstanding, heq]
    exact Nat.le_refl 2
  | reporting =>
    rw [step_reporting hstanding]
    exact Nat.le_refl 1
  | stopping =>
    rw [step, hstanding]
    exact Nat.le_refl 0
  | closing stopped =>
    have hover : s.isOver = false := by
      rw [isOver, hstanding]
    obtain ⟨-, hservice⟩ := h.steady hbegun hover
    obtain ⟨v, exit, -, hclose⟩ := close_eq hp hservice stopped
    rw [step, hstanding]
    simp only
    rw [hclose, standing_finish]
    exact Nat.le_refl 0
  | ended exit =>
    have hsame : s.step p = s := step_ended hstanding
    rw [hsame, hstanding]
    exact Nat.le_refl 0

lemma standing_ne_starting (hp : p.Upholds I₀ I ok) (h : s.Steady I₀ I ok w)
    (hbegun : s.standing ≠ .starting) : (s.step p).standing ≠ .starting := by
  by_cases hover : s.isOver = true
  · obtain ⟨exit, hended⟩ := s.isOver_iff.mp hover
    have hsame : s.step p = s := step_ended hended
    rw [hsame]
    exact hbegun
  · rw [Bool.not_eq_true] at hover
    exact (proceeds_step hp (h.steady hbegun hover).2 hbegun hover).begun

/-- A stopped session comes closer to the end of its main loop with each step of the main thread,
and whatever happens beside it does not matter. -/
lemma toGo_play (hp : p.Upholds I₀ I ok) {moves : List Session.Move}
    (hkeeps₀ : ∀ m ∈ moves, m.Keeps I₀) (hkeeps : ∀ m ∈ moves, m.Keeps I)
    (h : s.Steady I₀ I ok w) (hstop : s.IsToStop) (hbegun : s.standing ≠ .starting) :
    (s.play p moves).standing.toGo ≤ s.standing.toGo - moves.countP Move.isMain := by
  induction moves generalizing s with
  | nil => exact Nat.le_refl _
  | cons m moves ih =>
    rw [List.forall_mem_cons] at hkeeps₀ hkeeps
    cases m with
    | main =>
      obtain ⟨hsteady, htold⟩ := h.main hp
      have hstep := toGo_step hp h (h.word_of_isToStop hstop) hbegun
      have hrest := ih hkeeps₀.2 hkeeps.2 hsteady (hstop.mono htold)
        (standing_ne_starting hp h hbegun)
      rw [← move_main] at hstep hrest
      rw [List.countP_cons_of_pos rfl]
      calc (s.play p (.main :: moves)).standing.toGo
          ≤ (s.move p .main).standing.toGo - moves.countP Move.isMain := hrest
        _ ≤ s.standing.toGo - 1 - moves.countP Move.isMain := Nat.sub_le_sub_right hstep _
        _ = s.standing.toGo - (moves.countP Move.isMain + 1) := by omega
    | beside happening =>
      obtain ⟨hsteady, htold⟩ := h.beside hp hkeeps₀.1 hkeeps.1
      have hstanding := (s.beside_happen ok p happening).standing
      have hrest := ih hkeeps₀.2 hkeeps.2 hsteady (hstop.mono htold) (by rwa [hstanding])
      rw [hstanding, ← move_beside] at hrest
      rw [List.countP_cons_of_neg Bool.false_ne_true]
      exact hrest

/-- The application's hooks keep what is always so. -/
lemma upholds_true (hcontext : p.context = Application.context) :
    p.Upholds (fun _ => True) (fun _ => True) fun _ => True where
  context := hcontext
  turns := ⟨fun _ _ _ => trivial, fun _ _ _ => trivial⟩
  valid _ _ _ := trivial
  tickBefore _ _ _ := trivial
  tick _ _ _ := trivial
  leave _ _ _ _ _ := trivial

lemma Move.keeps_true (m : Session.Move) : m.Keeps fun _ => True := by
  unfold Move.Keeps
  split <;> simp

/-- A signal to stop that comes in once the daemon was started is honoured. Inside the main loop it
is heard at any time, between two steps and during a step, whatever the step is about to do with the
word. Once it was heard the daemon has stopped for good, every poll of the main loop says so, and
four more steps of the main thread are enough to leave the loop, whatever happens beside it. A poll
that has not looked at the word yet says so, too. -/
theorem stop_signal_ends_loop (hcontext : p.context = Application.context) {d : Daemon Site}
    (hattached : d.attached = true) (moves more : List Session.Move) {sig : OsSignal}
    (hsig : sig = .int ∨ sig = .term) :
    let s := ({ daemon := d } : Session).play p moves
    let s' := s.play p more
    (s.standing.isLooping = true → (s.happen p (.signal sig)).IsToStop ∧
        ∃ k, (s.step p).daemon.arrivals = s.daemon.arrivals.drop k ∧
          ∀ now ∈ s.daemon.arrivals.take k, .signal sig ∈ now → (s.step p).IsToStop) ∧
      (s.IsToStop → s'.daemon.word = .stop ∧
        (s'.standing = .polling →
          (∃ u, s'.onDaemon (Daemon.poll (run p)) = (.returned false, u)) ∧
            (s'.step p).standing = .stopping) ∧
        (4 ≤ more.countP Move.isMain → s'.standing.isLooping = false)) ∧
      ∀ now later, s.standing = .polling → s.daemon.arrivals = now :: later →
        .signal sig ∈ now →
          (∃ u, s.onDaemon (Daemon.poll (run p)) = (.returned false, u)) ∧
            (s.step p).standing = .stopping := by
  intro s s'
  have hstop : sig.requestedState = .stop := by
    rcases hsig with rfl | rfl <;> rfl
  have hp := upholds_true hcontext
  obtain ⟨hsteady, -⟩ := steady_play hp (fun m (_ : m ∈ moves) => m.keeps_true)
    (fun m _ => m.keeps_true) (steady_first hattached trivial)
  obtain ⟨hsteady', htold⟩ := steady_play hp (fun m (_ : m ∈ more) => m.keeps_true)
    (fun m _ => m.keeps_true) hsteady
  refine ⟨fun hloop => ⟨hsteady.isToStop_signal hloop hstop, hsteady.isToStop_step hp hloop hstop⟩,
    fun hasked => ?_, fun now later hpolling harrivals hmem => ?_⟩
  · have hw : s'.daemon.word = .stop := hsteady'.word_of_isToStop (hasked.mono htold)
    refine ⟨hw, fun hpolling => step_of_stopped hpolling (Daemon.word_arrive_of_stop hw),
      fun hmany => ?_⟩
    -- who was asked to stop after the start has left it, so each step of the main thread counts
    have hbegun : s.standing ≠ .starting := by
      intro hstarting
      obtain ⟨before, between, b, after, heq⟩ := hasked
      obtain ⟨hroutine, -⟩ := hsteady.fresh hstarting
      refine hroutine (.stored (some .starting) .running) ?_
      rw [heq]
      simp
    have hclose : s'.standing.toGo ≤ s.standing.toGo - more.countP Move.isMain :=
      toGo_play hp (fun m _ => m.keeps_true) (fun m _ => m.keeps_true) hsteady hasked hbegun
    have hfar := s.standing.toGo_le
    exact MainAt.isLooping_of_toGo (by omega)
  · obtain ⟨-, hservice⟩ := hsteady.of_isLooping (by rw [hpolling]; rfl)
    refine step_of_stopped hpolling ?_
    exact Daemon.word_arrive_of_mem ⟨hservice.attached, hservice.installed⟩ hstop harrivals hmem

/-- A daemon that signals are meant for. -/
def reachable : Daemon Site where
  app := {}
  attached := true

lemma play_concat_beside (p : Plan) (s : Session) (moves : List Session.Move) (h : Happening) :
    s.play p (moves ++ [.beside h]) = (s.play p moves).happen p h := by
  rw [play, List.foldl_append, List.foldl_cons, List.foldl_nil, move_beside, play]

/-- The signal comes in while the main thread waits for a command, after a reload. -/
theorem stop_signal_ends_loop_waiting :
    let s := ({ daemon := reachable } : Session).play {}
      ([.main, .beside (.signal .hup), .main] ++ [.beside (.signal .term)])
    s.standing = .fetching ∧ s.IsToStop ∧ s.daemon.word = .stop ∧
      (s.play {} [.main, .beside (.signal .hup), .main, .main, .main]).standing.isLooping =
        false := by
  intro s
  have hstanding : s.standing = .fetching := MainAt.fetching_of_toGo (by decide +kernel)
  have hasked : s.IsToStop := by
    obtain ⟨hheard, -, -⟩ := stop_signal_ends_loop (p := {}) rfl (d := reachable) rfl
      [.main, .beside (.signal .hup), .main] [] (.inr rfl)
    have hloop := (hheard (by decide +kernel)).1
    rwa [← play_concat_beside] at hloop
  obtain ⟨-, hends, -⟩ := stop_signal_ends_loop (p := {}) rfl (d := reachable) rfl
    ([.main, .beside (.signal .hup), .main] ++ [.beside (.signal .term)])
    [.main, .beside (.signal .hup), .main, .main, .main] (.inr rfl)
  obtain ⟨-, -, hover⟩ := hends hasked
  exact ⟨hstanding, hasked, by decide +kernel, hover (by decide)⟩

/-- A signal that comes in right before the daemon is started is lost, although signals are listened
to and the daemon has stopped by then: the first poll after it says that the daemon goes on. -/
theorem stop_signal_overwritten :
    ∃ before after : List (Event Site),
      let s := ({ daemon := { reachable with arrivals := [[.signal .term]] } } : Session).play {}
        [.main]
      s.told = before ++ after ∧
        (before.filterMap Event.record?).head? = some ⟨.info, .signals,
          "OS signal handlers installed (SIGINT, SIGTERM, SIGHUP, SIGUSR1, SIGUSR2)"⟩ ∧
        after.head?.bind Event.request? = some (OsSignal.term.requestedState, true) ∧
        s.standing = .polling ∧
        (s.onDaemon (Daemon.poll (run {}))).1 = .returned true := by
  let s := ({ daemon := { reachable with arrivals := [[.signal .term]] } } : Session).play {}
    [.main]
  refine ⟨s.told.take 6, s.told.drop 6, (List.take_append_drop ..).symm, ?_, ?_,
    MainAt.polling_of_toGo ?_, ?_⟩
  · decide +kernel
  · decide +kernel
  · decide +kernel
  · decide +kernel

end Session

end Overseer
