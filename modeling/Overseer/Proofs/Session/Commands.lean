import Overseer.Proofs.Session.Undisturbed

/-!
# Commands of a session

What a session in the foreground does is told by the lines it has read at its console: it carries
them out one after another, up to the first that asks to quit, however the bytes come in chunks and
however the console, the main thread and all others take turns.
-/

namespace Overseer

/-- Whether a reload hook was run. -/
def Effect.isReload : Effect → Bool
  | .handled .reload _ => true
  | _ => false

namespace Session

open Console

variable {p : Plan} {s : Session} {taken : List Chunk} {handled : List Command}
  {cwd : Location} {pid : Nat} {w : View Site}

/-! ### What is honoured -/

/-- What the lines ask for before the first of them asks to quit. -/
def untilQuit (taken : List Chunk) : List Command := (asked taken).takeWhile (· ≠ .quit)

/-- Whether the main loop was entered and left. -/
def hasLeft (s : Session) : Bool :=
  match s.standing with
  | .stopping | .closing _ => true
  | .ended exit => exit ≠ .failure .misconfigured
  | _ => false

/-- How a session has honoured what it read at the console, where `taken` is what it has read and
`handled` are the commands that it has carried out. -/
structure Honours (p : Plan) (taken : List Chunk) (handled : List Command) (s : Session) :
    Prop where
  /-- Nothing that was asked for is lost, and all of it is kept in order. -/
  order : asked taken = handled ++ s.queued ++ s.console.todo
  /-- Nothing is carried out after a quit. -/
  last : .quit ∉ handled.dropLast
  /-- Whatever is done is done for one command after another. A hook that is still owed is run by
  the next poll. -/
  effects : ∃ opening ∈ [[], [Effect.wrote greeting]],
    s.effects ++ s.daemon.word.owed = opening ++ handled.flatMap Command.effects
  /-- The hook is run once for each request, and counts it. -/
  reloads : s.effects.countP Effect.isReload + s.daemon.word.owed.length = handled.count .reload ∧
    s.daemon.app.app.reloads = s.effects.countP Effect.isReload
  /-- A command that asks nothing of the daemon leaves it as it is. -/
  silent : ∀ c, s.standing = .handling c → c.order? = none → (s.step p).daemon = s.daemon
  /-- As long as the console works, its next step queues the next command. -/
  queueing : s.works consoleTask = true →
    (s.happen p .queue).queued = s.queued ++ s.console.todo.take 1 ∧
      (s.happen p .queue).console.todo = s.console.todo.drop 1
  /-- The main loop is left after the first quit, and after all that comes before it. -/
  left : s.hasLeft = true → handled = untilQuit taken ++ [.quit] ∧
    s.effects.countP Effect.isReload = (untilQuit taken).count .reload
  /-- A session ends well unless a worker panics, and then says how many reloads there were. -/
  ended : ∀ exit, s.exit? = some exit →
    (exit = .failure .misconfigured ∧ taken = [] ∧ ∃ f, p.config.validate.1 = .error f) ∨
      (s.IsUnharmed → exit = .success) ∧
        (exit = .success ∨ ∃ f, exit = .failure (.workerFailed f)) ∧
        (exit = .success → (recordsOf s.journal).getLast? =
          some (Session.report ((untilQuit taken).count .reload)))

lemma standing_of_exit {exit : Exit} (h : s.exit? = some exit) : s.standing = .ended exit := by
  rw [exit?] at h
  cases hstanding : s.standing with
  | ended e =>
    rw [hstanding] at h
    cases h
    rfl
  | _ =>
    rw [hstanding] at h
    cases h

lemma countP_effects (cs : List Command) :
    (cs.flatMap Command.effects).countP Effect.isReload = cs.count .reload := by
  induction cs with
  | nil => rfl
  | cons c cs ih =>
    rw [List.flatMap_cons, List.countP_append, ih]
    cases c <;> simp [Command.effects, Effect.reloaded, Effect.isReload, Nat.add_comm]

lemma countP_owed (r : State) : r.owed.countP Effect.isReload = r.owed.length := by
  cases r <;> rfl

lemma UnderWay.countP (h : UnderWay taken handled s) :
    s.effects.countP Effect.isReload + s.daemon.word.owed.length = handled.count .reload := by
  have hcount := congrArg (List.countP Effect.isReload) h.effects
  rw [List.countP_append, countP_owed, List.countP_cons_of_neg (by decide), countP_effects]
    at hcount
  exact hcount

/-- Once a quit was carried out, so was all that was asked for before it. -/
lemma UnderWay.eq_untilQuit (h : UnderWay taken handled s) (hquit : .quit ∈ handled) :
    handled = untilQuit taken ++ [.quit] := by
  have hasked := h.asked
  have hlast := h.last
  rcases List.eq_nil_or_concat handled with rfl | ⟨before, c, rfl⟩
  · cases hquit
  · rw [List.concat_eq_append] at hquit hasked hlast ⊢
    rw [List.dropLast_concat] at hlast
    have hc : c = .quit := by
      rw [List.mem_append, List.mem_singleton] at hquit
      exact (hquit.resolve_left hlast).symm
    have hkept : ∀ x ∈ before, decide (x ≠ Command.quit) = true := by
      intro x hx
      rw [decide_eq_true_eq]
      rintro rfl
      exact hlast hx
    rw [untilQuit, hasked, hc, List.append_assoc, List.append_assoc, List.append_assoc,
      List.takeWhile_append_of_pos hkept]
    simp

lemma queue_of_works (h : s.works consoleTask = true) :
    s.queue.queued = s.queued ++ s.console.todo.take 1 ∧
      s.queue.console.todo = s.console.todo.drop 1 := by
  rw [queue, if_pos h]
  cases hconsole : s.console with
  | reading => exact ⟨(List.append_nil _).symm, by simp [hconsole, ConsoleAt.todo]⟩
  | queueing todo more =>
    cases todo with
    | nil =>
      cases more
      · exact ⟨(List.append_nil _).symm, by simp [endWorker, absorb, hconsole, ConsoleAt.todo]⟩
      · exact ⟨(List.append_nil _).symm, rfl⟩
    | cons c todo =>
      exact ⟨by simp [queued, Deque.push, ConsoleAt.todo], rfl⟩

lemma isLooping_of_hasLeft (h : s.hasLeft = true) : s.standing.isLooping = false := by
  rw [hasLeft] at h
  cases hstanding : s.standing with
  | polling | fetching | handling c | reporting =>
    rw [hstanding] at h
    cases h
  | _ => rfl

lemma UnderWay.honours (h : UnderWay taken handled s) : Honours p taken handled s where
  order := by
    rw [h.asked, queued]
    simp only [List.append_assoc]
  last := h.last
  effects := ⟨[.wrote greeting], by simp, h.effects⟩
  reloads := ⟨h.countP, by have hcount := h.countP; have hreloads := h.reloads; omega⟩
  silent c hstanding hnone := by
    have hword := (h.isAt hstanding).2
    rw [step_of_handling hstanding h.arrivals (by rw [hword]; decide), hnone]
    have htrace := h.trace
    simp only [Option.getD_none, Daemon.wiped]
    rw [← htrace]
  queueing := queue_of_works
  left hleft := by
    have hquit := h.quit_of_left (isLooping_of_hasLeft hleft)
    have hword := h.stopped.mpr hquit
    have hcount := h.countP
    have heq := h.eq_untilQuit hquit
    rw [hword, heq, List.count_append] at hcount
    exact ⟨heq, hcount⟩
  ended exit hexit := by
    obtain ⟨⟨-, hunharmed, hreported, hfailed⟩, hword⟩ := h.isAt (standing_of_exit hexit)
    have heq := h.eq_untilQuit (h.stopped.mp hword)
    have hreloads := h.reloads
    rw [hword, heq, List.count_append] at hreloads
    have hsame : s.daemon.app.app.reloads = (untilQuit taken).count .reload := hreloads
    rw [hsame] at hreported
    exact .inr ⟨hunharmed, hfailed, hreported⟩

/-- A session that has done nothing honours that nothing was asked for. -/
lemma honours_nothing {b : Bool} (hmanager : s.manager = { isAlive := b })
    (heffects : s.effects = [])
    (hword : s.daemon.word = .start) (hreloads : s.daemon.app.app.reloads = 0)
    (hcommands : s.commands.items = []) (hconsole : s.console = .reading)
    (hhand : s.standing.inHand = []) (hleft : s.hasLeft = false)
    (hended : ∀ exit, s.standing = .ended exit →
      exit = .failure .misconfigured ∧ ∃ f, p.config.validate.1 = .error f) :
    Honours p [] [] s where
  order := by
    rw [queued, hhand, hcommands, hconsole]
    rfl
  last := nofun
  effects := ⟨[], by simp, by rw [heffects, hword]; rfl⟩
  reloads := by
    rw [heffects, hword, hreloads]
    exact ⟨rfl, rfl⟩
  silent c hstanding := by
    rw [hstanding] at hhand
    cases hhand
  queueing hworks := by
    rw [works_of_vacant hmanager] at hworks
    cases hworks
  left hleft' := by
    rw [hleft] at hleft'
    cases hleft'
  ended exit hexit := by
    obtain ⟨hrefused, hinvalid⟩ := hended exit (standing_of_exit hexit)
    exact .inl ⟨hrefused, rfl, hinvalid⟩

lemma IsKnown.honours (h : IsKnown p cwd pid w taken handled s) : Honours p taken handled s := by
  cases h.stage with
  | unbegun host clock hcwd hfound hroom =>
    exact honours_nothing (b := true) rfl rfl rfl rfl rfl rfl rfl rfl nofun
  | refused h' =>
    refine honours_nothing h'.manager h'.effects h'.word h'.reloads h'.commands h'.console ?_ ?_ ?_
    · rw [h'.standing]
      rfl
    · rw [hasLeft, h'.standing]
      decide
    · intro exit hended
      rw [h'.standing] at hended
      cases hended
      exact ⟨rfl, h'.invalid⟩
  | underWay h' => exact h'.honours

/-- The commands of the console are honoured, each of them and in order, up to the first quit. Left
alone in the foreground, with its configuration file where it was, a session carries out what it
reads however the bytes come in chunks and in whatever order the console, the main thread and the
tick worker take their steps: the reload hook is run once for each line that asks for it, no matter
how fast they come, and nothing is done once a quit was carried out. That ends the main loop and
the session; nothing else does. -/
theorem commands_honoured (hcontext : p.context = Application.context)
    (hforeground : p.config.isDaemon = false) (host : Host) (pid : Nat)
    (hfound : ∀ path, p.config.configFile = some path → host.pathExists path = true)
    (moves : List Session.Move)
    (hcalm : ∀ m ∈ moves, m.IsCalm p.config.configFile host.cwd) :
    let s₀ : Session := { daemon := { app := { host := host }, attached := true, pid := pid } }
    let s := s₀.play p moves
    let taken := s₀.received p moves
    let handled := s₀.carried p moves
    (.main ∈ moves → s.standing ≠ .starting) ∧ Honours p taken handled s ∧
      ∀ more : List Session.Move, (∀ m ∈ more, m.IsCalm p.config.configFile host.cwd) →
        let s' := s.play p more
        let handled' := handled ++ s.carried p more
        (.quit ∈ handled →
          (2 ≤ more.countP Move.isMain → s'.standing.isLooping = false) ∧
            (4 ≤ more.countP Move.isMain → s'.isOver = true)) ∧
        (4 * s.queued.length ≤ more.countP Move.isMain →
          .quit ∈ handled' ∨ handled ++ s.queued <+: handled') := by
  intro s₀ s taken handled
  have hroom : ((⟨1000000000, by decide⟩ : Moment).after? patience).isSome = true := by decide
  have hfirst : IsKnown p host.cwd pid (s₀.daemon.view .free) [] [] s₀ := {
    context := hcontext
    foreground := hforeground
    steady := steady_first rfl rfl
    stage := .unbegun host s₀.clock rfl hfound hroom }
  have hknown : IsKnown p host.cwd pid (s₀.daemon.view .free) taken handled s := hfirst.play hcalm
  refine ⟨fun hmain => hfirst.begun hcalm (.inl hmain), hknown.honours, fun more hcalm' => ?_⟩
  intro s' handled'
  have hlater : IsKnown p host.cwd pid (s₀.daemon.view .free) (taken ++ s.received p more) handled'
      s' := hknown.play hcalm'
  have hfar := s.standing.toNext_le
  refine ⟨fun hquit => ?_, fun hmany => ?_⟩
  · have hclose : s'.standing.toNext ≤ s.standing.toNext - more.countP Move.isMain :=
      hknown.toNext_play hcalm' hquit
    have hunderWay := hlater.underWay (List.ne_nil_of_mem (List.mem_append_left _ hquit))
    obtain ⟨hleft, hover⟩ := hunderWay.of_quit (List.mem_append_left _ hquit)
    exact ⟨fun _ => hleft (by omega), fun _ => hover (by omega)⟩
  · have hn : 4 * (handled ++ s.queued).length + s.standing.toNext ≤
        4 * handled.length + 4 + more.countP Move.isMain := by
      rw [List.length_append]
      omega
    refine (hknown.progresses hcalm' (Nat.le_refl _) hn).imp_right fun hlength => ?_
    -- both are the first commands that were asked for
    have hbefore : handled ++ s.queued <+: asked (taken ++ s.received p more) := by
      refine List.IsPrefix.trans ?_ (hknown.asked_received hcalm')
      rw [hknown.honours.order]
      exact List.prefix_append _ _
    have hafter : handled' <+: asked (taken ++ s.received p more) := by
      rw [hlater.honours.order, List.append_assoc]
      exact List.prefix_append _ _
    exact List.prefix_of_prefix_length_le hbefore hafter hlength

/-- Two reloads come at once and a line comes in two parts. The main thread has carried out no more
than the reloads when the rest is read, in which a third reload follows the quit. -/
def hasty : List Session.Move :=
  [.main, .beside (.read (.bytes [82, 10, 82, 10, 118])), .beside .queue, .main, .beside .queue,
    .main, .beside .queue] ++ List.replicate 7 .main ++
  [.beside (.read (.bytes [10, 113, 10, 82, 10])), .beside .queue, .beside .queue,
    .beside .queue] ++ List.replicate 12 .main

/-- Both reloads are handled, and the third one is not. -/
theorem commands_honoured_hasty :
    let s₀ : Session := { daemon := { app := {}, attached := true, pid := 2 } }
    let s := s₀.play {} hasty
    asked (s₀.received {} hasty) = [.reload, .reload, .version, .quit, .reload] ∧
      s₀.carried {} hasty = [.reload, .reload, .version, .quit] ∧
      s.effects.countP Effect.isReload = 2 ∧ s.exit? = some .success ∧
      (recordsOf s.journal).getLast? = some (Session.report 2) := by
  intro s₀ s
  obtain ⟨-, hhonours, -⟩ := commands_honoured (p := {}) rfl rfl {} 2 nofun hasty
    (by simp [hasty, Move.IsCalm, Move.Spares])
  have hasked : asked (s₀.received {} hasty) = [.reload, .reload, .version, .quit, .reload] := by
    decide +kernel
  have huntil : untilQuit (s₀.received {} hasty) = [.reload, .reload, .version] := by
    rw [untilQuit, hasked]
    decide
  have hexit : s.exit? = some .success := by decide +kernel
  obtain ⟨hcarried, hreloads⟩ := hhonours.left (by decide +kernel)
  rw [huntil] at hcarried hreloads
  refine ⟨hasked, hcarried, hreloads, hexit, ?_⟩
  obtain ⟨hrefused, -⟩ | ⟨-, -, hreported⟩ := hhonours.ended .success hexit
  · cases hrefused
  · rw [huntil] at hreported
    exact hreported rfl

end Session

end Overseer
