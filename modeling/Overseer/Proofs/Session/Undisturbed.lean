import Overseer.Proofs.Session.Handling

/-!
# Undisturbed sessions

No signal comes to the session, and its configuration file stays where it is. Whatever moves are
made then, it has not begun, or its configuration was refused, or it keeps the balance between what
it has read and what it has done. Every four steps of the main thread carry out a command, as long
as one is queued and nobody has asked to quit, and four steps after a quit the session is over.
-/

namespace Overseer

/-- How many steps the main thread needs to carry out a command, or to end the session once it has
left the main loop. -/
def MainAt.toNext : MainAt → Nat
  | .reporting => 4
  | .polling => 3
  | .fetching => 2
  | .handling _ => 1
  | .stopping => 2
  | .closing _ => 1
  | .starting | .ended _ => 0

lemma MainAt.toNext_le (m : MainAt) : m.toNext ≤ 4 := by
  unfold toNext
  split <;> omega

namespace Session

open Console

variable {p : Plan} {s s' : Session} {taken : List Chunk} {handled : List Command}
  {file : Option String} {cwd : Location} {pid : Nat}

/-! ### How far a session comes -/

/-- Time has gone by and files have changed, but not the one that is needed. -/
def Ages (file : Option String) (cwd : Location) (s s' : Session) : Prop :=
  ∃ clock tree,
    s' = { s with
      clock := clock
      daemon := { s.daemon with
        app := { s.daemon.app with host := { s.host with tree := tree } } } } ∧
    ((s.clock.after? patience).isSome = true → (clock.after? patience).isSome = true) ∧
    (s.host.cwd = cwd → (∀ path, file = some path → s.host.pathExists path = true) →
      ∀ path, file = some path →
        ({ tree := tree, cwd := s.host.cwd } : Host).pathExists path = true)

lemma Ages.refl (file : Option String) (cwd : Location) (s : Session) : Ages file cwd s s :=
  ⟨s.clock, s.host.tree, rfl, id, fun _ hfound => hfound⟩

lemma works_of_vacant {b : Bool} (hmanager : s.manager = { isAlive := b }) (id : TaskId) :
    s.works id = false := by
  rw [works, hmanager]
  rfl

lemma takes_of_vacant {b : Bool} (hmanager : s.manager = { isAlive := b }) (h : Happening) :
    s.takes h = [] := by
  cases h with
  | read c =>
    rw [takes, works_of_vacant hmanager, if_neg]
    simp
  | _ => rfl

/-- As long as there are no workers, nothing else happens. -/
lemma ages_of_vacant {b : Bool} (hmanager : s.manager = { isAlive := b }) {h : Happening}
    (hcalm : Move.IsCalm file cwd (.beside h)) : Ages file cwd s (s.happen p h) := by
  have hsame (hkept : s.happen p h = s) : Ages file cwd s (s.happen p h) := by
    rw [hkept]
    exact .refl file cwd s
  have hidle := works_of_vacant hmanager
  cases h with
  | read c => exact hsame (hear_of_not_ready (by rw [hidle]; simp) c)
  | signal sig => exact hcalm.elim
  | queue => exact hsame (by simp only [happen, queue, hidle, Bool.false_eq_true, if_false])
  | work now =>
    have hidle' : ({ s with clock := now } : Session).works tickTask = false := hidle tickTask
    refine ⟨now, s.host.tree, ?_, fun _ => hcalm, fun _ hfound => hfound⟩
    simp only [happen, onTicker, hidle', Bool.false_eq_true, if_false]
    rfl
  | elapse => exact hsame (by simp only [happen, onTicker, hidle, Bool.false_eq_true, if_false])
  | crash id payload =>
    exact hsame (endWorker_of_idle (by rw [hmanager]; rfl) (by rw [hmanager]))
  | change t =>
    refine ⟨s.clock, t, rfl, id, fun hcwd _ path hpath => ?_⟩
    rw [hcwd]
    exact hcalm path hpath

lemma Stage.beside (hcontext : p.context = Application.context) {h : Happening}
    (hcalm : Move.IsCalm p.config.configFile cwd (.beside h))
    (hs : Stage p cwd pid taken handled s) :
    Stage p cwd pid (taken ++ s.takes h) handled (s.happen p h) := by
  cases hs with
  | unbegun host clock hcwd hfound hroom =>
    have hmanager : (Session.unbegun host pid clock).manager = { isAlive := true } := rfl
    obtain ⟨clock', tree, hsame, hclock, hfile⟩ := ages_of_vacant (p := p) hmanager hcalm
    rw [hsame, takes_of_vacant hmanager]
    exact .unbegun { host with tree := tree } clock' hcwd (hfile hcwd hfound) (hclock hroom)
  | refused h' =>
    obtain ⟨clock', tree, hsame, -, -⟩ := ages_of_vacant (p := p) h'.manager hcalm
    rw [hsame, takes_of_vacant h'.manager]
    exact .refused { h' with }
  | underWay h' => exact .underWay (h'.beside hcontext hcalm)

lemma Stage.main (hcontext : p.context = Application.context)
    (hforeground : p.config.isDaemon = false) {I₀ : Site → Prop} {w : View Site}
    (hsteady : s.Steady I₀ (Application.Finds file cwd) (· = .passed) w)
    (hs : Stage p cwd pid taken handled s) :
    Stage p cwd pid taken (handled ++ s.standing.inHand) (s.step p) := by
  cases hs with
  | unbegun host clock hcwd hfound hroom => exact .start hcontext hforeground hfound hroom
  | refused h' =>
    have hsame : s.step p = s := step_ended h'.standing
    rw [hsame, h'.standing]
    exact .refused h'
  | underWay h' =>
    exact .underWay (h'.main hcontext fun hover => (hsteady.steady h'.begun hover).2)

/-- What a session takes in at the console in the course of some moves. -/
def received (p : Plan) (s : Session) : List Session.Move → List Chunk
  | [] => []
  | .main :: moves => received p (s.step p) moves
  | .beside h :: moves => s.takes h ++ received p (s.happen p h) moves

/-- The commands that a session carries out in the course of some moves. -/
def carried (p : Plan) (s : Session) : List Session.Move → List Command
  | [] => []
  | .main :: moves => s.standing.inHand ++ carried p (s.step p) moves
  | .beside h :: moves => carried p (s.happen p h) moves

lemma Move.IsCalm.spares {m : Session.Move} (h : m.IsCalm file cwd) : m.Spares file cwd := by
  cases m with
  | main => trivial
  | beside happening =>
    cases happening with
    | change t => exact h
    | _ => trivial

/-- What is known of a session in the foreground that was left alone. -/
structure IsKnown (p : Plan) (cwd : Location) (pid : Nat) (w : View Site) (taken : List Chunk)
    (handled : List Command) (s : Session) : Prop where
  context : p.context = Application.context
  foreground : p.config.isDaemon = false
  steady : s.Steady (fun a => a.host.cwd = cwd) (Application.Finds p.config.configFile cwd)
    (· = .passed) w
  stage : Stage p cwd pid taken handled s

variable {w : View Site}

lemma IsKnown.upholds (h : IsKnown p cwd pid w taken handled s) :
    p.Upholds (fun a => a.host.cwd = cwd) (Application.Finds p.config.configFile cwd)
      (· = .passed) :=
  upholds_finds h.context (.inl h.foreground)

lemma IsKnown.main (h : IsKnown p cwd pid w taken handled s) :
    IsKnown p cwd pid w taken (handled ++ s.standing.inHand) (s.step p) where
  context := h.context
  foreground := h.foreground
  steady := (h.steady.main h.upholds).1
  stage := h.stage.main h.context h.foreground h.steady

lemma IsKnown.beside {happening : Happening}
    (hcalm : Move.IsCalm p.config.configFile cwd (.beside happening))
    (h : IsKnown p cwd pid w taken handled s) :
    IsKnown p cwd pid w (taken ++ s.takes happening) handled (s.happen p happening) where
  context := h.context
  foreground := h.foreground
  steady := (h.steady.beside h.upholds (Move.keeps_cwd (.beside happening)) hcalm.spares.keeps).1
  stage := h.stage.beside h.context hcalm

/-- The balance is kept in the whole course of a session. -/
lemma IsKnown.play {moves : List Session.Move}
    (hcalm : ∀ m ∈ moves, m.IsCalm p.config.configFile cwd)
    (h : IsKnown p cwd pid w taken handled s) :
    IsKnown p cwd pid w (taken ++ s.received p moves) (handled ++ s.carried p moves)
      (s.play p moves) := by
  induction moves generalizing s taken handled with
  | nil =>
    rw [received, carried, List.append_nil, List.append_nil]
    exact h
  | cons m moves ih =>
    rw [List.forall_mem_cons] at hcalm
    cases m with
    | main =>
      have hrest := ih hcalm.2 h.main
      rw [List.append_assoc] at hrest
      exact hrest
    | beside happening =>
      have hrest := ih hcalm.2 (h.beside hcalm.1)
      rw [List.append_assoc] at hrest
      exact hrest

lemma IsKnown.begun_step (h : IsKnown p cwd pid w taken handled s) :
    (s.step p).standing ≠ .starting := by
  by_cases hstarting : s.standing = .starting
  · obtain ⟨-, hattached, hsite⟩ := h.steady.fresh hstarting
    rw [step, hstarting]
    exact (begins_start h.upholds hattached hsite).begun
  · exact standing_ne_starting h.upholds h.steady hstarting

/-- The first step of the main thread begins the session. -/
lemma IsKnown.begun {moves : List Session.Move}
    (hcalm : ∀ m ∈ moves, m.IsCalm p.config.configFile cwd)
    (h : IsKnown p cwd pid w taken handled s) (hmoved : .main ∈ moves ∨ s.standing ≠ .starting) :
    (s.play p moves).standing ≠ .starting := by
  induction moves generalizing s taken handled with
  | nil => exact hmoved.resolve_left (List.not_mem_nil)
  | cons m moves ih =>
    rw [List.forall_mem_cons] at hcalm
    cases m with
    | main => exact ih hcalm.2 h.main (.inr h.begun_step)
    | beside happening =>
      refine ih hcalm.2 (h.beside hcalm.1) (hmoved.imp (fun hmain => ?_) fun hbegun => ?_)
      · exact (List.mem_cons.mp hmain).resolve_left nofun
      · rwa [move_beside, (beside_happen (· = .passed) p s happening).standing]

/-- What was asked for before is not asked for otherwise when more is read. -/
lemma IsKnown.asked_takes (h : IsKnown p cwd pid w taken handled s) (happening : Happening) :
    asked taken <+: asked (taken ++ s.takes happening) := by
  have hnothing (hnone : s.takes happening = []) :
      asked taken <+: asked (taken ++ s.takes happening) :=
    ⟨[], by rw [hnone, List.append_nil, List.append_nil]⟩
  cases h.stage with
  | unbegun host clock hcwd hfound hroom => exact hnothing (takes_of_vacant (b := true) rfl _)
  | refused h' => exact hnothing (takes_of_vacant h'.manager _)
  | underWay h' =>
    cases happening with
    | read c =>
      by_cases hready : s.console = .reading ∧ s.works consoleTask = true
      · have htakes : s.takes (.read c) = [c] := if_pos hready
        rw [htakes, asked_concat (h'.reading (by rw [hready.1]; rfl)).1]
        exact List.prefix_append _ _
      · exact hnothing (if_neg hready)
    | _ => exact hnothing rfl

lemma IsKnown.asked_received {moves : List Session.Move}
    (hcalm : ∀ m ∈ moves, m.IsCalm p.config.configFile cwd)
    (h : IsKnown p cwd pid w taken handled s) :
    asked taken <+: asked (taken ++ s.received p moves) := by
  induction moves generalizing s taken handled with
  | nil => exact ⟨[], by rw [received, List.append_nil, List.append_nil]⟩
  | cons m moves ih =>
    rw [List.forall_mem_cons] at hcalm
    cases m with
    | main => exact ih hcalm.2 h.main
    | beside happening =>
      rw [received, ← List.append_assoc]
      exact (h.asked_takes happening).trans (ih hcalm.2 (h.beside hcalm.1))

/-! ### How fast it comes there -/

lemma UnderWay.quit_of_left (h : UnderWay taken handled s) (hleft : s.standing.isLooping = false) :
    .quit ∈ handled := by
  refine h.stopped.mp ?_
  cases hstanding : s.standing with
  | starting => exact absurd hstanding h.begun
  | polling | fetching | handling c | reporting =>
    rw [hstanding] at hleft
    cases hleft
  | stopping | closing stopped | ended exit => exact (h.isAt hstanding).2

/-- What has not begun has carried out nothing. -/
lemma IsKnown.underWay (h : IsKnown p cwd pid w taken handled s) (hhandled : handled ≠ []) :
    UnderWay taken handled s := by
  cases h.stage with
  | unbegun host clock hcwd hfound hroom => exact absurd rfl hhandled
  | refused h' => exact absurd rfl hhandled
  | underWay h' => exact h'

/-- A session that is to stop comes closer to its end with each step of the main thread. -/
lemma IsKnown.toNext_step (h : IsKnown p cwd pid w taken handled s) (hquit : .quit ∈ handled) :
    (s.step p).standing.toNext ≤ s.standing.toNext - 1 := by
  have hunderWay := h.underWay (List.ne_nil_of_mem hquit)
  have hword := hunderWay.stopped.mpr hquit
  cases hstanding : s.standing with
  | starting => exact absurd hstanding hunderWay.begun
  | polling =>
    rw [step_of_settled hstanding hunderWay.arrivals (by rw [hword]; rfl), hword]
    exact Nat.le_refl 2
  | fetching | handling c => cases (hunderWay.isAt hstanding).2.symm.trans hword
  | reporting =>
    rw [step_reporting hstanding]
    exact Nat.le_refl 3
  | stopping =>
    rw [step, hstanding]
    exact Nat.le_refl 1
  | closing stopped =>
    have hservice := (h.steady.steady hunderWay.begun (by rw [isOver, hstanding])).2
    obtain ⟨v, exit, -, hclose⟩ := close_eq h.upholds hservice stopped
    rw [step, hstanding]
    simp only
    rw [hclose, standing_finish]
    exact Nat.le_refl 0
  | ended exit =>
    have hsame : s.step p = s := step_ended hstanding
    rw [hsame, hstanding]
    exact Nat.le_refl 0

lemma IsKnown.toNext_play {moves : List Session.Move}
    (hcalm : ∀ m ∈ moves, m.IsCalm p.config.configFile cwd)
    (h : IsKnown p cwd pid w taken handled s) (hquit : .quit ∈ handled) :
    (s.play p moves).standing.toNext ≤ s.standing.toNext - moves.countP Move.isMain := by
  induction moves generalizing s taken handled with
  | nil => exact Nat.le_refl _
  | cons m moves ih =>
    rw [List.forall_mem_cons] at hcalm
    cases m with
    | main =>
      have hstep := h.toNext_step hquit
      have hrest : (s.play p (.main :: moves)).standing.toNext ≤
          (s.step p).standing.toNext - moves.countP Move.isMain :=
        ih hcalm.2 h.main (List.mem_append_left _ hquit)
      rw [List.countP_cons_of_pos rfl]
      omega
    | beside happening =>
      have hstanding : (s.happen p happening).standing = s.standing :=
        (beside_happen (· = .passed) p s happening).standing
      have hrest : (s.play p (.beside happening :: moves)).standing.toNext ≤
          (s.happen p happening).standing.toNext - moves.countP Move.isMain :=
        ih hcalm.2 (h.beside hcalm.1) hquit
      rw [List.countP_cons_of_neg Bool.false_ne_true]
      rwa [hstanding] at hrest

/-- Once a quit was carried out, it is known how far it is to the end. -/
lemma UnderWay.of_quit (h : UnderWay taken handled s) (hquit : .quit ∈ handled) :
    (s.standing.toNext ≤ 2 → s.standing.isLooping = false) ∧
      (s.standing.toNext = 0 → s.isOver = true) := by
  have hword := h.stopped.mpr hquit
  rw [isOver]
  cases hstanding : s.standing with
  | starting => exact absurd hstanding h.begun
  | polling | reporting =>
    exact ⟨fun hclose => absurd hclose (by decide), fun hnow => absurd hnow (by decide)⟩
  | fetching | handling c => cases (h.isAt hstanding).2.symm.trans hword
  | stopping | closing stopped =>
    exact ⟨fun _ => rfl, fun hnow => absurd hnow (Nat.succ_ne_zero _)⟩
  | ended exit => exact ⟨fun _ => rfl, fun _ => rfl⟩

/-- The commands that are queued or in hand. -/
def queued (s : Session) : List Command := s.standing.inHand ++ s.commands.items

/-- As long as nobody asked to quit, each step of the main thread brings it closer to a command
that it carries out, unless none is queued. -/
lemma IsKnown.gains (h : IsKnown p cwd pid w taken handled s) (hunderWay : UnderWay taken handled s)
    (hquit : .quit ∉ handled) :
    (s.queued = []) ∨
      handled ++ s.queued = handled ++ s.standing.inHand ++ (s.step p).queued ∧
      4 * handled.length + 4 - s.standing.toNext + 1 ≤
        4 * (handled ++ s.standing.inHand).length + 4 - (s.step p).standing.toNext := by
  cases hstanding : s.standing with
  | starting => exact absurd hstanding hunderWay.begun
  | polling =>
    have hservice := (h.steady.steady hunderWay.begun (by rw [isOver, hstanding])).2
    obtain hword | hword | hword := hunderWay.word_of_polling hstanding
    · rw [step_of_settled hstanding hunderWay.arrivals (by rw [hword]; rfl), hword]
      simp [queued, hstanding, MainAt.inHand, MainAt.toNext, State.isAlive]
    · rw [step_of_reload hstanding hunderWay.arrivals hword (hservice.slots .reload)
        hservice.site.reconfigure]
      simp [queued, hstanding, MainAt.inHand, MainAt.toNext]
    · exact absurd (hunderWay.stopped.mp hword) hquit
  | fetching =>
    cases hitems : s.commands.items with
    | nil => simp [queued, hstanding, hitems, MainAt.inHand]
    | cons c rest =>
      rw [step_of_got hstanding hunderWay.room hitems]
      simp [queued, hstanding, hitems, MainAt.inHand, MainAt.toNext]
  | handling c =>
    have hword := (hunderWay.isAt hstanding).2
    rw [step_of_handling hstanding hunderWay.arrivals (by rw [hword]; decide)]
    simp [queued, hstanding, MainAt.inHand, MainAt.toNext]
    omega
  | reporting =>
    obtain ⟨rs, heard, hstep⟩ := step_of_reporting (p := p) hstanding
    rw [hstep]
    simp [queued, hstanding, MainAt.inHand, MainAt.toNext]
  | stopping | closing stopped | ended exit =>
    exact absurd (hunderWay.stopped.mp (hunderWay.isAt hstanding).2) hquit

lemma items_onTicker (s : Session) (f : Ticker Site → Ticker Site) :
    (s.onTicker f).commands.items = s.commands.items := by
  simp only [onTicker]
  split
  · split <;> rfl
  · rfl

/-- Nobody but the main thread takes a command that is queued. -/
lemma items_happen (p : Plan) (s : Session) (h : Happening) :
    s.commands.items <+: (s.happen p h).commands.items := by
  have hsame (hkept : (s.happen p h).commands.items = s.commands.items) :
      s.commands.items <+: (s.happen p h).commands.items :=
    ⟨[], by rw [hkept, List.append_nil]⟩
  cases h with
  | read c =>
    refine hsame ?_
    simp only [happen, hear]
    split
    · split <;> rfl
    · rfl
  | queue =>
    simp only [happen, queue]
    split
    · split
      · exact List.prefix_refl _
      · exact List.prefix_append _ _
      · exact List.prefix_refl _
      · exact List.prefix_refl _
    · exact List.prefix_refl _
  | work now => exact hsame (items_onTicker _ _)
  | elapse => exact hsame (items_onTicker _ _)
  | crash id payload => exact hsame rfl
  | signal sig => exact hsame rfl
  | change t => exact hsame rfl

lemma queued_happen (p : Plan) (s : Session) (h : Happening) :
    s.queued <+: (s.happen p h).queued := by
  rw [queued, queued, (beside_happen (· = .passed) p s h).standing]
  exact (List.prefix_append_right_inj _).mpr (items_happen p s h)

lemma IsKnown.underWay_of_queued (h : IsKnown p cwd pid w taken handled s)
    (hqueued : s.queued ≠ []) : UnderWay taken handled s := by
  cases h.stage with
  | unbegun host clock hcwd hfound hroom => exact absurd rfl hqueued
  | refused h' =>
    refine absurd ?_ hqueued
    rw [queued, h'.standing, h'.commands]
    rfl
  | underWay h' => exact h'

lemma UnderWay.toNext_pos (h : UnderWay taken handled s) (hquit : .quit ∉ handled) :
    0 < s.standing.toNext := by
  cases hstanding : s.standing with
  | starting => exact absurd hstanding h.begun
  | ended exit => exact absurd (h.stopped.mp (h.isAt hstanding).2) hquit
  | _ => exact Nat.succ_pos _

/-- Four steps of the main thread for each command are enough, unless somebody asks to quit. -/
lemma IsKnown.progresses {moves : List Session.Move} {n : Nat}
    (hcalm : ∀ m ∈ moves, m.IsCalm p.config.configFile cwd)
    (h : IsKnown p cwd pid w taken handled s) (hn : n ≤ (handled ++ s.queued).length)
    (hmany : 4 * n + s.standing.toNext ≤ 4 * handled.length + 4 + moves.countP Move.isMain) :
    .quit ∈ handled ++ s.carried p moves ∨ n ≤ (handled ++ s.carried p moves).length := by
  induction moves generalizing s taken handled with
  | nil =>
    rw [carried, List.append_nil]
    by_cases hquit : .quit ∈ handled
    · exact .inl hquit
    by_cases hqueued : s.queued = []
    · rw [hqueued, List.append_nil] at hn
      exact .inr hn
    · have hpos := (h.underWay_of_queued hqueued).toNext_pos hquit
      rw [List.countP_nil] at hmany
      exact .inr (by omega)
  | cons m moves ih =>
    rw [List.forall_mem_cons] at hcalm
    cases m with
    | main =>
      rw [carried, ← List.append_assoc]
      by_cases hquit : .quit ∈ handled
      · exact .inl (List.mem_append_left _ (List.mem_append_left _ hquit))
      by_cases hqueued : s.queued = []
      · rw [hqueued, List.append_nil] at hn
        exact .inr (by simp only [List.length_append]; omega)
      · obtain hnothing | ⟨hsame, hgain⟩ := h.gains (h.underWay_of_queued hqueued) hquit
        · exact absurd hnothing hqueued
        · refine ih hcalm.2 h.main (by rw [← hsame]; exact hn) ?_
          rw [List.countP_cons_of_pos rfl] at hmany
          have hfar := (s.step p).standing.toNext_le
          omega
    | beside happening =>
      have hstanding : (s.happen p happening).standing = s.standing :=
        (beside_happen (· = .passed) p s happening).standing
      have hmore := (queued_happen p s happening).length_le
      rw [List.countP_cons_of_neg Bool.false_ne_true] at hmany
      refine ih hcalm.2 (h.beside hcalm.1) ?_ (by rw [hstanding]; exact hmany)
      rw [List.length_append] at hn ⊢
      omega

end Session

end Overseer
