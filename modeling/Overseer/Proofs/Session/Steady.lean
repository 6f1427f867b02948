import Overseer.Proofs.Session.Course

/-!
# Whole sessions

What happens beside the main thread asks something of the daemon at most. With the course of the
main thread this tells what holds at any time of a session: its daemon is started once and not
again, and is in service from then on until the session is over.
-/

namespace Overseer

open View

namespace Session

variable {p : Plan} {s s' : Session} {I I₀ : Site → Prop} {ok : Outcome → Prop}

/-! ### Beside the main thread -/

/-- What happens beside the main thread leaves it where it stands, and the daemon as it is but for
requests. -/
structure Beside (ok : Outcome → Prop) (s s' : Session) : Prop where
  goes : s.Goes (Event.IsRoutine ok) s'
  slots : s'.daemon.slots = s.daemon.slots
  attached : s'.daemon.attached = s.daemon.attached
  installed : s'.daemon.installed = s.daemon.installed
  standing : s'.standing = s.standing

lemma Beside.of_quiet (h : s.Quiet s') (hstanding : s'.standing = s.standing) :
    s.Beside ok s' :=
  ⟨h.goes, h.slots, h.attached, h.installed, hstanding⟩

lemma quiet_endWorker (s : Session) (id : TaskId) (v : Verdict Unit) :
    s.Quiet (s.endWorker id v) :=
  s.quiet_absorb _

lemma quiet_withTicker (s : Session) (t : Ticker Site) : s.Quiet (s.withTicker t) :=
  ⟨rfl, rfl, rfl, rfl, rfl⟩

/-- What the console has read and queued is no matter of the daemon. -/
lemma quiet_withConsole (s : Session) (pending : Bytes) (console : ConsoleAt)
    (commands : Deque Command) :
    s.Quiet { s with pending := pending, console := console, commands := commands } :=
  ⟨rfl, rfl, rfl, rfl, rfl⟩

lemma beside_onTicker (ok : Outcome → Prop) (s : Session) (f : Ticker Site → Ticker Site) :
    s.Beside ok (s.onTicker f) := by
  simp only [onTicker]
  split
  · split
    · exact .of_quiet ((s.quiet_withTicker _).trans (quiet_endWorker _ _ _)) rfl
    · exact .of_quiet (s.quiet_withTicker _) rfl
  · exact .of_quiet (.refl s) rfl

lemma beside_hear (ok : Outcome → Prop) (s : Session) (c : Console.Chunk) :
    s.Beside ok (s.hear c) := by
  simp only [hear]
  split
  · split
    · exact .of_quiet (s.quiet_withConsole _ _ _) rfl
    · exact .of_quiet (.refl s) rfl
  · exact .of_quiet (.refl s) rfl

lemma beside_queue (ok : Outcome → Prop) (s : Session) : s.Beside ok s.queue := by
  simp only [queue]
  split
  · split
    · exact .of_quiet (.refl s) rfl
    · exact .of_quiet (s.quiet_withConsole _ _ _) rfl
    · exact .of_quiet (s.quiet_withConsole _ _ _) rfl
    · exact .of_quiet (quiet_endWorker _ _ _) rfl
  · exact .of_quiet (.refl s) rfl

lemma beside_signal (ok : Outcome → Prop) (s : Session) (sig : OsSignal) :
    s.Beside ok (s.onDaemon (Act.modify (·.hear sig))).2 := by
  have hrun : (Act.modify (·.hear sig) : Act Site Unit) s.daemon.wiped =
      (.returned (), s.daemon.wiped.hear sig) := rfl
  obtain ⟨es, htrace, hes, -⟩ := s.daemon.wiped.hear_told sig
  have hroutine : ∀ e ∈ (s.daemon.wiped.hear sig).trace, e.IsRoutine ok := by
    rw [htrace]
    intro e he
    obtain ⟨b, rfl⟩ := hes e he
    trivial
  obtain ⟨s', heq, hgoes, hdaemon, hstanding⟩ := onDaemon_returned (∀ e ∈ ·, Event.IsRoutine ok e)
    hrun (Act.tells_modify fun d => Daemon.leads_hear rfl sig) hroutine
  have hsame : (s.daemon.wiped.hear sig).wiped.slots = s.daemon.slots ∧
      (s.daemon.wiped.hear sig).wiped.attached = s.daemon.attached ∧
      (s.daemon.wiped.hear sig).wiped.installed = s.daemon.installed := by
    unfold Daemon.hear Daemon.ask
    split
    · split <;> exact ⟨rfl, rfl, rfl⟩
    · exact ⟨rfl, rfl, rfl⟩
  rw [heq]
  rw [← hdaemon] at hsame
  exact ⟨hgoes, hsame.1, hsame.2.1, hsame.2.2, hstanding⟩

lemma beside_happen (ok : Outcome → Prop) (p : Plan) (s : Session) (h : Happening) :
    s.Beside ok (s.happen p h) := by
  cases h with
  | read c => exact s.beside_hear ok c
  | queue => exact s.beside_queue ok
  | work now =>
    obtain ⟨hgoes, hslots, hattached, hinstalled, hstanding⟩ :=
      beside_onTicker ok { s with clock := now } (·.work p.context.tick now)
    exact ⟨hgoes, hslots, hattached, hinstalled, hstanding⟩
  | elapse => exact s.beside_onTicker ok _
  | crash id payload => exact .of_quiet (s.quiet_endWorker _ _) rfl
  | signal sig => exact s.beside_signal ok sig
  | change t => exact .of_quiet ⟨rfl, rfl, rfl, rfl, rfl⟩ rfl

/-- Whatever changes of files keep `J`. -/
def Move.Keeps (J : Site → Prop) : Session.Move → Prop
  | .beside (.change t) => ∀ a, J a → J { a with host := { a.host with tree := t } }
  | _ => True

variable {J : Site → Prop}

lemma app_onTicker {f : Ticker Site → Ticker Site} (hf : ∀ t, J t.app → J (f t).app)
    (h : J s.daemon.app) : J (s.onTicker f).daemon.app := by
  simp only [onTicker]
  split
  · split <;> exact hf _ h
  · exact h

lemma app_happen (hcontext : p.context = Application.context)
    (htick : ∀ least a, J a → J (Application.tick least a).2.1) {h : Happening}
    (hkeeps : Move.Keeps J (.beside h)) (hJ : J s.daemon.app) : J (s.happen p h).daemon.app := by
  cases h with
  | read c =>
    simp only [happen, hear]
    split
    · split <;> exact hJ
    · exact hJ
  | queue =>
    simp only [happen, queue]
    split
    · split <;> exact hJ
    · exact hJ
  | work now =>
    refine app_onTicker (s := { s with clock := now }) (fun t ht => ?_) hJ
    refine Ticker.app_work (fun least a ha => ?_) ht now
    rw [hcontext]
    exact htick least a ha
  | elapse =>
    refine app_onTicker (fun t ht => ?_) hJ
    rw [Ticker.app_elapse]
    exact ht
  | crash id payload => exact hJ
  | signal sig =>
    have happ : (s.happen p (.signal sig)).daemon.app = s.daemon.app := by
      simp only [happen, onDaemon, Act.modify, Daemon.hear, Daemon.ask]
      split
      · split <;> rfl
      · rfl
    rw [happ]
    exact hJ
  | change t => exact hkeeps s.daemon.app hJ

/-! ### Whole sessions -/

/-- What holds of a session at any time, where `w` is what was known of its daemon at first. -/
structure Steady (I₀ I : Site → Prop) (ok : Outcome → Prop) (w : View Site) (s : Session) :
    Prop where
  path : Path w s.told (s.daemon.view .free)
  once : MayStart (Event.IsOrderly ok) s.told
  fresh : s.standing = .starting →
    (∀ e ∈ s.told, e.IsRoutine ok) ∧ s.daemon.attached = true ∧ I₀ s.daemon.app
  steady : s.standing ≠ .starting → s.isOver = false →
    StartsOnce (Event.IsRoutine ok) s.told ∧ s.daemon.InService I

variable {w : View Site}

lemma Steady.main (hp : p.Upholds I₀ I ok) (h : s.Steady I₀ I ok w) :
    (s.step p).Steady I₀ I ok w ∧ s.told <+: (s.step p).told := by
  by_cases hstarting : s.standing = .starting
  · obtain ⟨htold, hattached, hsite⟩ := h.fresh hstarting
    obtain ⟨⟨es, htold', hpath, hes⟩, hsteady, hbegun⟩ : s.Begins I ok (s.step p) := by
      rw [step, hstarting]
      exact begins_start hp hattached hsite
    refine ⟨⟨?_, ?_, fun hstanding => absurd hstanding hbegun, fun _ hover => ?_⟩, es, htold'.symm⟩
    · rw [htold']
      exact h.path.append hpath
    · rw [htold']
      exact .prepend (fun e he => .inl (htold e he)) hes
    · obtain ⟨⟨es', htold'', -, hes'⟩, hservice⟩ := hsteady hover
      rw [htold'']
      exact ⟨.prepend htold hes', hservice⟩
  · by_cases hover : s.isOver = true
    · obtain ⟨exit, hended⟩ := s.isOver_iff.mp hover
      have hsame : s.step p = s := step_ended hended
      rw [hsame]
      exact ⟨h, List.prefix_refl _⟩
    · rw [Bool.not_eq_true] at hover
      obtain ⟨htold, hservice⟩ := h.steady hstarting hover
      obtain ⟨⟨es, htold', hpath, hes⟩, hsteady, hbegun⟩ :=
        proceeds_step hp hservice hstarting hover
      refine ⟨⟨?_, ?_, fun hstanding => absurd hstanding hbegun, fun _ hover' => ?_⟩, es,
        htold'.symm⟩
      · rw [htold']
        exact h.path.append hpath
      · rw [htold']
        exact h.once.append hes
      · obtain ⟨⟨es', htold'', -, hes'⟩, hservice'⟩ := hsteady hover'
        rw [htold'']
        exact ⟨htold.append hes', hservice'⟩

lemma Steady.beside (hp : p.Upholds I₀ I ok) {h : Happening}
    (hkeeps₀ : Move.Keeps I₀ (.beside h)) (hkeeps : Move.Keeps I (.beside h))
    (hs : s.Steady I₀ I ok w) :
    (s.happen p h).Steady I₀ I ok w ∧ s.told <+: (s.happen p h).told := by
  obtain ⟨⟨es, htold, hpath, hes⟩, hslots, hattached, hinstalled, hstanding⟩ :=
    s.beside_happen ok p h
  refine ⟨⟨?_, ?_, fun hstarting => ?_, fun hbegun hover => ?_⟩, es, htold.symm⟩
  · rw [htold]
    exact hs.path.append hpath
  · rw [htold]
    exact hs.once.append fun e he => .inl (hes e he)
  · rw [hstanding] at hstarting
    obtain ⟨hroutine, hattached', hsite⟩ := hs.fresh hstarting
    rw [htold, hattached]
    exact ⟨List.forall_mem_append.mpr ⟨hroutine, hes⟩, hattached',
      app_happen hp.context hp.tickBefore hkeeps₀ hsite⟩
  · rw [hstanding] at hbegun
    rw [isOver, hstanding] at hover
    obtain ⟨honce, hservice⟩ := hs.steady hbegun hover
    refine ⟨?_, fun slot => ?_, ?_, ?_, app_happen hp.context hp.tick hkeeps hservice.site⟩
    · rw [htold]
      exact honce.append hes
    · rw [hslots, hservice.slots]
    · rw [hattached, hservice.attached]
    · rw [hinstalled, hservice.installed]

lemma move_main (p : Plan) (s : Session) : s.move p .main = s.step p := by
  rw [move]

lemma move_beside (p : Plan) (s : Session) (h : Happening) :
    s.move p (.beside h) = s.happen p h := by
  rw [move]

/-- A session stays as it should, whatever moves are made. -/
theorem steady_play (hp : p.Upholds I₀ I ok) {moves : List Session.Move}
    (hkeeps₀ : ∀ m ∈ moves, m.Keeps I₀) (hkeeps : ∀ m ∈ moves, m.Keeps I)
    (h : s.Steady I₀ I ok w) :
    (s.play p moves).Steady I₀ I ok w ∧ s.told <+: (s.play p moves).told := by
  induction moves generalizing s with
  | nil => exact ⟨h, List.prefix_refl _⟩
  | cons m moves ih =>
    rw [List.forall_mem_cons] at hkeeps₀ hkeeps
    obtain ⟨hmoved, htold⟩ :
        (s.move p m).Steady I₀ I ok w ∧ s.told <+: (s.move p m).told := by
      cases m with
      | main =>
        rw [move_main]
        exact h.main hp
      | beside happening =>
        rw [move_beside]
        exact h.beside hp hkeeps₀.1 hkeeps.1
    obtain ⟨hplayed, htold'⟩ := ih hkeeps₀.2 hkeeps.2 hmoved
    exact ⟨hplayed, htold.trans htold'⟩

/-- A session begins so. -/
lemma steady_first {d : Daemon Site} (hattached : d.attached = true) (hsite : I₀ d.app) :
    ({ daemon := d } : Session).Steady I₀ I ok (d.view .free) :=
  ⟨.nil _, .inl (by simp [told]), fun _ => ⟨by simp [told], hattached, hsite⟩,
    fun hbegun => absurd rfl hbegun⟩

end Session

end Overseer
