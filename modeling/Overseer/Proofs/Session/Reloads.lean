import Overseer.Proofs.Session.Signals
import Overseer.Proofs.System.Growth

/-!
# Reloads of a healthy service

A reload looks for the configuration file that was validated at the start, by the path it was given.
As long as the file is there and the path is read from where it was read first, every reload passes
and the daemon goes on. A service in the background works in the root directory, so there a path
that is not absolute may lead elsewhere.
-/

namespace Overseer

open View

/-- The reload hook finds the remembered file, whose path may depend on the working directory. -/
structure Application.Finds (file : Option String) (cwd : Location) (a : Site) : Prop where
  remembered : a.app.configFile = file
  isThere : ∀ path, file = some path → a.host.pathExists path = true
  reading : ∀ path, file = some path → Path.isAbsolute path = true ∨ a.host.cwd = cwd

namespace Application

variable {file : Option String} {cwd : Location} {a : Site}

lemma lookFor_of_pathExists {path : String} {h : Host} (hthere : h.pathExists path = true) :
    (lookFor path h).1 = true := by
  rw [lookFor, if_pos hthere]

/-- A validation that passes remembers a file that is there. -/
lemma validate_of_passed {c : Config} (h : (validate c a).1.isFailed = false) :
    (validate c a).2.1 = { a with app := { a.app with configFile := c.configFile } } ∧
      ∀ path, c.configFile = some path → a.host.pathExists path = true := by
  simp only [validate] at h ⊢
  split at h
  · cases h
  · cases hfile : c.configFile with
    | none => exact ⟨rfl, nofun⟩
    | some path =>
      simp only [hfile] at h
      by_cases hthere : a.host.pathExists path = true
      · simp only [lookFor, if_pos hthere]
        refine ⟨rfl, fun path' hpath' => ?_⟩
        cases hpath'
        exact hthere
      · simp only [lookFor, if_neg hthere] at h
        cases h

lemma Finds.reconfigure (h : Finds file cwd a) : (reconfigure a).1 = .passed := by
  simp only [Application.reconfigure]
  rw [h.remembered]
  cases file with
  | none => rfl
  | some path =>
    simp only [lookFor_of_pathExists (h.isThere path rfl)]
    rfl

/-- The hooks of an application that finds its file pass, and it goes on to find it. -/
lemma upholds_finds (file : Option String) (cwd : Location) :
    Upholds (Finds file cwd) (· = .passed) where
  outcome slot a h := by
    cases slot with
    | reload => exact h.reconfigure
    | _ => rfl
  site slot a h := by
    obtain ⟨hremembered, hthere, hreading⟩ := h
    cases slot with
    | reload => exact ⟨hremembered, hthere, hreading⟩
    | _ => exact ⟨hremembered, hthere, hreading⟩

/-- Files may be made, and the working directory may change where it does not matter. -/
lemma Finds.of_grows {h : Host} (hfinds : Finds file cwd a) (htree : a.host.tree.Grows h.tree)
    (hreading : ∀ path, file = some path → Path.isAbsolute path = true ∨ h.cwd = cwd) :
    Finds file cwd { a with host := h } := by
  refine ⟨hfinds.remembered, fun path hpath => ?_, hreading⟩
  refine Host.pathExists_of_grows htree ?_ (hfinds.isThere path hpath)
  rcases hreading path hpath with habsolute | hcwd
  · exact .inl habsolute
  · rcases hfinds.reading path hpath with habsolute | hcwd'
    · exact .inl habsolute
    · exact .inr (hcwd.trans hcwd'.symm)

end Application

/-! ### Words that go on -/

/-- Nothing was asked for but what a daemon goes on with. -/
def OnlyAsksOn (es : List (Event Site)) : Prop :=
  ∀ r b, .requested r b ∈ es → r.isAlive = true

variable {es : List (Event Site)} {v v' : View Site}

lemma View.Step.isAlive {e : Event Site} (h : Step v e v') (hv : v.word.isAlive = true)
    (he : e.IsRoutine (· = .passed)) (hasked : ∀ r b, e = .requested r b → r.isAlive = true) :
    v'.word.isAlive = true := by
  cases h with
  | put | started | closed => exact he.elim
  | stopped => cases he
  | accepted w f ph s hph hw => exact hasked s true rfl
  | taken | handled => rfl
  | _ => exact hv

lemma View.Path.isAlive (h : Path v es v') (hv : v.word.isAlive = true)
    (hes : ∀ e ∈ es, e.IsRoutine (· = .passed)) (hasked : OnlyAsksOn es) :
    v'.word.isAlive = true := by
  induction h with
  | nil => exact hv
  | cons hstep _ ih =>
    rw [List.forall_mem_cons] at hes
    have hnext := hstep.isAlive hv hes.1 fun r b he => hasked r b (he ▸ List.mem_cons_self ..)
    exact ih hnext hes.2 fun r b hmem => hasked r b (List.mem_cons_of_mem _ hmem)

/-- A poll tells whether the word it leaves goes on. -/
lemma Daemon.poll_answer {σ : Type} {run : Program σ → Act σ Outcome} {d d' : Daemon σ} {b : Bool}
    (h : poll run d = (.returned b, d')) : d'.word.isAlive = b := by
  have hresolve (c : Daemon σ)
      (hc : ((Act.load : Act σ State).andThen fun resolved => Act.done resolved.isAlive) c =
        (.returned b, d')) : d'.word.isAlive = b := by
    cases hc
    rfl
  simp only [poll, Act.bind_eq, Act.pure_eq] at h
  obtain ⟨current, c, -, hrest⟩ := Act.returned_of_andThen h
  split at hrest
  · obtain ⟨_, c', -, hlast⟩ := Act.returned_of_andThen hrest
    exact hresolve c' hlast
  · exact hresolve c hrest

/-! ### Sessions -/

/-- Whether paths are read from one place all along: the service stays in the foreground, or was
started in the root directory, or has nothing to read but an absolute path. -/
def Plan.ReadsAlike (p : Plan) (cwd : Location) : Prop :=
  p.config.isDaemon = false ∨ cwd = [] ∨
    ∀ path, p.config.configFile = some path → Path.isAbsolute path = true

/-- The configuration file is still there after the move, for somebody who works in `cwd`. -/
def Session.Move.Spares (file : Option String) (cwd : Location) : Session.Move → Prop
  | .beside (.change t) =>
    ∀ path, file = some path → ({ tree := t, cwd := cwd } : Host).pathExists path = true
  | _ => True

namespace Session

variable {p : Plan} {s : Session} {I I₀ : Site → Prop} {cwd : Location} {w : View Site}

lemma upholds_finds (hcontext : p.context = Application.context) (halike : p.ReadsAlike cwd) :
    p.Upholds (fun a => a.host.cwd = cwd) (Application.Finds p.config.configFile cwd)
      (· = .passed) where
  context := hcontext
  turns := Application.upholds_finds _ _
  valid a hcwd hpassed := by
    obtain ⟨hsite, hthere⟩ := Application.validate_of_passed hpassed
    rw [hsite]
    exact ⟨rfl, hthere, fun _ _ => .inr hcwd⟩
  tickBefore _ _ hcwd := hcwd
  tick _ _ h := ⟨h.remembered, h.isThere, h.reading⟩
  leave hdaemon path a h _ := by
    obtain ⟨htree, hcwd⟩ := Background.grows_takeOver path p.childPid a.host
    refine h.of_grows htree fun file hfile => ?_
    rcases halike with hforeground | hroot | habsolute
    · rw [hforeground] at hdaemon
      cases hdaemon
    · right
      rw [hcwd, hroot]
    · exact .inl (habsolute file hfile)

lemma Move.Spares.keeps {file : Option String} {m : Session.Move} (h : m.Spares file cwd) :
    m.Keeps (Application.Finds file cwd) := by
  unfold Move.Keeps
  split
  · rename_i t
    intro a hfinds
    refine ⟨hfinds.remembered, fun path hpath => ?_, hfinds.reading⟩
    refine Host.pathExists_of_grows (h := { tree := t, cwd := cwd }) (.refl t) ?_ (h path hpath)
    exact hfinds.reading path hpath
  · trivial

lemma Move.keeps_cwd (m : Session.Move) : m.Keeps fun a => a.host.cwd = cwd := by
  unfold Move.Keeps
  split <;> simp

/-- All that a session tells is routine, but that its daemon was started and closed. -/
lemma Steady.routine_of_mem {ok : Outcome → Prop} {e : Event Site} (h : s.Steady I₀ I ok w)
    (he : e ∈ s.told) (hstarted : e ≠ .stored (some .starting) .running)
    (hclosed : e ≠ .stored (some .closing) .stop) : e.IsRoutine ok := by
  have horderly : e.IsOrderly ok := by
    rcases h.once with hall | ⟨before, after, heq, hbefore, hafter⟩
    · exact hall e he
    · rw [heq, List.mem_append, List.mem_cons] at he
      rcases he with he | rfl | he
      · exact hbefore e he
      · exact absurd rfl hstarted
      · exact hafter e he
  exact horderly.resolve_right hclosed

/-- As long as nobody asks for anything else, the daemon goes on until the session is over. -/
lemma Steady.isAlive (h : s.Steady I₀ I (· = .passed) w) (hbegun : s.standing ≠ .starting)
    (hover : s.isOver = false) (hasked : OnlyAsksOn s.told) : s.daemon.word.isAlive = true := by
  obtain ⟨⟨before, after, htold, -, hafter⟩, -⟩ := h.steady hbegun hover
  have hpath := h.path
  rw [htold] at hpath hasked
  obtain ⟨_, -, hstarted⟩ := hpath.split
  cases hstarted with
  | cons hstep hpath =>
    have hword := hstep.word_eq
    -- the start leaves `running`, and what comes after it is routine
    refine hpath.isAlive (by rw [hword]; rfl) hafter fun r b hmem => hasked r b ?_
    exact List.mem_append_right _ (List.mem_cons_of_mem _ hmem)

/-- A poll of a healthy service says that it goes on. -/
lemma Steady.poll_goes_on (hp : p.Upholds I₀ I (· = .passed)) (h : s.Steady I₀ I (· = .passed) w)
    (hpolling : s.standing = .polling) (hasked : OnlyAsksOn (s.step p).told) :
    (s.step p).standing = .fetching := by
  obtain ⟨-, hservice⟩ := h.of_isLooping (by rw [hpolling]; rfl)
  obtain ⟨b, d, hpoll, -⟩ := Daemon.serves_poll (E := Event.IsRoutine (· = .passed))
    (fun _ he => he) hp.turns (runsTurns_run p) s.daemon.wiped hservice.wiped
  obtain ⟨u, -, hdaemon, hstep⟩ := step_of_poll hpolling hpoll
  have hword : (s.step p).daemon.word.isAlive = b := by
    have hanswer := Daemon.poll_answer hpoll
    rw [hstep]
    simp only
    rw [hdaemon]
    exact hanswer
  have hgoes : (s.step p).daemon.word.isAlive = true := by
    refine (h.main hp).1.isAlive ?_ ?_ hasked
    · rw [hstep]
      cases b <;> nofun
    · rw [hstep]
      cases b <;> rfl
  rw [hstep, ← hword, hgoes]
  rfl

/-- A reload does not stop a healthy service. Whatever else happens, as long as the configuration
file is there and is read from one place, every reload runs the application's hook and passes, no
request stops the daemon, and every poll says that it goes on unless a stop was asked for. -/
theorem reload_keeps_service (hcontext : p.context = Application.context) {d : Daemon Site}
    (hattached : d.attached = true) (halike : p.ReadsAlike d.app.host.cwd)
    {moves : List Session.Move}
    (hspared : ∀ m ∈ moves, m.Spares p.config.configFile d.app.host.cwd) :
    let s := ({ daemon := d } : Session).play p moves
    (∀ hook word, .invoked (.handling .reload) hook word ∈ s.told →
        hook = some (.act Application.reconfigure)) ∧
      (∀ o, .returned (.handling .reload) o ∈ s.told → o = .passed) ∧
      (∀ r word, .stored (some (.handling r)) word ∉ s.told) ∧
      (s.standing ≠ .starting → s.isOver = false → OnlyAsksOn s.told →
        s.daemon.word.isAlive = true) ∧
      (s.standing = .polling → OnlyAsksOn (s.step p).told →
        (s.step p).standing = .fetching) := by
  intro s
  have hp := upholds_finds hcontext halike
  obtain ⟨hsteady, -⟩ := steady_play hp (fun m (_ : m ∈ moves) => m.keeps_cwd)
    (fun m hm => (hspared m hm).keeps) (steady_first hattached rfl)
  refine ⟨fun hook word he => ?_, fun o he => ?_, fun r word he => ?_,
    fun hbegun hover hasked => hsteady.isAlive hbegun hover hasked,
    fun hpolling hasked => hsteady.poll_goes_on hp hpolling hasked⟩
  · exact hsteady.routine_of_mem he nofun nofun
  · exact hsteady.routine_of_mem he nofun nofun
  · cases hsteady.routine_of_mem he nofun nofun

/-- A daemon that is started in a directory with a configuration file. -/
def configured : Daemon Site where
  app := {
    host := {
      tree := ⟨[(["srv"], .directory), (["srv", "app.toml"], .file [])]⟩
      cwd := ["srv"] } }
  attached := true

/-- The service goes to the background and reloads, its file given by an absolute path. -/
theorem reload_keeps_service_absolute :
    let p : Plan := { config := { isDaemon := true, configFile := some "/srv/app.toml" } }
    let s := ({ daemon := configured } : Session).play p [.main, .beside (.signal .hup), .main]
    s.daemon.app.app.reloads = 1 ∧ s.standing = .fetching ∧
      ∀ o, .returned (.handling .reload) o ∈ s.told → o = .passed := by
  intro p s
  have halike : p.ReadsAlike configured.app.host.cwd := by
    refine .inr (.inr fun path hpath => ?_)
    cases hpath
    decide
  have hspared : ∀ m ∈ [Session.Move.main, .beside (.signal .hup), .main],
      m.Spares p.config.configFile configured.app.host.cwd := by
    simp [Move.Spares]
  obtain ⟨-, hpasses, -⟩ := reload_keeps_service (p := p) rfl (d := configured) rfl halike hspared
  exact ⟨by decide +kernel, MainAt.fetching_of_toGo (by decide +kernel), hpasses⟩

/-- The service goes to the background and is asked to reload, its file given by a path that is not
absolute. The file is where it was, the hook looks for it in the root directory and fails, and the
daemon stops. -/
theorem reload_in_background_stops :
    let p : Plan := { config := { isDaemon := true, configFile := some "app.toml" } }
    let s := ({ daemon := configured } : Session).play p [.main, .beside (.signal .hup)]
    configured.app.host.pathExists "app.toml" = true ∧
      s.standing = .polling ∧ s.daemon.word = .reload ∧
      s.daemon.app.host = { configured.app.host with cwd := [] } ∧
      (Application.reconfigure s.daemon.app).1 = .failed ∧
      (s.step p).daemon.app.host.tree = configured.app.host.tree ∧
      (s.step p).daemon.word = .stop ∧ (s.step p).standing.isLooping = false := by
  intro p s
  refine ⟨?_, MainAt.polling_of_toGo ?_, ?_, ?_, ?_, ?_, ?_, ?_⟩
  all_goals decide +kernel

end Session

end Overseer
