import Overseer.Proofs.Application.Memory
import Overseer.Proofs.CommandLine.Reading
import Overseer.Proofs.Remote

/-!
# What a command line that parses is

It has what its arguments set, and from the environment what they leave open. No path of it is
empty, and there is a PID file for every signal.
-/

namespace Overseer

/-- What stands in for a parameter. -/
def Environment.value? (env : Environment) : Parameter → Option String
  | .configFile => env.configFile
  | .pidFile => env.pidFile
  | .logLevel | .logDir | .signal => none

namespace CommandLine

variable {c c' : CommandLine} {p q : Parameter} {v w : String} {ss ss' : List Setting}
  {fallback : Parameter → Option String} {arguments : List String} {env : Environment}

/-- The parameter has this value, which is one that it can have. -/
def Has (c : CommandLine) : Parameter → String → Prop
  | .configFile, v => c.configFile = some v ∧ v ≠ ""
  | .pidFile, v => c.pidFile = some v ∧ v ≠ ""
  | .logLevel, v => c.logLevel = some v
  | .logDir, v => c.logDir = some v ∧ v ≠ ""
  | .signal, v => ∃ s, ControlSignal.parse v = .ok s ∧ c.signal = some s

/-- The parameter has this value, or has none. -/
def Matches (c : CommandLine) (p : Parameter) : Option String → Prop
  | some v => c.Has p v
  | none => c.holds p = false

/-- Every parameter has the value that was set, or else the one that stands in for it. -/
structure Filled (ss : List Setting) (fallback : Parameter → Option String) (c : CommandLine) :
    Prop where
  background : c.background = true ↔ .switch .background ∈ ss
  set : ∀ p v, .parameter p v ∈ ss → c.Has p v
  unset : ∀ p, (∀ v, .parameter p v ∉ ss) → c.Matches p (fallback p)

/-! ### Giving a value -/

lemma path_eq_ok {value : String} {o : Option String} (h : path value = .ok o) :
    o = some value ∧ value ≠ "" := by
  unfold path at h
  split at h
  · cases h
  · rename_i hempty
    cases h
    exact ⟨rfl, fun hvalue => hempty (by rw [hvalue]; rfl)⟩

lemma Has.holds (h : c.Has p v) : c.holds p = true := by
  cases p with
  | configFile | pidFile | logDir => simp [CommandLine.holds, h.1]
  | logLevel => simp [CommandLine.holds, show c.logLevel = some v from h]
  | signal =>
    obtain ⟨s, -, hs⟩ := h
    simp [CommandLine.holds, hs]

/-- The parameter is as it was. -/
def Keeps (c c' : CommandLine) : Parameter → Prop
  | .configFile => c'.configFile = c.configFile
  | .pidFile => c'.pidFile = c.pidFile
  | .logLevel => c'.logLevel = c.logLevel
  | .logDir => c'.logDir = c.logDir
  | .signal => c'.signal = c.signal

lemma Keeps.has_iff (h : Keeps c c' p) : c'.Has p v ↔ c.Has p v := by
  cases p <;> simp only [Keeps] at h <;> simp only [Has, h]

lemma Keeps.matches_iff {o : Option String} (h : Keeps c c' p) :
    c'.Matches p o ↔ c.Matches p o := by
  cases o with
  | some v => exact h.has_iff
  | none => cases p <;> simp only [Keeps] at h <;> simp only [Matches, CommandLine.holds, h]

/-- A parameter that is given a value has it. -/
lemma has_of_give (h : c.give p v = .ok c') : c'.Has p v := by
  cases p with
  | configFile | pidFile | logDir =>
    obtain ⟨o, ho, rfl⟩ := Except.exists_of_map h
    exact path_eq_ok ho
  | logLevel =>
    cases h
    rfl
  | signal =>
    simp only [give] at h
    split at h
    · rename_i s hs
      cases h
      exact ⟨s, hs, rfl⟩
    · cases h

/-- Everything else is left alone. -/
lemma keeps_of_give (h : c.give p v = .ok c') :
    c'.background = c.background ∧ ∀ q, q ≠ p → Keeps c c' q := by
  cases p with
  | configFile | pidFile | logDir =>
    obtain ⟨o, -, rfl⟩ := Except.exists_of_map h
    refine ⟨rfl, fun q hq => ?_⟩
    cases q <;> first | rfl | exact absurd rfl hq
  | logLevel =>
    cases h
    refine ⟨rfl, fun q hq => ?_⟩
    cases q <;> first | rfl | exact absurd rfl hq
  | signal =>
    simp only [give] at h
    split at h
    · cases h
      refine ⟨rfl, fun q hq => ?_⟩
      cases q <;> first | rfl | exact absurd rfl hq
    · cases h

lemma giveOnce_eq_ok (h : c.giveOnce p v = .ok c') : c.holds p = false ∧ c.give p v = .ok c' := by
  unfold giveOnce at h
  split at h
  · cases h
  · rename_i hholds
    exact ⟨by simpa using hholds, h⟩

lemma turnOn_eq_ok {s : Switch} (h : c.turnOn s = .ok c') :
    s = .background ∧ c' = { c with background := true } := by
  cases s with
  | background =>
    simp only [turnOn] at h
    split at h
    · cases h
    · cases h
      exact ⟨rfl, rfl⟩
  | help => cases h
  | version => cases h

/-! ### Filling in -/

lemma filled_start : Filled [] (fun _ => none) {} where
  background := by simp
  set p v hset := by simp at hset
  unset p _ := by cases p <;> rfl

/-- A parameter that has no value yet is none of those that were set. -/
lemma Filled.ne (hc : Filled ss fallback c) (hp : c.holds p = false)
    (hset : .parameter q w ∈ ss) : q ≠ p := by
  rintro rfl
  rw [(hc.set q w hset).holds] at hp
  cases hp

lemma Filled.take {s : Setting} (hc : Filled ss (fun _ => none) c) (h : c.take s = .ok c') :
    Filled (ss ++ [s]) (fun _ => none) c' := by
  cases s with
  | parameter p v =>
    obtain ⟨hfree, hgive⟩ := giveOnce_eq_ok h
    obtain ⟨hbackground, hkeeps⟩ := keeps_of_give hgive
    refine ⟨by simp [hbackground, hc.background], fun q w hset => ?_, fun q hset => ?_⟩
    · rcases List.mem_append.mp hset with hset | hset
      · exact (hkeeps q (hc.ne hfree hset)).has_iff.mpr (hc.set q w hset)
      · cases List.mem_singleton.mp hset
        exact has_of_give hgive
    · have hq : q ≠ p := by
        rintro rfl
        exact hset v (by simp)
      exact (hkeeps q hq).matches_iff.mpr
        (hc.unset q fun w hw => hset w (List.mem_append_left _ hw))
  | switch s =>
    obtain ⟨rfl, rfl⟩ := turnOn_eq_ok h
    have hkeeps (q : Parameter) : Keeps c { c with background := true } q := by cases q <;> rfl
    refine ⟨by simp, fun q w hset => ?_, fun q hset => ?_⟩
    · exact (hkeeps q).has_iff.mpr (hc.set q w (by simpa using hset))
    · exact (hkeeps q).matches_iff.mpr (hc.unset q (by simpa using hset))

lemma Filled.takeAll (hc : Filled ss (fun _ => none) c)
    (h : ss'.foldlM CommandLine.take c = .ok c') : Filled (ss ++ ss') (fun _ => none) c' := by
  induction ss' generalizing ss c with
  | nil =>
    cases h
    rwa [List.append_nil]
  | cons s ss' ih =>
    rw [List.foldlM_cons] at h
    obtain ⟨next, hnext, h⟩ := Except.exists_of_bind h
    simpa using ih (hc.take hnext) h

/-- A value is filled in where there is one and the parameter has none. -/
lemma fallBack_eq_ok {o : Option String} (h : c.fallBack p o = .ok c') :
    (o = none ∨ c.holds p = true) ∧ c' = c ∨
      ∃ v, o = some v ∧ c.holds p = false ∧ c.give p v = .ok c' := by
  cases o with
  | none =>
    cases h
    exact .inl ⟨.inl rfl, rfl⟩
  | some v =>
    simp only [fallBack] at h
    split at h
    · rename_i hholds
      cases h
      exact .inl ⟨.inr hholds, rfl⟩
    · rename_i hholds
      exact .inr ⟨v, rfl, by simpa using hholds, h⟩

lemma Filled.fallBack {o : Option String} (hc : Filled ss fallback c) (hp : fallback p = none)
    (h : c.fallBack p o = .ok c') : Filled ss (Function.update fallback p o) c' := by
  have hupdate {q : Parameter} (hq : q ≠ p) : Function.update fallback p o q = fallback q :=
    Function.update_of_ne hq o fallback
  rcases fallBack_eq_ok h with ⟨hdone, rfl⟩ | ⟨v, rfl, hfree, hgive⟩
  · refine ⟨hc.background, hc.set, fun q hset => ?_⟩
    by_cases hq : q = p
    · subst hq
      -- what is not set has nothing yet, so there was nothing to fill in
      have hfree := hc.unset q hset
      rw [hp] at hfree
      rw [Function.update_self]
      rcases hdone with rfl | hholds
      · exact hfree
      · cases hfree.symm.trans hholds
    · rw [hupdate hq]
      exact hc.unset q hset
  · obtain ⟨hbackground, hkeeps⟩ := keeps_of_give hgive
    refine ⟨by rw [hbackground, hc.background], fun q w hset => ?_, fun q hset => ?_⟩
    · exact (hkeeps q (hc.ne hfree hset)).has_iff.mpr (hc.set q w hset)
    · by_cases hq : q = p
      · subst hq
        rw [Function.update_self]
        exact has_of_give hgive
      · rw [hupdate hq]
        exact (hkeeps q hq).matches_iff.mpr (hc.unset q hset)

/-! ### Parsing -/

lemma Environment.value?_eq (env : Environment) :
    env.value? = Function.update (Function.update (fun _ => none) .configFile env.configFile)
      .pidFile env.pidFile := by
  funext p
  cases p <;> rfl

/-- A command line that parses is one that its arguments and the environment fill in. -/
lemma exists_of_parse (h : parse arguments env = .ok c) :
    ∃ ss, Spells arguments ss ∧ Filled ss env.value? c ∧
      ¬(c.signal.isSome && c.pidFile.isNone) = true := by
  obtain ⟨d, hread, h⟩ := Except.exists_of_bind h
  obtain ⟨e, hsettle, h⟩ := Except.exists_of_bind h
  obtain ⟨c₁, hconfig, h⟩ := Except.exists_of_bind h
  obtain ⟨c₂, hpid, h⟩ := Except.exists_of_bind h
  obtain ⟨ss, hspells, htaken⟩ := Draft.exists_of_readAll rfl hread hsettle
  have hfilled := ((filled_start.takeAll htaken).fallBack rfl hconfig).fallBack rfl hpid
  split at h
  · cases h
  · rename_i hpresent
    cases h
    rw [Environment.value?_eq]
    exact ⟨ss, hspells, hfilled, hpresent⟩

/-- A path that is there is not empty. -/
lemma Filled.ne_empty (hc : Filled ss fallback c) :
    c.pidFile ≠ some "" ∧ c.configFile ≠ some "" := by
  have hhas (p : Parameter) : c.holds p = false ∨ ∃ v, c.Has p v := by
    by_cases hset : ∀ v, .parameter p v ∉ ss
    · have hunset := hc.unset p hset
      cases hp : fallback p with
      | none =>
        rw [hp] at hunset
        exact .inl hunset
      | some v =>
        rw [hp] at hunset
        exact .inr ⟨v, hunset⟩
    · obtain ⟨v, hv⟩ := not_forall_not.mp hset
      exact .inr ⟨v, hc.set p v hv⟩
  constructor
  · intro hempty
    rcases hhas .pidFile with hfree | ⟨v, hv, hne⟩
    · simp [CommandLine.holds, hempty] at hfree
    · exact hne (Option.some.inj (hv.symm.trans hempty))
  · intro hempty
    rcases hhas .configFile with hfree | ⟨v, hv, hne⟩
    · simp [CommandLine.holds, hempty] at hfree
    · exact hne (Option.some.inj (hv.symm.trans hempty))

/-- Where a PID file is named, a signal does not fail for want of its name. -/
lemma send_ne_noPidPath {path : String} (signal : ControlSignal) (d : Daemon Site) :
    (Remote.send (some path) signal d).1 ≠ .returned (.error .noPidPath) := by
  intro h
  cases htarget : Remote.target (some path) d.app.host with
  | error f =>
    rw [Remote.send_of_error htarget] at h
    cases h
    simp only [Remote.target] at htarget
    split at htarget <;> cases htarget
  | ok n =>
    -- whatever the sending comes to, its fault is one of the service
    rw [Remote.send_of_ok htarget, Act.andThen] at h
    generalize Daemon.send signal n d = sent at h
    obtain ⟨ending, d'⟩ := sent
    cases ending with
    | returned r => cases r <;> cases h
    | panicked m => cases h
    | unfinished => cases h

/-- A command line that parses is what its arguments say, in the one way they can be read: every
option has the value that was set, and the two paths have that of the environment where none was
set. Its configuration carries these over and is in order: no path is empty, wherever it comes from.
With a signal there is a PID file, so that sending the signal does not fail for want of its name. -/
theorem parse_sound (h : parse arguments env = .ok c) :
    (∃ ss, Spells arguments ss ∧ (∀ ss', Spells arguments ss' → ss' = ss) ∧
      Filled ss env.value? c) ∧
    c.config = { isDaemon := c.background, pidFile := c.pidFile, configFile := c.configFile } ∧
    c.config.validate.1 = .ok () ∧ c.pidFile ≠ some "" ∧ c.configFile ≠ some "" ∧
    ∀ s, c.signal = some s → c.pidFile.isSome ∧
      ∀ d : Daemon Site, (Remote.send c.pidFile s d).1 ≠ .returned (.error .noPidPath) := by
  obtain ⟨ss, hspells, hfilled, hpresent⟩ := exists_of_parse h
  obtain ⟨hpid, hconfig⟩ := hfilled.ne_empty
  refine ⟨⟨ss, hspells, fun ss' h' => h'.unique hspells, hfilled⟩, rfl, ?_, hpid, hconfig, ?_⟩
  · rw [Config.validate, Config.fault?_eq_none_iff.mpr ⟨hpid, hconfig⟩]
  · intro s hs
    cases hpath : c.pidFile with
    | none => simp [hs, hpath] at hpresent
    | some path => exact ⟨rfl, send_ne_noPidPath s⟩

/-- A PID file from the command line, behind other letters, and a configuration file from the
environment. -/
theorem parse_sound_mixed :
    let arguments := ["-DPrun/d.pid", "--signal", "HUP", "--log-level=debug", "--"]
    let env : Environment := { configFile := some "d.json", pidFile := some "" }
    let c : CommandLine :=
      { background := true, configFile := some "d.json", pidFile := some "run/d.pid"
        logLevel := some "debug", signal := some .reload }
    parse arguments env = .ok c ∧
      (∃ ss, Spells arguments ss ∧ (∀ ss', Spells arguments ss' → ss' = ss) ∧
        Filled ss env.value? c) ∧
      c.config = { isDaemon := c.background, pidFile := c.pidFile, configFile := c.configFile } ∧
      c.config.validate.1 = .ok () ∧ c.pidFile ≠ some "" ∧ c.configFile ≠ some "" ∧
      ∀ s, c.signal = some s → c.pidFile.isSome ∧
        ∀ d : Daemon Site, (Remote.send c.pidFile s d).1 ≠ .returned (.error .noPidPath) := by
  intro arguments env c
  have h : parse arguments env = .ok c := by decide +kernel
  exact ⟨h, parse_sound h⟩

end CommandLine

end Overseer
