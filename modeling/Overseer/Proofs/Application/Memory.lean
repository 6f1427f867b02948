import Mathlib.Data.List.Infix
import Overseer.Application

/-!
# What an application remembers

A history of an application holds every call with its answer, and what others did to the files in
between. What the application remembers is the configuration file of the last validation that
passed; each answer is settled by that and by the files of the moment, and the counts are the
numbers of calls.
-/

namespace Overseer

/-- What is called of an application, or done to the files by others. -/
inductive AppCall where
  | validate (c : Config)
  | start
  | reconfigure
  | restart
  | user1
  | user2
  | shutdown
  | tick (least : Span)
  /-- Others leave these files. -/
  | change (tree : FileTree)
deriving DecidableEq, Repr

inductive AppAnswer where
  | outcome (o : Outcome)
  | interval (s : Span)
  | nothing
deriving DecidableEq, Repr

/-- What the call answers, and what is there after it. -/
def Site.call (s : Site) : AppCall → AppAnswer × Site
  | .validate c => (.outcome (Application.validate c s).1, (Application.validate c s).2.1)
  | .start => (.outcome (Application.start s).1, (Application.start s).2.1)
  | .reconfigure => (.outcome (Application.reconfigure s).1, (Application.reconfigure s).2.1)
  | .restart => (.outcome (Application.restart s).1, (Application.restart s).2.1)
  | .user1 => (.outcome (Application.user1 s).1, (Application.user1 s).2.1)
  | .user2 => (.outcome (Application.user2 s).1, (Application.user2 s).2.1)
  | .shutdown => (.outcome (Application.shutdown s).1, (Application.shutdown s).2.1)
  | .tick least => (.interval (Application.tick least s).1, (Application.tick least s).2.1)
  | .change tree => (.nothing, { s with host := { s.host with tree := tree } })

/-- A call and its answer. -/
abbrev AppEntry := AppCall × AppAnswer

/-- An application with all that was called so far and what it answered. -/
structure AppHistory where
  site : Site := {}
  told : List AppEntry := []

namespace AppHistory

def step (s : AppHistory) (c : AppCall) : AppHistory :=
  { site := (s.site.call c).2, told := s.told ++ [(c, (s.site.call c).1)] }

/-- The history of an application that finds these files at first. -/
def run (h : Host) (cs : List AppCall) : AppHistory :=
  cs.foldl step { site := { host := h } }

@[simp] lemma run_nil (h : Host) : run h [] = { site := { host := h } } := rfl

@[simp] lemma run_concat (h : Host) (cs : List AppCall) (c : AppCall) :
    run h (cs ++ [c]) = (run h cs).step c := by
  simp [run]

end AppHistory

/-! ### What a history says -/

/-- The configuration that was found to be in order. -/
def AppEntry.passed? : AppEntry → Option Config
  | (.validate c, .outcome .passed) => some c
  | _ => none

/-- The files that others left. -/
def AppEntry.changed? : AppEntry → Option FileTree
  | (.change tree, _) => some tree
  | _ => none

def AppCall.isTick : AppCall → Bool
  | .tick _ => true
  | _ => false

/-- The configuration file of the last validation that passed. -/
def lastFile (told : List AppEntry) : Option String :=
  (told.filterMap AppEntry.passed?).getLast?.bind Config.configFile

/-- The files after what others did, with the working directory where it was. -/
def filesAfter (h : Host) (told : List AppEntry) : Host :=
  { h with tree := (told.filterMap AppEntry.changed?).getLast?.getD h.tree }

/-- Neither path is empty, and the configuration file is there if one is named. -/
def Config.IsInOrder (c : Config) (h : Host) : Prop :=
  c.pidFile ≠ some "" ∧ c.configFile ≠ some "" ∧
    ∀ path, c.configFile = some path → h.pathExists path = true

/-- What a call answers after a history of an application that found the files `h` at first. -/
def AppCall.Merits (h : Host) (before : List AppEntry) : AppCall → AppAnswer → Prop
  | .validate c, a => a = .outcome .passed ∧ c.IsInOrder (filesAfter h before) ∨
      a = .outcome .failed ∧ ¬c.IsInOrder (filesAfter h before)
  | .reconfigure, a =>
    let isLost := ∃ path, lastFile before = some path ∧
      (filesAfter h before).pathExists path = false
    a = .outcome .failed ∧ isLost ∨ a = .outcome .passed ∧ ¬isLost
  | .tick least, a => a = .interval (Schedule.next least)
  | .change _, a => a = .nothing
  | _, a => a = .outcome .passed

section

variable {told : List AppEntry} {e : AppEntry}

lemma lastFile_of_passed {c : Config} (he : e.passed? = some c) :
    lastFile (told ++ [e]) = c.configFile := by
  simp [lastFile, he]

lemma lastFile_of_not_passed (he : e.passed? = none) : lastFile (told ++ [e]) = lastFile told := by
  simp [lastFile, he]

lemma filesAfter_of_changed {tree : FileTree} (h : Host) (he : e.changed? = some tree) :
    filesAfter h (told ++ [e]) = { filesAfter h told with tree := tree } := by
  simp [filesAfter, he]

lemma filesAfter_of_not_changed (h : Host) (he : e.changed? = none) :
    filesAfter h (told ++ [e]) = filesAfter h told := by
  simp [filesAfter, he]

end

/-! ### Single calls -/

/-- A configuration is refused exactly for an empty path. -/
lemma Config.fault?_eq_none_iff {c : Config} :
    c.fault? = none ↔ c.pidFile ≠ some "" ∧ c.configFile ≠ some "" := by
  unfold fault?
  by_cases hpid : c.pidFile = some ""
  · simp [hpid]
  · by_cases hconfig : c.configFile = some ""
    · simp [hpid, hconfig]
    · simp [hpid, hconfig]

namespace Application

variable {c : Config} {s : Site}

/-- The file is there if one is named. -/
def finds (h : Host) (file : Option String) : Bool := file.all h.pathExists

lemma finds_eq_true_iff {h : Host} {file : Option String} :
    finds h file = true ↔ ∀ path, file = some path → h.pathExists path = true := by
  cases file <;> simp [finds]

lemma finds_eq_false_iff {h : Host} {file : Option String} :
    finds h file = false ↔ ∃ path, file = some path ∧ h.pathExists path = false := by
  cases file <;> simp [finds]

lemma lookFor_fst (path : String) (h : Host) : (lookFor path h).1 = h.pathExists path := by
  unfold lookFor
  split <;> simp_all

lemma validate_of_fault {f : Failure} (h : c.fault? = some f) :
    (validate c s).1 = .failed ∧ (validate c s).2.1 = s := by
  unfold validate Config.validate
  rw [h]
  exact ⟨rfl, rfl⟩

lemma validate_of_no_fault (h : c.fault? = none) :
    (validate c s).1 = .ofBool (finds s.host c.configFile) ∧
      (validate c s).2.1 = if finds s.host c.configFile then
        { s with app := { s.app with configFile := c.configFile } } else s := by
  unfold validate Config.validate
  rw [h]
  cases hfile : c.configFile with
  | none => exact ⟨rfl, rfl⟩
  | some path =>
    rw [finds, Option.all_some, ← lookFor_fst]
    exact ⟨rfl, rfl⟩

/-- A validation passes and remembers what it was given, or fails and changes nothing. -/
lemma validate_cases (c : Config) (s : Site) :
    ((validate c s).1 = .passed ∧ c.IsInOrder s.host ∧
      (validate c s).2.1 = { s with app := { s.app with configFile := c.configFile } }) ∨
    ((validate c s).1 = .failed ∧ ¬c.IsInOrder s.host ∧ (validate c s).2.1 = s) := by
  cases hfault : c.fault? with
  | some f =>
    obtain ⟨houtcome, hleft⟩ := validate_of_fault (s := s) hfault
    refine .inr ⟨houtcome, ?_, hleft⟩
    rintro ⟨hpid, hconfig, -⟩
    rw [Config.fault?_eq_none_iff.mpr ⟨hpid, hconfig⟩] at hfault
    cases hfault
  | none =>
    obtain ⟨houtcome, hleft⟩ := validate_of_no_fault (s := s) hfault
    obtain ⟨hpid, hconfig⟩ := Config.fault?_eq_none_iff.mp hfault
    cases hfinds : finds s.host c.configFile with
    | true =>
      rw [hfinds] at houtcome hleft
      exact .inl ⟨houtcome, ⟨hpid, hconfig, finds_eq_true_iff.mp hfinds⟩, hleft⟩
    | false =>
      rw [hfinds] at houtcome hleft
      refine .inr ⟨houtcome, ?_, hleft⟩
      rintro ⟨-, -, hthere⟩
      rw [finds_eq_true_iff.mpr hthere] at hfinds
      cases hfinds

/-- A reload fails if the remembered file is gone, and is counted all the same. -/
lemma reconfigure_eq (s : Site) :
    (reconfigure s).1 = .ofBool (finds s.host s.app.configFile) ∧
      (reconfigure s).2.1 = { s with app := { s.app with reloads := s.app.reloads + 1 } } := by
  refine ⟨?_, rfl⟩
  unfold reconfigure
  cases s.app.configFile with
  | none => rfl
  | some path =>
    rw [finds, Option.all_some, ← lookFor_fst]

end Application

/-! ### Histories -/

namespace Site

variable {s : Site} {h : Host} {told : List AppEntry}

/-- Each call answers what it merits. -/
lemma merits_call (hfile : s.app.configFile = lastFile told) (hhost : s.host = filesAfter h told)
    (c : AppCall) : c.Merits h told (s.call c).1 := by
  cases c with
  | validate c =>
    rcases Application.validate_cases c s with ⟨houtcome, horder, -⟩ | ⟨houtcome, horder, -⟩
    · rw [hhost] at horder
      exact .inl ⟨by rw [call, houtcome], horder⟩
    · rw [hhost] at horder
      exact .inr ⟨by rw [call, houtcome], horder⟩
  | reconfigure =>
    have houtcome := (Application.reconfigure_eq s).1
    rw [hfile, hhost] at houtcome
    cases hfinds : Application.finds (filesAfter h told) (lastFile told) with
    | true =>
      refine .inr ⟨by rw [call, houtcome, hfinds]; rfl, ?_⟩
      intro hlost
      rw [Application.finds_eq_false_iff.mpr hlost] at hfinds
      cases hfinds
    | false =>
      exact .inl ⟨by rw [call, houtcome, hfinds]; rfl, Application.finds_eq_false_iff.mp hfinds⟩
  | start | restart | user1 | user2 | shutdown | tick | change => rfl

/-- The file that is remembered is the one of the last validation that passed. -/
lemma configFile_call (hfile : s.app.configFile = lastFile told) (c : AppCall) :
    (s.call c).2.app.configFile = lastFile (told ++ [(c, (s.call c).1)]) := by
  cases c with
  | validate c =>
    rcases Application.validate_cases c s with ⟨houtcome, -, hleft⟩ | ⟨houtcome, -, hleft⟩
    · rw [lastFile_of_passed (c := c) (by rw [call, houtcome]; rfl), call, hleft]
    · rw [lastFile_of_not_passed (by rw [call, houtcome]; rfl), call, hleft]
      exact hfile
  | reconfigure =>
    rw [lastFile_of_not_passed rfl, call, (Application.reconfigure_eq s).2]
    exact hfile
  | start | restart | user1 | user2 | shutdown | tick | change =>
    rw [lastFile_of_not_passed rfl]
    exact hfile

/-- Calls leave the files as they are. -/
lemma host_call (hhost : s.host = filesAfter h told) (c : AppCall) (a : AppAnswer) :
    (s.call c).2.host = filesAfter h (told ++ [(c, a)]) := by
  cases c with
  | change tree => rw [filesAfter_of_changed h rfl, ← hhost, call]
  | validate c =>
    rw [filesAfter_of_not_changed h rfl, ← hhost, call]
    rcases Application.validate_cases c s with ⟨-, -, hleft⟩ | ⟨-, -, hleft⟩ <;> rw [hleft]
  | reconfigure =>
    rw [filesAfter_of_not_changed h rfl, ← hhost, call, (Application.reconfigure_eq s).2]
  | start | restart | user1 | user2 | shutdown | tick =>
    rw [filesAfter_of_not_changed h rfl, ← hhost]
    rfl

/-- A call of `reconfigure` is counted, and no other is. -/
lemma reloads_call (s : Site) (c : AppCall) :
    (s.call c).2.app.reloads = s.app.reloads + if c = .reconfigure then 1 else 0 := by
  cases c with
  | validate c =>
    rw [call]
    rcases Application.validate_cases c s with ⟨-, -, hleft⟩ | ⟨-, -, hleft⟩ <;> simp [hleft]
  | reconfigure => simp [call, (Application.reconfigure_eq s).2]
  | start | restart | user1 | user2 | shutdown | tick | change => rfl

/-- So are ticks. -/
lemma ticks_call (s : Site) (c : AppCall) :
    (s.call c).2.app.ticks = s.app.ticks + if c.isTick then 1 else 0 := by
  cases c with
  | validate c =>
    rw [call]
    rcases Application.validate_cases c s with ⟨-, -, hleft⟩ | ⟨-, -, hleft⟩ <;>
      simp [hleft, AppCall.isTick]
  | reconfigure => simp [call, (Application.reconfigure_eq s).2, AppCall.isTick]
  | start | restart | user1 | user2 | shutdown | tick | change => rfl

end Site

namespace AppHistory

/-- What holds of an application that found the files `h` and was called as `cs` says. -/
structure Sound (h : Host) (cs : List AppCall) (s : AppHistory) : Prop where
  calls : s.told.map Prod.fst = cs
  configFile : s.site.app.configFile = lastFile s.told
  host : s.site.host = filesAfter h s.told
  reloads : s.site.app.reloads = cs.count .reconfigure
  ticks : s.site.app.ticks = cs.countP AppCall.isTick
  answers : ∀ before c a after, s.told = before ++ (c, a) :: after → c.Merits h before a

variable {h : Host} {cs : List AppCall} {s : AppHistory}

lemma sound_start (h : Host) : Sound h [] { site := { host := h } } where
  calls := rfl
  configFile := rfl
  host := rfl
  reloads := rfl
  ticks := rfl
  answers before c a after htold := by simp at htold

lemma Sound.step (hs : Sound h cs s) (c : AppCall) : Sound h (cs ++ [c]) (s.step c) where
  calls := by simp [AppHistory.step, hs.calls]
  configFile := s.site.configFile_call hs.configFile c
  host := s.site.host_call hs.host c _
  reloads := by
    rw [AppHistory.step, s.site.reloads_call, hs.reloads, List.count_append, List.count_singleton]
    simp
  ticks := by
    rw [AppHistory.step, s.site.ticks_call, hs.ticks, List.countP_append, List.countP_singleton]
  answers before call a after htold := by
    -- the entry is the last one, or an entry of the history before
    rcases List.eq_nil_or_concat after with rfl | ⟨after, last, rfl⟩
    · obtain ⟨rfl, hlast⟩ := List.append_inj' htold rfl
      cases hlast
      exact s.site.merits_call hs.configFile hs.host c
    · rw [List.concat_eq_append, ← List.cons_append, ← List.append_assoc] at htold
      exact hs.answers before call a after (List.append_inj' htold rfl).1

lemma sound_run (h : Host) (cs : List AppCall) : Sound h cs (run h cs) := by
  induction cs using List.reverseRecOn with
  | nil => exact sound_start h
  | append_singleton cs c ih =>
    rw [run_concat]
    exact ih.step c

/-- Whatever is called of an application and whatever others do to the files meanwhile, the
application remembers the configuration file of the last validation that passed, counts all reloads
and ticks and leaves the files alone. A validation passes if and only if no path is empty and the
configuration file, if there is one, is there at that moment; a reload fails if and only if a file
is remembered that is not there at that moment. -/
theorem remembers_last_valid (h : Host) (cs : List AppCall) :
    let s := run h cs
    s.told.map Prod.fst = cs ∧
      s.site.app.configFile = lastFile s.told ∧
      s.site.app.reloads = cs.count .reconfigure ∧
      s.site.app.ticks = cs.countP AppCall.isTick ∧
      s.site.host = filesAfter h s.told ∧
      ∀ before c a after, s.told = before ++ (c, a) :: after → c.Merits h before a := by
  intro s
  have hs : Sound h cs s := sound_run h cs
  exact ⟨hs.calls, hs.configFile, hs.reloads, hs.ticks, hs.host, hs.answers⟩

/-- A file that is gone is still remembered, and missed, after a validation for another one failed. -/
example :
    let h : Host := { tree := { entries := [(["a"], .file [])] } }
    let s := run h [.validate { configFile := some "a" }, .reconfigure, .change {},
      .validate { configFile := some "b" }, .reconfigure]
    s.told.map Prod.snd = [.outcome .passed, .outcome .passed, .nothing, .outcome .failed,
      .outcome .failed] ∧ s.site.app = { configFile := some "a", reloads := 2 } := by
  decide +kernel

end AppHistory

end Overseer
