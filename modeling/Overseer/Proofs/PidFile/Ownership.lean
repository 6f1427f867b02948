import Mathlib.Data.List.Infix
import Overseer.Proofs.PidFile.Authors
import Overseer.Proofs.PidFile.Grammar
import Overseer.Proofs.System.Absence

/-!
# Who owns a PID file

A history of PID files among others holds every call with what it answered. A PID file is an owner
as long as it has written its file since it was last told to remove it, and only then does it take
the file away when it is dropped. What was removed is gone until somebody creates it again.
-/

namespace Overseer

/-- What is called, by the PID files or by others. -/
inductive PidCall where
  | act (a : PidAction)
  /-- A PID file is asked whether its path leads anywhere. -/
  | look (i : Nat)

inductive PidAnswer where
  | nothing
  | done (r : Except Failure Unit)
  | number (r : Except Failure (Option Nat))
  | there (b : Bool)
deriving DecidableEq

namespace PidFiles

def call (w : PidFiles) : PidCall → Option PidFiles
  | .act a => w.step a
  | .look i => (w.file? i).map fun _ => w

/-- What a call answers. -/
def answer (w : PidFiles) : PidCall → PidAnswer
  | .act (.write i pid) =>
    ((w.file? i).map fun p => .done (p.write pid w.host).result).getD .nothing
  | .act (.remove i) => ((w.file? i).map fun p => .done (p.remove w.host).result).getD .nothing
  | .act (.read i) => ((w.file? i).map fun p => .number (p.read w.host)).getD .nothing
  | .look i => ((w.file? i).map fun p => .there (p.pathExists w.host)).getD .nothing
  | _ => .nothing

end PidFiles

/-- PID files with all that was called so far and what it answered. -/
structure PidHistory where
  files : PidFiles
  told : List (PidCall × PidAnswer) := []

namespace PidHistory

def start (h : Host) : PidHistory := { files := .start h }

def step (s : PidHistory) (c : PidCall) : Option PidHistory :=
  (s.files.call c).map fun w => { files := w, told := s.told ++ [(c, s.files.answer c)] }

def run (s : PidHistory) : List PidCall → Option PidHistory
  | [] => some s
  | c :: cs => (s.step c).bind (run · cs)

end PidHistory

/-- The PID file has written, and was not told to remove since. -/
def WrittenSince (i : Nat) (told : List (PidCall × PidAnswer)) : Prop :=
  ∃ before pid after, told = before ++ (.act (.write i pid), .done (.ok ())) :: after ∧
    ∀ entry ∈ after, entry.1 ≠ .act (.remove i)

lemma writtenSince_concat {i : Nat} {told : List (PidCall × PidAnswer)} {c : PidCall}
    {a : PidAnswer} : WrittenSince i (told ++ [(c, a)]) ↔
      (∃ pid, c = .act (.write i pid) ∧ a = .done (.ok ())) ∨
        WrittenSince i told ∧ c ≠ .act (.remove i) := by
  constructor
  · rintro ⟨before, pid, after, htold, hafter⟩
    rcases List.eq_nil_or_concat after with rfl | ⟨after, last, rfl⟩
    · obtain ⟨-, hlast⟩ := List.append_inj' htold rfl
      cases hlast
      exact .inl ⟨pid, rfl, rfl⟩
    · rw [List.concat_eq_append, ← List.cons_append, ← List.append_assoc] at htold
      obtain ⟨rfl, hlast⟩ := List.append_inj' htold rfl
      cases hlast
      rw [List.concat_eq_append] at hafter
      exact .inr ⟨⟨before, pid, after, rfl, fun entry hentry => hafter entry (by simp [hentry])⟩,
        hafter (c, a) (by simp)⟩
  · rintro (⟨pid, rfl, rfl⟩ | ⟨⟨before, pid, after, rfl, hafter⟩, hc⟩)
    · exact ⟨told, pid, [], rfl, nofun⟩
    · refine ⟨before, pid, after ++ [(c, a)], by simp, fun entry hentry => ?_⟩
      rcases List.mem_append.mp hentry with hentry | hentry
      · exact hafter entry hentry
      · obtain rfl := List.mem_singleton.mp hentry
        exact hc

namespace PidFile

/-- A write makes an owner if it succeeds, and changes nothing about that if it fails. -/
lemma isOwned_write_iff (p : PidFile) (pid : Nat) (h : Host) :
    (p.write pid h).file.isOwned = true ↔
      (p.write pid h).result = .ok () ∨ p.isOwned = true := by
  unfold write
  split <;> simp

/-- Whatever comes of it, who is told to remove is no owner any more. -/
lemma file_remove (p : PidFile) (h : Host) :
    (p.remove h).file = { p with isOwned := false } := by
  unfold remove
  dsimp only
  split <;> rfl

end PidFile

namespace PidFiles

variable {w w' : PidFiles} {c : PidCall} {i j pid : Nat} {p p' : PidFile}

/-- A PID file is made by a call, or was there before. A write that succeeds makes it the owner, and
to be told to remove makes it no owner. -/
lemma file?_of_call (hcall : w.call c = some w') (hp' : w'.file? j = some p') :
    (j = w.files.length ∧ p'.isOwned = false ∧ ∃ path, c = .act (.new path)) ∨
    ∃ p, w.file? j = some p ∧ p'.path = p.path ∧
      (p'.isOwned = true ↔ (∃ pid, c = .act (.write j pid) ∧ w.answer c = .done (.ok ())) ∨
        p.isOwned = true ∧ c ≠ .act (.remove j)) := by
  cases c with
  | look i =>
    obtain ⟨_, _, rfl⟩ := Option.map_eq_some_iff.mp hcall
    exact .inr ⟨p', hp', rfl, by simp⟩
  | act a =>
    cases a with
    | new path =>
      cases hcall
      by_cases hj : j < w.files.length
      · rw [file?, List.getElem?_append_left hj] at hp'
        exact .inr ⟨p', hp', rfl, by simp⟩
      · have hlast := lt_of_file? hp'
        obtain rfl : j = w.files.length := by
          rw [List.length_append, List.length_singleton] at hlast
          omega
        rw [file?, List.getElem?_concat_length] at hp'
        cases hp'
        exact .inl ⟨rfl, rfl, path, rfl⟩
    | write i pid =>
      obtain ⟨p, hp, -, hfile⟩ := file?_of_write hcall
      rw [hfile] at hp'
      by_cases hj : j = i
      · subst hj
        rw [if_pos rfl] at hp'
        cases hp'
        refine .inr ⟨p, hp, p.path_write pid w.host, ?_⟩
        rw [PidFile.isOwned_write_iff]
        simp [answer, hp]
      · rw [if_neg hj] at hp'
        exact .inr ⟨p', hp', rfl, by simp [Ne.symm hj]⟩
    | read i =>
      obtain ⟨_, _, rfl⟩ := Option.map_eq_some_iff.mp hcall
      exact .inr ⟨p', hp', rfl, by simp⟩
    | remove i =>
      obtain ⟨p, hp, rfl⟩ := Option.map_eq_some_iff.mp hcall
      have hplace := (file?_place hp rfl j).symm.trans hp'
      by_cases hj : j = i
      · subst hj
        rw [if_pos rfl] at hplace
        cases hplace
        exact .inr ⟨p, hp, by rw [PidFile.file_remove], by simp [PidFile.file_remove]⟩
      · rw [if_neg hj] at hplace
        exact .inr ⟨p', hplace, rfl, by simp [Ne.symm hj]⟩
    | drop i =>
      obtain ⟨p, hp, rfl⟩ := Option.map_eq_some_iff.mp hcall
      have hplace := (file?_place hp rfl j).symm.trans hp'
      split at hplace
      · cases hplace
      · exact .inr ⟨p', hplace, rfl, by simp⟩
    | put | erase =>
      cases hcall
      exact .inr ⟨p', hp', rfl, by simp⟩
    | move =>
      obtain ⟨_, _, rfl⟩ := Option.map_eq_some_iff.mp hcall
      exact .inr ⟨p', hp', rfl, by simp⟩

/-- PID files keep their numbers. -/
lemma length_of_call (hcall : w.call c = some w') : w.files.length ≤ w'.files.length := by
  have hset (i : Nat) (q : Option PidFile) : w.files.length ≤ (w.files.set i q).length :=
    List.length_set.ge
  cases c with
  | look i =>
    obtain ⟨_, _, rfl⟩ := Option.map_eq_some_iff.mp hcall
    exact Nat.le_refl _
  | act a =>
    cases a with
    | new path =>
      cases hcall
      exact List.length_append ▸ Nat.le_add_right ..
    | write i pid =>
      obtain ⟨p, -, rfl⟩ := Option.map_eq_some_iff.mp hcall
      dsimp only
      generalize p.write pid w.host = d
      split
      · exact hset i d.file
      · exact hset i d.file
    | remove i =>
      obtain ⟨p, -, rfl⟩ := Option.map_eq_some_iff.mp hcall
      exact hset i _
    | drop i =>
      obtain ⟨p, -, rfl⟩ := Option.map_eq_some_iff.mp hcall
      exact hset i none
    | put | erase =>
      cases hcall
      exact Nat.le_refl _
    | read | move =>
      obtain ⟨_, _, rfl⟩ := Option.map_eq_some_iff.mp hcall
      exact Nat.le_refl _

lemma cwd_of_call (hcall : w.call c = some w') : w'.host.cwd = w.host.cwd := by
  cases c with
  | act a => exact cwd_of_step hcall
  | look i =>
    obtain ⟨_, _, rfl⟩ := Option.map_eq_some_iff.mp hcall
    rfl

end PidFiles

/-! ### What is gone -/

namespace PidFile

variable {p : PidFile} {path : String} {h h' : Host}

/-- The path leads nowhere, and there is no file to read. -/
def IsGone (path : String) (h : Host) : Prop :=
  ∀ p : PidFile, p.path = path → p.pathExists h = false ∧ p.read h = .ok none

lemma isGone_iff : IsGone path h ↔ h.find path = .error (.os .noEntry) := by
  constructor
  · intro hgone
    exact read_eq_none.mp (hgone { path := path } rfl).2
  · rintro hfind p rfl
    refine ⟨?_, read_eq_none.mpr hfind⟩
    rw [pathExists, Host.pathExists, hfind]
    rfl

/-- What was removed is gone. -/
lemma isGone_of_remove (hremove : (p.remove h).result = .ok ()) :
    IsGone p.path (p.remove h).host := by
  rw [isGone_iff]
  unfold remove at hremove ⊢
  dsimp only at hremove ⊢
  split at hremove
  · rename_i h' hunlink
    exact Host.find_of_unlink hunlink
  · rename_i hunlink
    exact Host.find_of_unlink_noEntry hunlink
  · cases hremove

/-- Where a number is read, the path leads somewhere. -/
lemma pathExists_of_read {n : Nat} (hread : p.read h = .ok (some n)) :
    h.pathExists p.path = true := by
  obtain ⟨⟨content, -, hcontent, -⟩, -⟩ := read_eq_some.mp hread
  unfold Host.read at hcontent
  unfold Host.pathExists
  split at hcontent
  · rename_i hfind
    rw [hfind]
    rfl
  · cases hcontent
  · cases hcontent

/-- The owner tries once to take away what its path names, and no harm comes of it where that cannot
be done. Others do nothing. -/
structure TakesLeave (p : PidFile) (h h' : Host) : Prop where
  taken : p.isOwned = true → ∀ g, h.unlink p.path = .ok g → h' = g
  refused : p.isOwned = true → ∀ e, h.unlink p.path = .error e → h' = h
  foreign : p.isOwned = false → h' = h

lemma takesLeave_drop (p : PidFile) (h : Host) : p.TakesLeave h (p.drop h).1 := by
  rw [host_drop]
  refine ⟨fun howned g hunlink => ?_, fun howned e hunlink => ?_, fun hforeign => ?_⟩
  · rw [if_pos howned, remove]
    dsimp only
    rw [hunlink]
  · rw [if_pos howned, remove]
    dsimp only
    rw [hunlink]
    split
    · rename_i hok
      cases hok
    all_goals rfl
  · rw [if_neg (by simp [hforeign])]

end PidFile

/-! ### Histories -/

namespace PidHistory

variable {s s' s₁ u : PidHistory} {c : PidCall} {cs : List PidCall} {i : Nat} {p : PidFile}
  {path : String}

lemma runs : Runs step run := ⟨fun _ => rfl, fun _ _ _ => rfl⟩

/-- The owners are those that have written since, and nobody has written yet who is still to
come. -/
structure Owned (s : PidHistory) : Prop where
  owner : ∀ i p, s.files.file? i = some p → (p.isOwned = true ↔ WrittenSince i s.told)
  known : ∀ i pid a, (PidCall.act (.write i pid), a) ∈ s.told → i < s.files.files.length

lemma owned_start (h : Host) : (start h).Owned := by
  refine ⟨fun i p hp => ?_, nofun⟩
  cases hp

lemma Owned.step (h : s.Owned) (hstep : s.step c = some s') : s'.Owned := by
  obtain ⟨w, hcall, rfl⟩ := Option.map_eq_some_iff.mp hstep
  constructor
  · intro j p' hp'
    rw [writtenSince_concat]
    rcases PidFiles.file?_of_call hcall hp' with ⟨rfl, hfresh, path, rfl⟩ | ⟨p, hp, -, howned⟩
    · -- the calls so far were made by others
      constructor
      · intro howned
        rw [hfresh] at howned
        cases howned
      · rintro (⟨_, hc, -⟩ | ⟨⟨before, pid, after, htold, -⟩, -⟩)
        · cases hc
        · have hknown := h.known s.files.files.length pid (.done (.ok ())) (by simp [htold])
          omega
    · rw [howned, h.owner j p hp]
  · intro j pid a hmem
    have hkept := PidFiles.length_of_call hcall
    rcases List.mem_append.mp hmem with hmem | hmem
    · exact Nat.lt_of_lt_of_le (h.known j pid a hmem) hkept
    · obtain ⟨rfl, -⟩ := Prod.mk.inj (List.mem_singleton.mp hmem)
      obtain ⟨p, hp, -⟩ := Option.map_eq_some_iff.mp hcall
      exact Nat.lt_of_lt_of_le (PidFiles.lt_of_file? hp) hkept

lemma owned_of_run {h : Host} (hrun : (start h).run cs = some s) : s.Owned :=
  runs.invariant (P := fun _ s => s.Owned) (owned_start h) (fun _ _ _ _ _ h hstep => h.step hstep)
    hrun

/-- No step of the run puts anything in a place on which the path depends. -/
def LeavesAlone (s : PidHistory) (path : String) (cs : List PidCall) : Prop :=
  ∀ before c after v v', cs = before ++ c :: after → s.run before = some v → v.step c = some v' →
    ∀ l, v.files.host.tree.Gains v'.files.host.tree l → ¬ v.files.host.DependsOn path l

/-- A step of the run puts something somewhere, and the path, which led nowhere, leads somewhere. -/
def Creates (s : PidHistory) (path : String) (cs : List PidCall) : Prop :=
  ∃ before c after v v' l, cs = before ++ c :: after ∧ s.run before = some v ∧
    v.step c = some v' ∧ v.files.host.pathExists path = false ∧
    v'.files.host.pathExists path = true ∧ v.files.host.tree.Gains v'.files.host.tree l

/-- The path leads nowhere and stays so until it is created again, no number is read through it
before, and there is no file to read as long as nothing is put in its way. -/
structure StaysGone (s : PidHistory) (path : String) : Prop where
  now : PidFile.IsGone path s.files.host
  uncreated : ∀ cs u, s.run cs = some u → ¬ s.Creates path cs →
    u.files.host.pathExists path = false ∧
      ∀ p : PidFile, p.path = path → ∀ n, p.read u.files.host ≠ .ok (some n)
  spared : ∀ cs u, s.run cs = some u → s.LeavesAlone path cs → PidFile.IsGone path u.files.host

lemma isGone_of_leavesAlone (hgone : PidFile.IsGone path s.files.host) (hrun : s.run cs = some u)
    (halone : s.LeavesAlone path cs) : PidFile.IsGone path u.files.host := by
  -- along the run, as far as it is known to be a beginning of the whole one
  have hprefix : cs <+: cs → PidFile.IsGone path u.files.host := by
    refine runs.invariant (P := fun bs u => bs <+: cs → PidFile.IsGone path u.files.host)
      (fun _ => hgone) ?_ hrun
    intro bs b v v' hbs hv hstep hprefix
    obtain ⟨after, hafter⟩ := hprefix
    have hcs : cs = bs ++ b :: after := by rw [← hafter, List.append_assoc, List.singleton_append]
    have hbefore := PidFile.isGone_iff.mp (hv ⟨b :: after, hcs.symm⟩)
    obtain ⟨w, hcall, rfl⟩ := Option.map_eq_some_iff.mp hstep
    exact PidFile.isGone_iff.mpr (Host.find_of_spared hbefore (PidFiles.cwd_of_call hcall)
      (halone bs b after v _ hcs hbs hstep))
  exact hprefix List.prefix_rfl

lemma creates_of_pathExists (hnot : s.files.host.pathExists path = false)
    (hrun : s.run cs = some u) (hthere : u.files.host.pathExists path = true) :
    s.Creates path cs := by
  refine runs.invariant
    (P := fun bs u => u.files.host.pathExists path = true → s.Creates path bs)
    (fun hthere => absurd (hthere.symm.trans hnot) nofun) ?_ hrun hthere
  intro bs b v v' hbs hv hstep hthere
  cases hbefore : v.files.host.pathExists path with
  | true =>
    obtain ⟨before, c, after, v₀, v₁, l, rfl, hcreated⟩ := hv hbefore
    exact ⟨before, c, after ++ [b], v₀, v₁, l, by simp, hcreated⟩
  | false =>
    obtain ⟨w, hcall, rfl⟩ := Option.map_eq_some_iff.mp hstep
    obtain ⟨l, hl⟩ := Host.gains_of_pathExists hbefore hthere (PidFiles.cwd_of_call hcall)
    exact ⟨bs, b, [], v, _, l, rfl, hbs, hstep, hbefore, hthere, hl⟩

/-- What is gone stays so until somebody creates it again. -/
lemma staysGone_of_isGone (hgone : PidFile.IsGone path s.files.host) : s.StaysGone path := by
  have hnot := (hgone { path := path } rfl).1
  refine ⟨hgone, fun cs u hrun hcreates => ?_, fun cs u => isGone_of_leavesAlone hgone⟩
  have hnowhere : u.files.host.pathExists path = false := by
    cases hthere : u.files.host.pathExists path with
    | false => rfl
    | true => exact absurd (creates_of_pathExists hnot hrun hthere) hcreates
  refine ⟨hnowhere, ?_⟩
  rintro p rfl n hread
  rw [PidFile.pathExists_of_read hread] at hnowhere
  cases hnowhere

/-- After any history the owners are the PID files that have written since they were last told to
remove. To ask changes nothing, to drop a PID file takes leave of the files, and what was removed
stays gone. -/
theorem ownership_follows_history {h : Host} (hrun : (start h).run cs = some s) :
    (∀ i p, s.files.file? i = some p → (p.isOwned = true ↔ WrittenSince i s.told)) ∧
    (∀ i s', s.step (.act (.read i)) = some s' ∨ s.step (.look i) = some s' →
      s'.files = s.files) ∧
    (∀ i p, s.files.file? i = some p → ∃ s', s.step (.act (.drop i)) = some s' ∧
      s'.files.file? i = none ∧ p.TakesLeave s.files.host s'.files.host) ∧
    ∀ i p s', s.files.file? i = some p → s.step (.act (.remove i)) = some s' →
      s.files.answer (.act (.remove i)) = .done (.ok ()) → s'.StaysGone p.path := by
  refine ⟨(owned_of_run hrun).owner, fun i s' hstep => ?_, fun i p hp => ?_,
    fun i p s' hp hstep hanswer => ?_⟩
  · rcases hstep with hstep | hstep
    all_goals
      obtain ⟨w, hcall, rfl⟩ := Option.map_eq_some_iff.mp hstep
      obtain ⟨_, _, rfl⟩ := Option.map_eq_some_iff.mp hcall
      rfl
  · have hcall : s.files.call (.act (.drop i)) =
        some ((s.files.withHost (p.drop s.files.host).1).place i none) := by
      rw [PidFiles.call, PidFiles.step, hp, Option.map_some]
    refine ⟨_, by rw [step, hcall, Option.map_some], ?_, p.takesLeave_drop s.files.host⟩
    exact (PidFiles.file?_place hp rfl i).trans (if_pos rfl)
  · have hresult : (p.remove s.files.host).result = .ok () := by
      simpa [PidFiles.answer, hp] using hanswer
    obtain ⟨w, hcall, rfl⟩ := Option.map_eq_some_iff.mp hstep
    obtain ⟨q, hq, rfl⟩ := Option.map_eq_some_iff.mp hcall
    obtain rfl : p = q := Option.some.inj (hp.symm.trans hq)
    exact staysGone_of_isGone (PidFile.isGone_of_remove hresult)

lemma leavesAlone_nil (s : PidHistory) (path : String) : s.LeavesAlone path [] := by
  intro before c after _ _ hcs
  simp at hcs

lemma LeavesAlone.cons (hstep : s.step c = some s')
    (hc : ∀ l, s.files.host.tree.Gains s'.files.host.tree l → ¬ s.files.host.DependsOn path l)
    (hcs : s'.LeavesAlone path cs) : s.LeavesAlone path (c :: cs) := by
  intro before c' after v v' hsplit hbefore hnext
  cases before with
  | nil =>
    cases hsplit
    cases hbefore
    obtain rfl : s' = v' := Option.some.inj (hstep.symm.trans hnext)
    exact hc
  | cons b before =>
    obtain ⟨rfl, htail⟩ := List.cons.inj hsplit
    rw [runs.cons, hstep, Option.bind_some] at hbefore
    exact hcs before c' after v v' htail hbefore hnext

/-- One PID file cannot write, another one can. -/
def lively : List PidCall := [.act (.put ["b"] (.file [])), .act (.new "b/x.pid"),
  .act (.new "a.pid"), .act (.write 0 5), .act (.write 1 7)]

/-- Others make a directory elsewhere, and the second PID file asks. -/
def elsewhere : List PidCall := [.act (.put ["c"] .directory), .look 1]

/-- The PID file that could write is an owner, and its file is gone once it was removed. -/
theorem ownership_follows_history_lively : ∃ s s' u, (start {}).run lively = some s ∧
    ¬ WrittenSince 0 s.told ∧ WrittenSince 1 s.told ∧ s.step (.act (.remove 1)) = some s' ∧
    s'.run elsewhere = some u ∧ PidFile.IsGone "a.pid" u.files.host := by
  have hends : ((start {}).run lively).bind (fun s => (s.step (.act (.remove 1))).bind fun s' =>
      (s'.run elsewhere).map fun _ => (s.files.file? 0, s.files.file? 1,
        s.files.answer (.act (.remove 1)), s'.files.host, s'.files.file? 1)) =
      some (some ⟨"b/x.pid", false⟩, some ⟨"a.pid", true⟩, .done (.ok ()),
        { tree := ⟨[(["b"], .file [])]⟩ }, some ⟨"a.pid", false⟩) := by decide +kernel
  obtain ⟨s, hrun, hs⟩ := Option.bind_eq_some_iff.mp hends
  obtain ⟨s', hremove, hs'⟩ := Option.bind_eq_some_iff.mp hs
  obtain ⟨u, hlater, hu⟩ := Option.map_eq_some_iff.mp hs'
  simp only [Prod.mk.injEq] at hu
  obtain ⟨hfirst, hsecond, hanswer, hhost, -⟩ := hu
  obtain ⟨howners, hasks, -, hremoved⟩ := ownership_follows_history hrun
  have hgone := hremoved 1 ⟨"a.pid", true⟩ s' hsecond hremove hanswer
  obtain ⟨v, hput, hlook⟩ := Option.bind_eq_some_iff.mp hlater
  obtain ⟨u', hlook, hend⟩ := Option.bind_eq_some_iff.mp hlook
  have halone : s'.LeavesAlone "a.pid" elsewhere := by
    refine .cons hput (fun l hl => ?_) (.cons hlook (fun l hl => ?_) (leavesAlone_nil _ _))
    · obtain ⟨w, hcall, rfl⟩ := Option.map_eq_some_iff.mp hput
      cases hcall
      obtain rfl := FileTree.eq_of_gains_put hl
      rintro ⟨e, hne⟩
      rw [hhost] at hne
      exact hne (by rfl)
    · obtain ⟨w, hcall, rfl⟩ := Option.map_eq_some_iff.mp hlook
      obtain ⟨_, _, rfl⟩ := Option.map_eq_some_iff.mp hcall
      exact absurd hl (FileTree.not_gains_self _ l)
  have hstranger : ¬ WrittenSince 0 s.told := by
    rw [← howners 0 _ hfirst]
    exact nofun
  exact ⟨s, s', u, hrun, hstranger, (howners 1 _ hsecond).mp rfl, hremove, hlater,
    hgone.spared elsewhere u hlater halone⟩

/-- Others put a file in the place of the directory that the path leads through. -/
def inTheWay : List PidCall := [.act (.erase ["d"]), .act (.put ["d"] (.file [0x78]))]

/-- There may be more to say of a path that was removed than that there is no file, although nobody
has created it. -/
theorem removed_file_misread : ∃ s s' u, (start {}).run
      [.act (.put ["d"] .directory), .act (.new "d/x.pid"), .act (.write 0 5)] = some s ∧
    s.step (.act (.remove 0)) = some s' ∧
    s.files.answer (.act (.remove 0)) = .done (.ok ()) ∧
    s'.run inTheWay = some u ∧ ¬ s'.Creates "d/x.pid" inTheWay ∧
    u.files.answer (.look 0) = .there false ∧
    u.files.answer (.act (.read 0)) =
      .number (.error (.pidFileRead "d/x.pid" "Not a directory (os error 20)")) := by
  have hends : ((start {}).run
      [.act (.put ["d"] .directory), .act (.new "d/x.pid"), .act (.write 0 5)]).bind (fun s =>
        (s.step (.act (.remove 0))).bind fun s' => (s'.run inTheWay).map fun u =>
          (s.files.answer (.act (.remove 0)), u.files.answer (.look 0),
            u.files.answer (.act (.read 0)),
            inTheWay.inits.all fun bs =>
              (s'.run bs).all fun v => !v.files.host.pathExists "d/x.pid")) =
      some (.done (.ok ()), .there false,
        .number (.error (.pidFileRead "d/x.pid" "Not a directory (os error 20)")), true) := by
    decide +kernel
  obtain ⟨s, hrun, hs⟩ := Option.bind_eq_some_iff.mp hends
  obtain ⟨s', hremove, hs'⟩ := Option.bind_eq_some_iff.mp hs
  obtain ⟨u, hlater, hu⟩ := Option.map_eq_some_iff.mp hs'
  simp only [Prod.mk.injEq] at hu
  obtain ⟨hanswer, hlook, hread, hnowhere⟩ := hu
  refine ⟨s, s', u, hrun, hremove, hanswer, hlater, ?_, hlook, hread⟩
  rintro ⟨before, c, after, v, v', l, hsplit, hbefore, hstep, -, hthere, -⟩
  have hprefix : before ++ [c] ∈ inTheWay.inits :=
    (List.mem_inits ..).mpr ⟨after, by rw [hsplit, List.append_assoc, List.singleton_append]⟩
  have hnot := List.all_eq_true.mp hnowhere _ hprefix
  rw [runs.concat, hbefore, Option.bind_some, hstep, Option.all_some, hthere] at hnot
  cases hnot

end PidHistory

end Overseer
