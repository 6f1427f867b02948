import Overseer.PidFile
import Overseer.Proofs.Runs
import Overseer.Proofs.System.Walks

/-!
# PID files among others

Any number of PID files on one tree of files, which others change as well. Beside the tree it is
noted which PID file was the last to write what stands in a place. A list of actions, run by `run`,
is one interleaving.
-/

namespace Overseer

namespace PidFile

variable {p : PidFile} {pid : Nat} {h h' : Host} {l : Location}

/-- The place that was written, if one was. -/
def written? (p : PidFile) (pid : Nat) (h : Host) : Option Location :=
  match (p.write pid h).result with
  | .ok () => (h.makeDirectories ((Path.parent? p.path).getD "")).2.destination? p.path
  | .error _ => none

/-- Taking the file away takes away what the path names, and nothing where it names nothing. -/
lemma host_remove (p : PidFile) (h : Host) :
    (p.remove h).host =
      match h.named? p.path with
      | some l => { h with tree := h.tree.erase l }
      | none => h := by
  unfold remove
  dsimp only
  cases hunlink : h.unlink p.path with
  | ok h' =>
    obtain ⟨l, hnamed, rfl⟩ := Host.unlink_eq_ok.mp hunlink
    rw [hnamed]
  | error e =>
    have hnamed : h.named? p.path = none := by
      cases hnamed : h.named? p.path with
      | none => rfl
      | some l =>
        rw [Host.unlink_eq_ok.mpr ⟨l, hnamed, rfl⟩] at hunlink
        cases hunlink
    rw [hnamed]
    split
    · cases ‹Except.error _ = Except.ok _›
    all_goals rfl

/-- An owner that goes away takes the file away. -/
lemma host_drop (p : PidFile) (h : Host) :
    (p.drop h).1 = if p.isOwned then (p.remove h).host else h := by
  unfold drop
  split
  · dsimp only
    split <;> rfl
  · rfl

/-- A write that succeeds puts the digits where the path leads, and makes the writer the owner. -/
lemma write_of_ok (hok : (p.write pid h).result = .ok ()) : ∃ l, p.written? pid h = some l ∧
    (p.write pid h).file = { p with isOwned := true } ∧
    (p.write pid h).host.resolve .create (Path.endsInSlash p.path) p.path =
      .found l (.file (content pid)) := by
  unfold written?
  rw [hok]
  unfold write at hok ⊢
  split at hok
  · cases hok
  · rename_i h' hcreate
    unfold create at hcreate
    dsimp only at hcreate
    split at hcreate
    · cases hcreate
    · rename_i h₁ habove
      rw [habove]
      split at hcreate
      · cases hcreate
      · cases hcreate
        obtain ⟨l, hdestination, -, -, hfound⟩ := Host.write_eq_ok ‹_›
        exact ⟨l, hdestination, rfl, hfound⟩

lemma written?_of_error {e : Failure} (hresult : (p.write pid h).result = .error e) :
    p.written? pid h = none := by
  unfold written?
  rw [hresult]

/-- What was written is what a write through the path leads to. -/
lemma resolve_of_written? (hwritten : p.written? pid h = some l) :
    (p.write pid h).file = { p with isOwned := true } ∧
    (p.write pid h).host.resolve .create (Path.endsInSlash p.path) p.path =
      .found l (.file (content pid)) := by
  cases hresult : (p.write pid h).result with
  | ok =>
    obtain ⟨l', hwritten', hfile, hfound⟩ := write_of_ok hresult
    obtain rfl : l' = l := Option.some.inj (hwritten'.symm.trans hwritten)
    exact ⟨hfile, hfound⟩
  | error e =>
    rw [written?_of_error hresult] at hwritten
    cases hwritten

lemma path_write (p : PidFile) (pid : Nat) (h : Host) : (p.write pid h).file.path = p.path := by
  unfold write
  split <;> rfl

/-- A failed write leaves an owner what it was. -/
lemma isOwned_write (hp : p.isOwned = true) : (p.write pid h).file.isOwned = true := by
  unfold write
  split
  · exact hp
  · rfl

lemma cwd_remove (p : PidFile) (h : Host) : (p.remove h).host.cwd = h.cwd := by
  rw [host_remove]
  split <;> rfl

lemma cwd_drop (p : PidFile) (h : Host) : (p.drop h).1.cwd = h.cwd := by
  rw [host_drop]
  split
  · exact p.cwd_remove h
  · rfl

end PidFile

/-! ### Actions -/

inductive PidAction where
  | new (path : String)
  | write (i : Nat) (pid : Nat)
  | read (i : Nat)
  | remove (i : Nat)
  | drop (i : Nat)
  /-- Others write a file, or make a directory or a link. -/
  | put (l : Location) (e : Entry)
  /-- Others take away what stands in a place. -/
  | erase (l : Location)
  /-- Others move what stands in a place to another place. -/
  | move (l l' : Location)

/-- PID files by number, on the files of a host. -/
structure PidFiles where
  host : Host
  /-- What was dropped is `none`. -/
  files : List (Option PidFile) := []
  /-- The PID file that was the last to write the file in a place; `none` for others. -/
  author : Location → Option Nat := fun _ => none

namespace PidFiles

variable {w w' : PidFiles} {a : PidAction} {i : Nat} {p : PidFile} {l : Location}

def start (h : Host) : PidFiles := { host := h }

def file? (w : PidFiles) (i : Nat) : Option PidFile := (w.files[i]?).join

/-- Puts a PID file in the place of its former self. -/
def place (w : PidFiles) (i : Nat) (p : Option PidFile) : PidFiles :=
  { w with files := w.files.set i p }

/-- Other files stand there now. Where nothing stands, nobody is the author. -/
def withHost (w : PidFiles) (h : Host) : PidFiles :=
  { w with host := h, author := fun l => if (h.tree.get? l).isSome then w.author l else none }

def withTree (w : PidFiles) (t : FileTree) : PidFiles := w.withHost { w.host with tree := t }

/-- Notes who wrote the file in a place. -/
def credit (w : PidFiles) (l : Location) (i : Option Nat) : PidFiles :=
  { w with author := fun l' => if l' = l then i else w.author l' }

def step (w : PidFiles) : PidAction → Option PidFiles
  | .new path => some { w with files := w.files ++ [some { path := path }] }
  | .write i pid =>
    (w.file? i).map fun p =>
      let d := p.write pid w.host
      let w' := (w.withHost d.host).place i d.file
      match p.written? pid w.host with
      | some l => w'.credit l i
      | none => w'
  | .read i => (w.file? i).map fun _ => w
  | .remove i =>
    (w.file? i).map fun p =>
      let d := p.remove w.host
      (w.withHost d.host).place i d.file
  | .drop i => (w.file? i).map fun p => (w.withHost (p.drop w.host).1).place i none
  | .put l e => some ((w.withTree (w.host.tree.put l e)).credit l none)
  | .erase l => some (w.withTree (w.host.tree.erase l))
  | .move l l' =>
    (w.host.tree.get? l).map fun e =>
      ((w.withTree ((w.host.tree.erase l).put l' e)).credit l none).credit l' (w.author l)

def run (w : PidFiles) : List PidAction → Option PidFiles
  | [] => some w
  | a :: as => (w.step a).bind (run · as)

/-- Whether the file in a place is one whose content this PID file was the last to write. -/
def Wrote (w : PidFiles) (i : Nat) (l : Location) : Prop :=
  (∃ content, w.host.tree.get? l = some (.file content)) ∧ w.author l = some i

lemma runs : Runs step run := ⟨fun _ => rfl, fun _ _ _ => rfl⟩

/-! ### What a step does -/

lemma lt_of_file? (hp : w.file? i = some p) : i < w.files.length := by
  by_contra hge
  rw [file?, List.getElem?_eq_none (Nat.not_lt.mp hge)] at hp
  cases hp

lemma file?_place {u : PidFiles} {q : Option PidFile} (hp : w.file? i = some p)
    (hfiles : u.files = w.files) (j : Nat) :
    (u.place i q).file? j = if j = i then q else w.file? j := by
  unfold place file?
  rw [hfiles]
  split
  · subst j
    simp [List.getElem?_set_self (lt_of_file? hp)]
  · simp [List.getElem?_set_ne (Ne.symm ‹_›)]

/-- A PID file writes, whether it can or not, and the others stay as they are. -/
lemma file?_of_write {pid : Nat} (hstep : w.step (.write i pid) = some w') :
    ∃ p, w.file? i = some p ∧ w'.host = (p.write pid w.host).host ∧
      ∀ j, w'.file? j = if j = i then some (p.write pid w.host).file else w.file? j := by
  obtain ⟨p, hp, rfl⟩ := Option.map_eq_some_iff.mp hstep
  refine ⟨p, hp, ?_⟩
  dsimp only
  -- what was written is of no account here, and is better not computed
  generalize p.write pid w.host = d
  have hfile := file?_place (u := w.withHost d.host) (q := d.file) hp rfl
  split
  · exact ⟨rfl, hfile⟩
  · exact ⟨rfl, hfile⟩

/-- The process works where it did. -/
lemma cwd_of_step (hstep : w.step a = some w') : w'.host.cwd = w.host.cwd := by
  cases a with
  | new | put | erase =>
    cases hstep
    rfl
  | read | move =>
    obtain ⟨_, _, rfl⟩ := Option.map_eq_some_iff.mp hstep
    rfl
  | write i pid =>
    obtain ⟨p, -, hhost, -⟩ := file?_of_write hstep
    rw [hhost]
    exact (PidFile.grows_write p pid w.host).cwd
  | remove i =>
    obtain ⟨p, -, rfl⟩ := Option.map_eq_some_iff.mp hstep
    exact p.cwd_remove w.host
  | drop i =>
    obtain ⟨p, -, rfl⟩ := Option.map_eq_some_iff.mp hstep
    exact p.cwd_drop w.host

/-- Who is the author afterwards was so before, unless he wrote this place or what he wrote was
moved to it. -/
lemma author_of_step (hstep : w.step a = some w') (h : w'.author l = some i) :
    w.author l = some i ∨
      (∃ pid p, a = .write i pid ∧ w.file? i = some p ∧ p.written? pid w.host = some l) ∨
      ∃ l₀, a = .move l₀ l ∧ w.author l₀ = some i := by
  have hhost {u : Host} (h : (w.withHost u).author l = some i) : w.author l = some i := by
    simp only [withHost] at h
    split at h
    · exact h
    · cases h
  cases a with
  | new path =>
    cases hstep
    exact .inl h
  | write j pid =>
    obtain ⟨p, hp, rfl⟩ := Option.map_eq_some_iff.mp hstep
    dsimp only at h
    split at h
    · rename_i l₁ hwritten
      simp only [credit] at h
      split at h
      · cases h
        subst l₁
        exact .inr (.inl ⟨pid, p, rfl, hp, hwritten⟩)
      · exact .inl (hhost h)
    · exact .inl (hhost h)
  | read j =>
    obtain ⟨p, hp, rfl⟩ := Option.map_eq_some_iff.mp hstep
    exact .inl h
  | remove j | drop j =>
    obtain ⟨p, hp, rfl⟩ := Option.map_eq_some_iff.mp hstep
    exact .inl (hhost h)
  | put l₁ e =>
    cases hstep
    simp only [credit] at h
    split at h
    · cases h
    · exact .inl (hhost h)
  | erase l₁ =>
    cases hstep
    exact .inl (hhost h)
  | move l₀ l₁ =>
    obtain ⟨e, he, rfl⟩ := Option.map_eq_some_iff.mp hstep
    simp only [credit] at h
    split at h
    · subst l₁
      exact .inr (.inr ⟨l₀, rfl, h⟩)
    · split at h
      · cases h
      · exact .inl (hhost h)

/-- A PID file stays as it is while others act, and keeps its path and what it owns when it writes
or reads. -/
lemma file?_of_step (hstep : w.step a = some w') (hp : w.file? i = some p)
    (ha : a ≠ .remove i ∧ a ≠ .drop i) : ∃ p', w'.file? i = some p' ∧ p'.path = p.path ∧
      (p.isOwned = true → p'.isOwned = true) := by
  cases a with
  | new path =>
    cases hstep
    refine ⟨p, ?_, rfl, id⟩
    rw [file?, List.getElem?_append_left (lt_of_file? hp)]
    exact hp
  | write j pid =>
    obtain ⟨q, hq, -, hfile⟩ := file?_of_write hstep
    by_cases hi : i = j
    · subst hi
      obtain rfl : p = q := Option.some.inj (hp.symm.trans hq)
      exact ⟨_, by rw [hfile, if_pos rfl], p.path_write pid w.host, PidFile.isOwned_write⟩
    · exact ⟨p, by rw [hfile, if_neg hi, hp], rfl, id⟩
  | read j =>
    obtain ⟨q, hq, rfl⟩ := Option.map_eq_some_iff.mp hstep
    exact ⟨p, hp, rfl, id⟩
  | remove j =>
    obtain ⟨q, hq, rfl⟩ := Option.map_eq_some_iff.mp hstep
    have hne : i ≠ j := fun h => ha.1 (by rw [h])
    exact ⟨p, (file?_place hq rfl i).trans (by rw [if_neg hne, hp]), rfl, id⟩
  | drop j =>
    obtain ⟨q, hq, rfl⟩ := Option.map_eq_some_iff.mp hstep
    have hne : i ≠ j := fun h => ha.2 (by rw [h])
    exact ⟨p, (file?_place hq rfl i).trans (by rw [if_neg hne, hp]), rfl, id⟩
  | put | erase =>
    cases hstep
    exact ⟨p, hp, rfl, id⟩
  | move =>
    obtain ⟨e, he, rfl⟩ := Option.map_eq_some_iff.mp hstep
    exact ⟨p, hp, rfl, id⟩

end PidFiles

end Overseer
