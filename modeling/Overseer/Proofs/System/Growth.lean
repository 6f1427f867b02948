import Mathlib.Data.List.Basic
import Overseer.Background
import Overseer.Proofs.Lookup

/-!
# Growing trees of files

Making directories and writing files takes nothing away: what a path led to is still there, with
another content at most. The order of trees that says so is kept by every walk, so whatever could be
found can be found in a grown tree.
-/

namespace Overseer

/-- The same kind of entry. Files may differ in content, and links lead to the same place. -/
def Entry.Matches : Entry → Entry → Prop
  | .directory, .directory | .file _, .file _ => True
  | .link target, .link target' => target = target'
  | _, _ => False

lemma Entry.Matches.refl (e : Entry) : e.Matches e := by
  cases e with
  | link target => rfl
  | directory | file => trivial

lemma Entry.Matches.trans {e e' e'' : Entry} (h : e.Matches e') (h' : e'.Matches e'') :
    e.Matches e'' := by
  cases e with
  | directory =>
    cases e' with
    | directory => exact h'
    | _ => exact h.elim
  | file content =>
    cases e' with
    | file content' =>
      cases e'' with
      | file => trivial
      | _ => exact h'.elim
    | _ => exact h.elim
  | link target =>
    cases e' with
    | link target' =>
      obtain rfl : target = target' := h
      exact h'
    | _ => exact h.elim

namespace FileTree

variable {t t' t'' : FileTree} {l l' : Location} {e : Entry}

/-- What stands in a tree stands in the other, too. -/
def Grows (t t' : FileTree) : Prop :=
  ∀ l e, t.get? l = some e → ∃ e', t'.get? l = some e' ∧ e.Matches e'

lemma Grows.refl (t : FileTree) : t.Grows t := fun _ e h => ⟨e, h, .refl e⟩

lemma Grows.trans (h : t.Grows t') (h' : t'.Grows t'') : t.Grows t'' := by
  intro l e hget
  obtain ⟨e', hget', he⟩ := h l e hget
  obtain ⟨e'', hget'', he'⟩ := h' l e' hget'
  exact ⟨e'', hget'', he.trans he'⟩

lemma get?_put_self (t : FileTree) (e : Entry) (h : l ≠ []) : (t.put l e).get? l = some e := by
  rw [get?, if_neg h, put, List.lookup_cons, beq_self_eq_true]

lemma get?_put_of_ne (t : FileTree) (e : Entry) (h : l' ≠ l) : (t.put l e).get? l' = t.get? l' := by
  unfold get? put
  split
  · rfl
  · rw [List.lookup_cons, beq_eq_false_iff_ne.mpr h]
    exact lookup_filter_ne t.entries h

/-- An entry may be put where there is none, or in the place of one of the same kind. -/
lemma grows_put (h : ∀ e', t.get? l = some e' → e'.Matches e) (hl : l ≠ []) :
    t.Grows (t.put l e) := by
  intro l' e' hget
  by_cases hsame : l' = l
  · subst hsame
    exact ⟨e, get?_put_self t e hl, h e' hget⟩
  · exact ⟨e', (get?_put_of_ne t e hsame).trans hget, .refl e'⟩

/-- A tree grows into another if what it lists stands there. -/
lemma grows_of_entries
    (h : ∀ entry ∈ t.entries, ∃ e, t'.get? entry.1 = some e ∧ entry.2.Matches e) :
    t.Grows t' := by
  intro l e hget
  unfold get? at hget
  split at hget
  · cases hget
    subst l
    exact ⟨.directory, rfl, trivial⟩
  · obtain ⟨before, after, hentries, -⟩ := List.lookup_eq_some_iff.mp hget
    exact h (l, e) (by simp [hentries])

/-! ### Walks -/

variable {last : LastName} {slash : Bool} {links : Nat} {dir : Location} {name : String}
  {names rest : List String} {follow follow' : Bool → Location → List String → Resolved}

/-- A walk goes on with what stands where a name leads. -/
lemma walkNames_name (hdot : name ≠ ".") (hdots : name ≠ "..")
    (hslash : ¬(rest.isEmpty && slash && decide (last = .create)) = true)
    (hshort : ¬nameLimit < name.utf8ByteSize) :
    t.walkNames last follow slash dir (name :: rest) =
      match t.get? (dir ++ [name]) with
      | none => if rest.isEmpty then .absent dir name slash else .failed .noEntry
      | some .directory => t.walkNames last follow slash (dir ++ [name]) rest
      | some (.file content) =>
        if !rest.isEmpty || slash then .failed .notDirectory
        else .found (dir ++ [name]) (.file content)
      | some (.link target) =>
        if rest.isEmpty && last = .keep && !slash then .found (dir ++ [name]) (.link target)
        else
          follow (slash || rest.isEmpty && Path.endsInSlash target)
            (if Path.isAbsolute target then [] else dir)
            ((Path.pieces target).filter (· ≠ "") ++ rest) := by
  have hcons := walkNames.eq_4 t last follow slash dir name rest hdot hdots
  rw [if_neg hslash, if_neg hshort] at hcons
  exact hcons

/-- One way to follow links finds what the other finds, up to content. -/
def FindsMore (follow follow' : Bool → Location → List String → Resolved) : Prop :=
  ∀ slash dir names l e, follow slash dir names = .found l e →
    ∃ e', follow' slash dir names = .found l e' ∧ e.Matches e'

lemma findsMore_walkNames (ht : t.Grows t') (hfollow : FindsMore follow follow') :
    FindsMore (t.walkNames last follow) (t'.walkNames last follow') := by
  intro slash dir names l e h
  -- along the walk in the smaller tree; what it finds by a name, the grown tree has in that place
  fun_induction walkNames t last follow slash dir names with
  | case1 =>
    cases h
    exact ⟨.directory, by rw [walkNames], trivial⟩
  | case2 dir rest ih =>
    rw [walkNames]
    exact ih h
  | case3 dir rest ih =>
    rw [walkNames]
    exact ih h
  | case8 dir name rest hdot hdots hslash hshort here hget ih =>
    obtain ⟨e', hget', he⟩ := ht here _ hget
    rw [walkNames_name hdot hdots hslash hshort, hget']
    cases e' with
    | directory => exact ih h
    | file | link => exact he.elim
  | case10 dir name rest hdot hdots hslash hshort here content hget hlast =>
    obtain ⟨e', hget', he⟩ := ht here _ hget
    rw [walkNames_name hdot hdots hslash hshort, hget']
    cases e' with
    | file content' =>
      obtain ⟨hl, rfl⟩ := Resolved.found.inj h
      subst hl
      exact ⟨.file content', if_neg hlast, trivial⟩
    | directory | link => exact he.elim
  | case11 dir name rest hdot hdots hslash hshort here target hget hkeep =>
    obtain ⟨e', hget', he⟩ := ht here _ hget
    rw [walkNames_name hdot hdots hslash hshort, hget']
    cases e' with
    | link target' =>
      obtain ⟨hl, rfl⟩ := Resolved.found.inj h
      subst hl
      exact ⟨.link target', if_pos hkeep, he⟩
    | directory | file => exact he.elim
  | case12 dir name rest hdot hdots hslash hshort here target hget hkeep start names =>
    obtain ⟨e', hget', he⟩ := ht here _ hget
    rw [walkNames_name hdot hdots hslash hshort, hget']
    cases e' with
    | link target' =>
      obtain rfl : target = target' := he
      simp only
      rw [if_neg hkeep]
      exact hfollow _ _ _ _ _ h
    | directory | file => exact he.elim
  | _ => cases h

/-- What a walk finds in a tree, it finds in a grown one. -/
theorem findsMore_walk (ht : t.Grows t') (last : LastName) (links : Nat) :
    FindsMore (t.walk last links) (t'.walk last links) := by
  induction links with
  | zero => exact findsMore_walkNames ht nofun
  | succ links ih => exact findsMore_walkNames ht ih

/-- Where a walk says that a name is missing, nothing stands. -/
def IsHonest (t : FileTree) (r : Resolved) : Prop :=
  ∀ parent name slash, r = .absent parent name slash → t.get? (parent ++ [name]) = none

lemma isHonest_failed (t : FileTree) (error : Errno) : t.IsHonest (.failed error) :=
  fun _ _ _ h => nomatch h

lemma isHonest_walkNames (hfollow : ∀ slash dir names, t.IsHonest (follow slash dir names))
    (last : LastName) (slash : Bool) (dir : Location) (names : List String) :
    t.IsHonest (t.walkNames last follow slash dir names) := by
  fun_induction walkNames t last follow slash dir names with
  | case2 dir rest ih => exact ih
  | case3 dir rest ih => exact ih
  | case6 dir name rest hdot hdots hslash hshort here hget hlast =>
    rintro _ _ _ h
    cases h
    exact hget
  | case8 dir name rest hdot hdots hslash hshort here hget ih => exact ih
  | case12 => exact hfollow _ _ _
  | _ => exact nofun

lemma isHonest_walk (t : FileTree) (last : LastName) (links : Nat) (slash : Bool) (dir : Location)
    (names : List String) : t.IsHonest (t.walk last links slash dir names) := by
  induction links generalizing slash dir names with
  | zero => exact isHonest_walkNames (fun _ _ _ => t.isHonest_failed _) last slash dir names
  | succ links ih => exact isHonest_walkNames ih last slash dir names

/-- A walk that is to create ends at no link, and finds a file where one stands. -/
def CanHold (t : FileTree) (r : Resolved) : Prop :=
  ∀ l e, r = .found l e → e = .directory ∨
    ∃ content, e = .file content ∧ l ≠ [] ∧ t.get? l = some e

lemma canHold_failed (t : FileTree) (error : Errno) : t.CanHold (.failed error) :=
  fun _ _ h => nomatch h

lemma canHold_walkNames (hfollow : ∀ slash dir names, t.CanHold (follow slash dir names))
    (slash : Bool) (dir : Location) (names : List String) :
    t.CanHold (t.walkNames .create follow slash dir names) := by
  fun_induction walkNames t .create follow slash dir names with
  | case1 =>
    rintro _ _ h
    cases h
    exact .inl rfl
  | case2 dir rest ih => exact ih
  | case3 dir rest ih => exact ih
  | case8 dir name rest hdot hdots hslash hshort here hget ih => exact ih
  | case10 dir name rest hdot hdots hslash hshort here content hget hlast =>
    intro l e h
    obtain ⟨hl, rfl⟩ := Resolved.found.inj h
    subst hl
    exact .inr ⟨content, rfl, by simp [here], hget⟩
  | case11 dir name rest hdot hdots hslash hshort here target hget hkeep => simp at hkeep
  | case12 => exact hfollow _ _ _
  | _ => exact nofun

lemma canHold_walk (t : FileTree) (links : Nat) (slash : Bool) (dir : Location)
    (names : List String) : t.CanHold (t.walk .create links slash dir names) := by
  induction links generalizing slash dir names with
  | zero => exact canHold_walkNames (fun _ _ _ => t.canHold_failed _) slash dir names
  | succ links ih => exact canHold_walkNames ih slash dir names

end FileTree

/-! ### One process -/

namespace Host

variable {h h' h'' : Host} {path : String} {content : Bytes}

/-- Nothing was taken away, and the process works where it did. -/
structure Grows (h h' : Host) : Prop where
  tree : h.tree.Grows h'.tree
  cwd : h'.cwd = h.cwd

lemma Grows.refl (h : Host) : h.Grows h := ⟨.refl h.tree, rfl⟩

lemma Grows.trans (hh : h.Grows h') (hh' : h'.Grows h'') : h.Grows h'' :=
  ⟨hh.tree.trans hh'.tree, hh'.cwd.trans hh.cwd⟩

lemma grows_put {l : Location} {e : Entry} (hput : ∀ e', h.tree.get? l = some e' → e'.Matches e)
    (hl : l ≠ []) : h.Grows { h with tree := h.tree.put l e } :=
  ⟨FileTree.grows_put hput hl, rfl⟩

/-- A path that leads somewhere is walked. -/
lemma walk_of_resolve {last : LastName} {slash : Bool} {r : Resolved}
    (hr : h.resolve last slash path = r) (hfailed : ∀ e, r ≠ .failed e) :
    h.tree.walk last FileTree.linkLimit slash (if Path.isAbsolute path then [] else h.cwd)
      (names path) = r := by
  unfold resolve at hr
  split at hr
  · exact absurd hr.symm (hfailed _)
  · split at hr
    · exact absurd hr.symm (hfailed _)
    · exact hr

/-- Something is put where a path leads to a missing name. -/
lemma grows_of_absent {last : LastName} {slash slash' : Bool} {parent : Location} {name : String}
    (habsent : h.resolve last slash path = .absent parent name slash') (e : Entry) :
    h.Grows { h with tree := h.tree.put (parent ++ [name]) e } := by
  have hwalk := walk_of_resolve habsent nofun
  have hmissing := FileTree.isHonest_walk _ _ _ _ _ _ parent name slash' hwalk
  refine grows_put (fun e' hget => ?_) (by simp)
  rw [hmissing] at hget
  cases hget

lemma pathExists_iff (h : Host) (path : String) : h.pathExists path = true ↔
    hasNul path = false ∧ ∃ l e, h.resolve .follow (Path.endsInSlash path) path = .found l e := by
  unfold pathExists find
  cases hasNul path with
  | true => simp [Except.isOk, Except.toBool]
  | false =>
    cases h.resolve .follow (Path.endsInSlash path) path <;> simp [Except.isOk, Except.toBool]

/-- A path that leads somewhere does so in a grown tree as well, walked from the same place. -/
theorem pathExists_of_grows (htree : h.tree.Grows h'.tree)
    (hstart : Path.isAbsolute path = true ∨ h'.cwd = h.cwd) (hthere : h.pathExists path = true) :
    h'.pathExists path = true := by
  rw [pathExists_iff] at hthere ⊢
  obtain ⟨hnul, l, e, hfound⟩ := hthere
  have hwalk := walk_of_resolve hfound nofun
  obtain ⟨e', hfound', -⟩ := FileTree.findsMore_walk htree _ _ _ _ _ _ _ hwalk
  refine ⟨hnul, l, e', ?_⟩
  have hsame : (if Path.isAbsolute path then [] else h'.cwd) =
      (if Path.isAbsolute path then [] else h.cwd) := by
    cases hstart with
    | inl habsolute => rw [if_pos habsolute, if_pos habsolute]
    | inr hcwd => rw [hcwd]
  unfold resolve at hfound ⊢
  split at hfound
  · cases hfound
  · split at hfound
    · cases hfound
    · rw [if_neg ‹_›, if_neg ‹_›, hsame]
      exact hfound'

lemma grows_write (hwrite : h.write path content = .ok h') : h.Grows h' := by
  unfold write at hwrite
  split at hwrite
  · cases hwrite
  · split at hwrite
    · cases hwrite
    · cases hwrite
    · rename_i l e hdirectory hfound
      cases hwrite
      have hstands := FileTree.canHold_walk _ _ _ _ _ _ _ (walk_of_resolve hfound nofun)
      obtain ⟨content', rfl, hl, hget⟩ := hstands.resolve_left hdirectory
      refine grows_put (fun e' hget' => ?_) hl
      obtain rfl : Entry.file content' = e' := Option.some.inj (hget.symm.trans hget')
      trivial
    · rename_i l name slash habsent
      cases hwrite
      exact grows_of_absent habsent _

lemma grows_makeDirectory (hmade : h.makeDirectory path = .ok h') : h.Grows h' := by
  unfold makeDirectory at hmade
  split at hmade
  · cases hmade
  · split at hmade
    · cases hmade
    · cases hmade
    · rename_i l name slash habsent
      cases hmade
      exact grows_of_absent habsent _

lemma grows_ensureDirectory (h : Host) (path : String) : h.Grows (h.ensureDirectory path).2 := by
  unfold ensureDirectory
  split
  · exact grows_makeDirectory ‹_›
  · exact .refl h

lemma grows_makeDirectoriesUpTo (h : Host) (path : String) (depth : Nat) :
    h.Grows (h.makeDirectoriesUpTo path depth).2 := by
  induction depth generalizing path with
  | zero => exact .refl h
  | succ depth ih =>
    rw [makeDirectoriesUpTo]
    split
    · exact .refl h
    · split
      · rename_i above _ _
        have habove := ih above
        split
        · rename_i h' heq
          rw [heq] at habove
          exact habove.trans (grows_ensureDirectory h' path)
        · rename_i heq
          rw [heq] at habove
          exact habove
      · exact grows_ensureDirectory h path

lemma grows_makeDirectories (h : Host) (path : String) : h.Grows (h.makeDirectories path).2 :=
  h.grows_makeDirectoriesUpTo path _

end Host

lemma PidFile.grows_create (path : String) (pid : Nat) (h : Host) :
    h.Grows (create path pid h).2 := by
  have habove := h.grows_makeDirectories ((Path.parent? path).getD "")
  delta create
  dsimp only
  split
  · rename_i heq
    rw [heq] at habove
    exact habove
  · rename_i h' heq
    rw [heq] at habove
    split
    · exact habove
    · exact habove.trans (Host.grows_write ‹_›)

lemma PidFile.grows_write (p : PidFile) (pid : Nat) (h : Host) : h.Grows (p.write pid h).host := by
  have hcreated := grows_create p.path pid h
  unfold write
  split
  all_goals
    rename_i heq
    rw [heq] at hcreated
    exact hcreated

/-- The new process settles once the PID file was written, and gives up if it could not be. -/
def Background.settle (pid : Nat) (d : PidFile.Done) : Takeover :=
  match d.result with
  | .error e => { guard := .error e, host := d.host, said := d.said }
  | .ok () => { guard := .ok (some d.file), host := d.host, said := d.said ++ [settled pid] }

lemma Background.host_settle (pid : Nat) (d : PidFile.Done) : (settle pid d).host = d.host := by
  unfold settle
  split <;> rfl

lemma Background.takeOver_some (path : String) (pid : Nat) (h : Host) :
    takeOver (some path) pid h =
      settle pid (PidFile.write { path := path } pid { h with cwd := [] }) := by
  delta takeOver settle
  rfl

/-- A process that goes to the background takes nothing away. -/
theorem Background.grows_takeOver (path : Option String) (pid : Nat) (h : Host) :
    ({ h with cwd := [] } : Host).Grows (takeOver path pid h).host := by
  cases path with
  | none => exact .refl _
  | some path =>
    rw [takeOver_some, host_settle]
    exact PidFile.grows_write { path := path } pid { h with cwd := [] }

end Overseer
