import Overseer.Proofs.System.Walks

/-!
# Directories above a path

Making the directories above a path adds directories to which texts above the path lead from then
on, whether it gets through or not, and changes nothing else.
-/

namespace Overseer

/-- The first path is the parent of the second, or is above its parent. -/
inductive Path.IsAbove : String → String → Prop where
  | parent {path above : String} (h : parent? path = some above) : IsAbove above path
  | higher {path above upper : String} (h : parent? path = some above)
      (hupper : IsAbove upper above) : IsAbove upper path

namespace FileTree

variable {t t' : FileTree} {links : Nat}
  {follow follow' : Bool → Location → List String → Resolved}

/-! ### What was made is found -/

/-- Where one walk finds a name missing at its end, another one in a tree with a directory there
finds the directory. -/
def Opens (t' : FileTree) (follow follow' : Bool → Location → List String → Resolved) : Prop :=
  ∀ slash dir names parent name slash', follow false dir names = .absent parent name slash' →
    t'.get? (parent ++ [name]) = some .directory →
    follow' slash dir names = .found (parent ++ [name]) .directory

/-- A walk that stops at links, and has come to a missing name, has not gone through a link at its
end. -/
lemma opens_walkNames (ht : t.Grows t') (hfollow : Opens t' follow follow') :
    Opens t' (t.walkNames .keep follow) (t'.walkNames .follow follow') := by
  intro slash dir names parent name slash' h hget'
  generalize hs : false = slash₀ at h
  fun_induction walkNames t .keep follow slash₀ dir names with
  | case2 dir rest ih =>
    rw [walkNames]
    exact ih h
  | case3 dir rest ih =>
    rw [walkNames]
    exact ih h
  | case6 dir name rest hdot hdots hslash hshort here hget hlast =>
    cases h
    obtain rfl : rest = [] := by simpa using hlast
    rw [walkNames_name hdot hdots (by simp) hshort, hget']
    rfl
  | case8 dir name rest hdot hdots hslash hshort here hget ih =>
    obtain ⟨e', he', hmatches⟩ := ht here _ hget
    rw [walkNames_name hdot hdots (by simp) hshort, he']
    cases e' with
    | directory => exact ih h
    | file | link => exact hmatches.elim
  | case12 dir name rest hdot hdots hslash hshort here target hget hkeep start names =>
    subst hs
    have hrest : rest.isEmpty = false := by simpa using hkeep
    obtain ⟨e', he', hmatches⟩ := ht here _ hget
    rw [walkNames_name hdot hdots (by simp) hshort, he']
    cases e' with
    | link target' =>
      obtain rfl : target = target' := hmatches
      simp only [hrest, Bool.false_and, Bool.or_false, Bool.false_eq_true, if_false] at h ⊢
      exact hfollow _ _ _ _ _ _ h hget'
    | directory | file => exact hmatches.elim
  | _ => cases h

lemma opens_walk (ht : t.Grows t') (links : Nat) :
    Opens t' (t.walk .keep links) (t'.walk .follow links) := by
  induction links with
  | zero => exact opens_walkNames ht nofun
  | succ links ih => exact opens_walkNames ht ih

/-- What one walk finds the other finds. -/
def FindsSame (follow follow' : Bool → Location → List String → Resolved) : Prop :=
  ∀ slash dir names l e, follow slash dir names = .found l e →
    follow' slash dir names = .found l e

/-- A walk that is to create refuses a slash where another one does not, and is the same but for
that. -/
lemma findsSame_walkNames (hfollow : FindsSame follow follow') :
    FindsSame (t.walkNames .create follow) (t.walkNames .follow follow') := by
  intro slash dir names l e h
  fun_induction walkNames t .create follow slash dir names with
  | case1 =>
    rw [walkNames]
    exact h
  | case2 dir rest ih =>
    rw [walkNames]
    exact ih h
  | case3 dir rest ih =>
    rw [walkNames]
    exact ih h
  | case8 dir name rest hdot hdots hslash hshort here hget ih =>
    rw [walkNames_name hdot hdots (by simp) hshort, hget]
    exact ih h
  | case10 dir name rest hdot hdots hslash hshort here content hget hlast =>
    rw [walkNames_name hdot hdots (by simp) hshort, hget]
    exact (if_neg hlast).trans h
  | case11 dir name rest hdot hdots hslash hshort here target hget hkeep => simp at hkeep
  | case12 dir name rest hdot hdots hslash hshort here target hget hkeep start names =>
    rw [walkNames_name hdot hdots (by simp) hshort, hget]
    simp only
    rw [if_neg (by simp)]
    exact hfollow _ _ _ _ _ h
  | _ => cases h

lemma findsSame_walk (t : FileTree) (links : Nat) :
    FindsSame (t.walk .create links) (t.walk .follow links) := by
  induction links with
  | zero => exact findsSame_walkNames nofun
  | succ links ih => exact findsSame_walkNames ih

end FileTree

namespace Host

variable {h h' h'' : Host} {path : String} {content : Bytes} {l : Location}
  {texts texts' : String → Prop}

lemma find_eq_ok {e : Entry} : h.find path = .ok (l, e) ↔
    hasNul path = false ∧ h.resolve .follow (Path.endsInSlash path) path = .found l e := by
  unfold find
  cases hasNul path with
  | true => simp
  | false => cases h.resolve .follow (Path.endsInSlash path) path <;> simp

/-- A path goes on to lead to a directory, as long as nothing is taken away. -/
lemma find_of_grows (hgrows : h.Grows h') (hfind : h.find path = .ok (l, .directory)) :
    h'.find path = .ok (l, .directory) := by
  obtain ⟨hnul, hfound⟩ := find_eq_ok.mp hfind
  obtain ⟨e', hfound', hmatches⟩ :=
    FileTree.findsMore_walk hgrows.tree _ _ _ _ _ _ _ (walk_of_resolve hfound nofun)
  rw [← resolve_eq_walk hfound nofun hgrows.cwd] at hfound'
  cases e' with
  | directory => exact find_eq_ok.mpr ⟨hnul, hfound'⟩
  | file | link => exact hmatches.elim

/-- What was written through a path is found through it. -/
lemma find_of_write (hwrite : h.write path content = .ok h') : ∃ l, l ≠ [] ∧
    h'.tree = h.tree.put l (.file content) ∧ h'.find path = .ok (l, .file content) := by
  have hnul : hasNul path = false := by
    cases hnul : hasNul path with
    | true =>
      rw [write, if_pos hnul] at hwrite
      cases hwrite
    | false => rfl
  obtain ⟨l, -, hl, rfl, hfound⟩ := write_eq_ok hwrite
  refine ⟨l, hl, rfl, find_eq_ok.mpr ⟨hnul, ?_⟩⟩
  rw [resolve_eq_walk hfound nofun rfl]
  exact FileTree.findsSame_walk _ _ _ _ _ _ _ (walk_of_resolve hfound nofun)

/-! ### New directories -/

/-- There is a new directory in the place, to which one of the texts leads. -/
structure Adds (h h' : Host) (texts : String → Prop) (l : Location) : Prop where
  before : h.tree.get? l = none
  after : h'.tree.get? l = some .directory
  leads : ∃ path, texts path ∧ h'.find path = .ok (l, .directory)

/-- Nothing changes but that there are new directories to which some of the texts lead. -/
structure Builds (h h' : Host) (texts : String → Prop) : Prop where
  grows : h.Grows h'
  rest : ∀ l, h'.tree.get? l = h.tree.get? l ∨ h.Adds h' texts l

lemma Adds.of_grows (hadds : h.Adds h' texts l) (hgrows : h'.Grows h'')
    (hsame : h''.tree.get? l = h'.tree.get? l) : h.Adds h'' texts l := by
  obtain ⟨hbefore, hafter, path, hpath, hleads⟩ := hadds
  exact ⟨hbefore, hsame.trans hafter, path, hpath, find_of_grows hgrows hleads⟩

lemma Builds.refl (h : Host) (texts : String → Prop) : h.Builds h texts :=
  ⟨.refl h, fun _ => .inl rfl⟩

lemma Builds.mono (hbuilds : h.Builds h' texts) (hsub : ∀ path, texts path → texts' path) :
    h.Builds h' texts' := by
  refine ⟨hbuilds.grows, fun l => ?_⟩
  rcases hbuilds.rest l with hsame | ⟨hbefore, hafter, path, hpath, hleads⟩
  · exact .inl hsame
  · exact .inr ⟨hbefore, hafter, path, hsub path hpath, hleads⟩

lemma Builds.trans (hbuilds : h.Builds h' texts) (hbuilds' : h'.Builds h'' texts) :
    h.Builds h'' texts := by
  refine ⟨hbuilds.grows.trans hbuilds'.grows, fun l => ?_⟩
  rcases hbuilds'.rest l with hsame' | ⟨hbefore', hafter', hleads'⟩
  · rcases hbuilds.rest l with hsame | hadds
    · exact .inl (hsame'.trans hsame)
    · exact .inr (hadds.of_grows hbuilds'.grows hsame')
  · rcases hbuilds.rest l with hsame | ⟨-, hafter, -⟩
    · exact .inr ⟨hsame.symm.trans hbefore', hafter', hleads'⟩
    · rw [hafter] at hbefore'
      cases hbefore'

lemma builds_makeDirectory (hmade : h.makeDirectory path = .ok h') : h.Builds h' (· = path) := by
  have hgrows := grows_makeDirectory hmade
  unfold makeDirectory at hmade
  split at hmade
  · cases hmade
  · rename_i hnul
    split at hmade
    · cases hmade
    · cases hmade
    · rename_i parent name slash habsent
      cases hmade
      have hwalk := walk_of_resolve habsent nofun
      have hput := FileTree.get?_put_self (l := parent ++ [name]) h.tree .directory (by simp)
      refine ⟨hgrows, fun l => ?_⟩
      by_cases hl : l = parent ++ [name]
      · subst hl
        refine .inr ⟨FileTree.isHonest_walk _ _ _ _ _ _ _ _ _ hwalk, hput, path, rfl, ?_⟩
        refine find_eq_ok.mpr ⟨Bool.eq_false_iff.mpr hnul, ?_⟩
        rw [resolve_eq_walk habsent nofun hgrows.cwd]
        exact FileTree.opens_walk hgrows.tree _ _ _ _ _ _ _ hwalk hput
      · exact .inl (FileTree.get?_put_of_ne _ _ hl)

lemma builds_ensureDirectory (h : Host) (path : String) :
    h.Builds (h.ensureDirectory path).2 (· = path) := by
  unfold ensureDirectory
  split
  · exact builds_makeDirectory ‹_›
  · exact .refl h _

/-- Whether all of them could be made or not, the new directories are those of the path and of paths
above it. -/
lemma builds_makeDirectoriesUpTo (h : Host) (path : String) (depth : Nat) :
    h.Builds (h.makeDirectoriesUpTo path depth).2 fun q => q = path ∨ Path.IsAbove q path := by
  induction depth generalizing path with
  | zero => exact .refl h _
  | succ depth ih =>
    have hlast (h : Host) : h.Builds (h.ensureDirectory path).2
        fun q => q = path ∨ Path.IsAbove q path :=
      (builds_ensureDirectory h path).mono fun _ => .inl
    rw [makeDirectoriesUpTo]
    split
    · exact .refl h _
    · split
      · rename_i above _ habove
        have hupper : h.Builds (h.makeDirectoriesUpTo above depth).2
            fun q => q = path ∨ Path.IsAbove q path := by
          refine (ih above).mono ?_
          rintro q (rfl | hq)
          · exact .inr (.parent habove)
          · exact .inr (.higher habove hq)
        split
        · rename_i h' heq
          rw [heq] at hupper
          exact hupper.trans (hlast h')
        · rename_i heq
          rw [heq] at hupper
          exact hupper
      · exact hlast h

lemma builds_makeDirectories (h : Host) (path : String) :
    h.Builds (h.makeDirectories path).2 fun q => q = path ∨ Path.IsAbove q path :=
  h.builds_makeDirectoriesUpTo path _

end Host

end Overseer
