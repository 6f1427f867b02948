import Overseer.Proofs.System.Growth

/-!
# Where files are written, found and taken away

Three walks end at a file: the one that writes it, the one that reads it and the one that takes it
away, which stops at a link where the others go on. What was written is found by the walk that
wrote it, and where the last of the three finds a file, the others find the same.
-/

namespace Overseer

/-- Whether a file or a link stands there. -/
def Entry.isDirectory : Entry → Bool
  | directory => true
  | file _ | link _ => false

namespace FileTree

variable {t t' : FileTree} {last last' : LastName} {slash : Bool} {links : Nat}
  {dir l : Location} {names : List String} {content : Bytes}
  {follow follow' : Bool → Location → List String → Resolved}

/-! ### What was taken away -/

lemma get?_erase_self (t : FileTree) (hl : l ≠ []) : (t.erase l).get? l = none := by
  rw [get?, if_neg hl, erase]
  exact lookup_filter_self t.entries l

lemma get?_erase_of_ne (t : FileTree) {l' : Location} (h : l' ≠ l) :
    (t.erase l).get? l' = t.get? l' := by
  unfold get? erase
  split
  · rfl
  · exact lookup_filter_ne t.entries h

/-! ### What a walk finds stands there -/

/-- What a walk finds, directories left out, stands in the tree. -/
def Stands (t : FileTree) (r : Resolved) : Prop :=
  ∀ l e, r = .found l e → e.isDirectory = false → l ≠ [] ∧ t.get? l = some e

lemma stands_failed (t : FileTree) (error : Errno) : t.Stands (.failed error) :=
  fun _ _ h => nomatch h

lemma stands_walkNames (hfollow : ∀ slash dir names, t.Stands (follow slash dir names))
    (last : LastName) (slash : Bool) (dir : Location) (names : List String) :
    t.Stands (t.walkNames last follow slash dir names) := by
  fun_induction walkNames t last follow slash dir names with
  | case1 =>
    rintro _ _ h he
    cases h
    cases he
  | case2 dir rest ih => exact ih
  | case3 dir rest ih => exact ih
  | case8 dir name rest hdot hdots hslash hshort here hget ih => exact ih
  | case10 dir name rest hdot hdots hslash hshort here content hget hlast =>
    rintro _ _ h -
    cases h
    exact ⟨by simp [here], hget⟩
  | case11 dir name rest hdot hdots hslash hshort here target hget hkeep =>
    rintro _ _ h -
    cases h
    exact ⟨by simp [here], hget⟩
  | case12 => exact hfollow _ _ _
  | _ =>
    intro _ _ h
    cases h

lemma stands_walk (t : FileTree) (last : LastName) (links : Nat) (slash : Bool) (dir : Location)
    (names : List String) : t.Stands (t.walk last links slash dir names) := by
  induction links generalizing slash dir names with
  | zero => exact stands_walkNames (fun _ _ _ => t.stands_failed _) last slash dir names
  | succ links ih => exact stands_walkNames ih last slash dir names

/-! ### What was written is found -/

/-- Where one walk to create finds a name missing, another one in a tree with a file there finds the
file. -/
def Fills (t' : FileTree) (content : Bytes)
    (follow follow' : Bool → Location → List String → Resolved) : Prop :=
  ∀ slash dir names parent name slash', follow slash dir names = .absent parent name slash' →
    t'.get? (parent ++ [name]) = some (.file content) →
    follow' slash dir names = .found (parent ++ [name]) (.file content)

lemma fills_walkNames (ht : t.Grows t') (hfollow : Fills t' content follow follow') :
    Fills t' content (t.walkNames .create follow) (t'.walkNames .create follow') := by
  intro slash dir names parent name slash' h hget'
  -- along the walk in the smaller tree, which goes on as long as something is there
  fun_induction walkNames t .create follow slash dir names with
  | case2 dir rest ih =>
    rw [walkNames]
    exact ih h
  | case3 dir rest ih =>
    rw [walkNames]
    exact ih h
  | case6 dir name rest hdot hdots hslash hshort here hget hlast =>
    cases h
    have hend : rest = [] ∧ slash = false := by
      obtain rfl : rest = [] := by simpa using hlast
      simpa using hslash
    obtain ⟨rfl, rfl⟩ := hend
    rw [walkNames_name hdot hdots hslash hshort, hget']
    rfl
  | case8 dir name rest hdot hdots hslash hshort here hget ih =>
    obtain ⟨e', he', hmatches⟩ := ht here _ hget
    rw [walkNames_name hdot hdots hslash hshort, he']
    cases e' with
    | directory => exact ih h
    | file | link => exact hmatches.elim
  | case12 dir name rest hdot hdots hslash hshort here target hget hkeep start names =>
    obtain ⟨e', he', hmatches⟩ := ht here _ hget
    rw [walkNames_name hdot hdots hslash hshort, he']
    cases e' with
    | link target' =>
      obtain rfl : target = target' := hmatches
      simp only
      rw [if_neg hkeep]
      exact hfollow _ _ _ _ _ _ h hget'
    | directory | file => exact hmatches.elim
  | _ => cases h

lemma fills_walk (ht : t.Grows t') (content : Bytes) (links : Nat) :
    Fills t' content (t.walk .create links) (t'.walk .create links) := by
  induction links with
  | zero => exact fills_walkNames ht fun _ _ _ _ _ _ h => nomatch h
  | succ links ih => exact fills_walkNames ht ih

/-! ### Walks that differ at the last name -/

/-- Where one walk finds a file, the other finds the same. -/
def FindsFile (follow follow' : Bool → Location → List String → Resolved) : Prop :=
  ∀ dir names l content, follow false dir names = .found l (.file content) →
    follow' false dir names = .found l (.file content)

/-- A walk that stops at links, and has found a file, has not gone through a link at its end. -/
lemma findsFile_walkNames (last : LastName) (hfollow : FindsFile follow follow') :
    FindsFile (t.walkNames .keep follow) (t.walkNames last follow') := by
  intro dir names l content h
  generalize hs : false = slash at h
  fun_induction walkNames t .keep follow slash dir names with
  | case2 dir rest ih =>
    rw [walkNames]
    exact ih h
  | case3 dir rest ih =>
    rw [walkNames]
    exact ih h
  | case8 dir name rest hdot hdots hslash hshort here hget ih =>
    subst hs
    rw [walkNames_name hdot hdots (by simp) hshort, hget]
    exact ih h
  | case10 dir name rest hdot hdots hslash hshort here content hget hlast =>
    subst hs
    obtain ⟨hl, hcontent⟩ := Resolved.found.inj h
    rw [walkNames_name hdot hdots (by simp) hshort, hget, ← hl, ← hcontent]
    exact if_neg hlast
  | case11 => cases (Resolved.found.inj h).2
  | case12 dir name rest hdot hdots hslash hshort here target hget hkeep start names =>
    subst hs
    have hrest : rest.isEmpty = false := by simpa using hkeep
    rw [walkNames_name hdot hdots (by simp) hshort, hget]
    simp only [hrest, Bool.false_and, Bool.or_false, Bool.false_eq_true, if_false] at h ⊢
    exact hfollow _ _ _ _ h
  | _ => cases h

lemma findsFile_walk (t : FileTree) (last : LastName) (links : Nat) :
    FindsFile (t.walk .keep links) (t.walk last links) := by
  induction links with
  | zero => exact findsFile_walkNames last nofun
  | succ links ih => exact findsFile_walkNames last ih

end FileTree

/-! ### One process -/

namespace Host

variable {h h' : Host} {path : String} {content : Bytes} {l : Location}

/-- The place in which a write through a path puts its bytes. -/
def destination? (h : Host) (path : String) : Option Location :=
  match h.resolve .create (Path.endsInSlash path) path with
  | .found l _ => some l
  | .absent l name _ => some (l ++ [name])
  | .failed _ => none

/-- The place of the file or link that a path names, which is what can be taken away through it. -/
def named? (h : Host) (path : String) : Option Location :=
  if hasNul path then none
  else
    match h.resolve .keep false path, lastPiece path with
    | .found _ .directory, _ => none
    | .found l _, .name => some l
    | _, _ => none

/-- What can be taken away is what the path names. -/
lemma unlink_eq_ok : h.unlink path = .ok h' ↔
    ∃ l, h.named? path = some l ∧ h' = { h with tree := h.tree.erase l } := by
  unfold unlink named?
  cases hasNul path with
  | true => simp
  | false =>
    cases h.resolve .keep false path with
    | failed e => simp
    | absent => cases lastPiece path <;> simp
    | found l e => cases e <;> cases lastPiece path <;> simp [eq_comm]

lemma named?_eq_some : h.named? path = some l ↔ hasNul path = false ∧ lastPiece path = .name ∧
    ∃ e, h.resolve .keep false path = .found l e ∧ e.isDirectory = false := by
  unfold named?
  cases hasNul path with
  | true => simp
  | false =>
    cases h.resolve .keep false path with
    | failed e => simp
    | absent => simp
    | found l' e => cases e <;> cases lastPiece path <;> simp [Entry.isDirectory]

/-- What a path names stands there and is no directory. -/
lemma stands_of_named? (hnamed : h.named? path = some l) :
    l ≠ [] ∧ ∃ e, h.tree.get? l = some e ∧ e.isDirectory = false := by
  obtain ⟨-, -, e, hfound, he⟩ := named?_eq_some.mp hnamed
  obtain ⟨hl, hget⟩ :=
    FileTree.stands_walk _ _ _ _ _ _ l e (walk_of_resolve hfound nofun) he
  exact ⟨hl, e, hget, he⟩

/-- A path that leads somewhere is walked in every tree, from the same place. -/
lemma resolve_eq_walk {last last' : LastName} {slash slash' : Bool} {r : Resolved}
    (hr : h.resolve last slash path = r) (hfailed : ∀ e, r ≠ .failed e) (hcwd : h'.cwd = h.cwd) :
    h'.resolve last' slash' path = h'.tree.walk last' FileTree.linkLimit slash'
      (if Path.isAbsolute path then [] else h.cwd) (names path) := by
  unfold resolve at hr ⊢
  split at hr
  · exact absurd hr.symm (hfailed _)
  · split at hr
    · exact absurd hr.symm (hfailed _)
    · rw [if_neg ‹_›, if_neg ‹_›, hcwd]

/-- A path goes on to name what it names, as long as nothing is taken away. -/
lemma named?_of_grows (hgrows : h.Grows h') (hnamed : h.named? path = some l) :
    h'.named? path = some l := by
  obtain ⟨hnul, hlast, e, hfound, he⟩ := named?_eq_some.mp hnamed
  obtain ⟨e', hfound', hmatches⟩ :=
    FileTree.findsMore_walk hgrows.tree _ _ _ _ _ _ _ (walk_of_resolve hfound nofun)
  refine named?_eq_some.mpr ⟨hnul, hlast, e', ?_, ?_⟩
  · rw [resolve_eq_walk hfound nofun hgrows.cwd]
    exact hfound'
  · cases e with
    | directory => cases he
    | file => cases e' <;> first | rfl | exact hmatches.elim
    | link => cases e' <;> first | rfl | exact hmatches.elim

lemma endsInSlash_of_lastPiece (hlast : lastPiece path = .name) :
    Path.endsInSlash path = false := by
  unfold lastPiece at hlast
  split at hlast
  · cases hlast
  · cases hlast
  · cases hlast
  · split at hlast
    · cases hlast
    · exact Bool.not_eq_true _ ▸ ‹_›

/-- Where a path names a file, a write through it puts its bytes there. -/
lemma resolve_create_of_named? (hnamed : h.named? path = some l)
    (hfile : h.tree.get? l = some (.file content)) :
    h.resolve .create (Path.endsInSlash path) path = .found l (.file content) := by
  obtain ⟨-, hlast, e, hfound, he⟩ := named?_eq_some.mp hnamed
  have hwalk := walk_of_resolve hfound nofun
  obtain ⟨-, hget⟩ := FileTree.stands_walk _ _ _ _ _ _ l e hwalk he
  obtain rfl : e = .file content := Option.some.inj (hget.symm.trans hfile)
  rw [endsInSlash_of_lastPiece hlast, resolve_eq_walk hfound nofun rfl]
  exact FileTree.findsFile_walk _ _ _ _ _ _ _ hwalk

/-- What was written through a path stands where a write through it puts its bytes. -/
lemma write_eq_ok (hwrite : h.write path content = .ok h') : ∃ l, h.destination? path = some l ∧
    l ≠ [] ∧ h' = { h with tree := h.tree.put l (.file content) } ∧
      h'.resolve .create (Path.endsInSlash path) path = .found l (.file content) := by
  have hgrows := grows_write hwrite
  unfold write at hwrite
  split at hwrite
  · cases hwrite
  · split at hwrite
    · cases hwrite
    · cases hwrite
    · rename_i l e hdirectory hfound
      cases hwrite
      have hwalk := walk_of_resolve hfound nofun
      obtain ⟨content', rfl, hl, -⟩ :=
        (FileTree.canHold_walk _ _ _ _ _ _ _ hwalk).resolve_left hdirectory
      refine ⟨l, by rw [destination?, hfound], hl, rfl, ?_⟩
      obtain ⟨e', hfound', hmatches⟩ := FileTree.findsMore_walk hgrows.tree _ _ _ _ _ _ _ hwalk
      have he' : e' = .file content := by
        rcases FileTree.canHold_walk _ _ _ _ _ _ _ hfound' with rfl | ⟨_, rfl, -, hget⟩
        · exact hmatches.elim
        · exact Option.some.inj (hget.symm.trans (FileTree.get?_put_self _ _ hl))
      rw [resolve_eq_walk hfound nofun hgrows.cwd, hfound', he']
    · rename_i parent name slash habsent
      cases hwrite
      have hl : parent ++ [name] ≠ [] := by simp
      refine ⟨parent ++ [name], by rw [destination?, habsent], hl, rfl, ?_⟩
      rw [resolve_eq_walk habsent nofun hgrows.cwd]
      exact FileTree.fills_walk hgrows.tree content _ _ _ _ _ _ _
        (walk_of_resolve habsent nofun) (FileTree.get?_put_self _ _ hl)

end Host

end Overseer
