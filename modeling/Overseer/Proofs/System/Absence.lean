import Overseer.Proofs.System.Ancestors

/-!
# Paths that lead to nothing

What was taken away through a path is not found through it any more, and a path that leads to
nothing goes on to do so until something is put in a place on which it depends. Taking away makes
no path lead anywhere.
-/

namespace Overseer

/-- A name on the way is missing. -/
def Resolved.IsNothing : Resolved → Prop
  | .absent .. => True
  | .failed e => e = .noEntry
  | .found .. => False

namespace FileTree

variable {t t' : FileTree} {slash : Bool} {links : Nat} {dir l : Location} {name : String}
  {rest : List String} {follow follow' : Bool → Location → List String → Resolved}

/-- A walk comes to nothing where a name is missing. -/
lemma isNothing_of_missing (hdot : name ≠ ".") (hdots : name ≠ "..")
    (hshort : ¬nameLimit < name.utf8ByteSize) (hget : t.get? (dir ++ [name]) = none) :
    (t.walkNames .follow follow slash dir (name :: rest)).IsNothing := by
  rw [walkNames_name hdot hdots (by simp) hshort, hget]
  cases rest with
  | nil => trivial
  | cons => rfl

/-! ### Taking away -/

lemma isNothing_of_erased (hdot : name ≠ ".") (hdots : name ≠ "..")
    (hshort : ¬nameLimit < name.utf8ByteSize) (hl : dir ++ [name] = l) :
    ((t.erase l).walkNames .follow follow slash dir (name :: rest)).IsNothing := by
  subst hl
  exact isNothing_of_missing hdot hdots hshort (get?_erase_self t (by simp))

/-- Where one walk has found a file or a link in the place, the other one comes to nothing. -/
def Loses (l : Location) (follow follow' : Bool → Location → List String → Resolved) : Prop :=
  ∀ dir names e, follow false dir names = .found l e → e.isDirectory = false →
    (follow' false dir names).IsNothing

lemma loses_walkNames (hfollow : Loses l follow follow') :
    Loses l (t.walkNames .keep follow) ((t.erase l).walkNames .follow follow') := by
  intro dir names e h he
  generalize hs : false = slash at h
  fun_induction walkNames t .keep follow slash dir names with
  | case1 =>
    cases h
    cases he
  | case2 dir rest ih =>
    rw [walkNames]
    exact ih h
  | case3 dir rest ih =>
    rw [walkNames]
    exact ih h
  | case8 dir name rest hdot hdots hslash hshort here hget ih =>
    subst hs
    by_cases hhere : here = l
    · exact isNothing_of_erased hdot hdots hshort hhere
    · rw [walkNames_name hdot hdots (by simp) hshort, get?_erase_of_ne t hhere, hget]
      exact ih h
  | case10 dir name rest hdot hdots hslash hshort here content hget hlast =>
    exact isNothing_of_erased hdot hdots hshort (Resolved.found.inj h).1
  | case11 dir name rest hdot hdots hslash hshort here target hget hkeep =>
    exact isNothing_of_erased hdot hdots hshort (Resolved.found.inj h).1
  | case12 dir name rest hdot hdots hslash hshort here target hget hkeep start names =>
    subst hs
    have hrest : rest.isEmpty = false := by simpa using hkeep
    by_cases hhere : here = l
    · exact isNothing_of_erased hdot hdots hshort hhere
    · rw [walkNames_name hdot hdots (by simp) hshort, get?_erase_of_ne t hhere, hget]
      simp only [hrest, Bool.false_and, Bool.or_false, Bool.false_eq_true, if_false] at h ⊢
      exact hfollow _ _ _ h he
  | _ => cases h

lemma loses_walk (t : FileTree) (l : Location) (links : Nat) :
    Loses l (t.walk .keep links) ((t.erase l).walk .follow links) := by
  induction links with
  | zero => exact loses_walkNames nofun
  | succ links ih => exact loses_walkNames ih

/-- Where one walk comes to nothing, the other does. -/
def Misses (follow follow' : Bool → Location → List String → Resolved) : Prop :=
  ∀ slash dir names, (follow false dir names).IsNothing → (follow' slash dir names).IsNothing

/-- A walk that stops at links, and has come to nothing, has not gone through a link at its end. -/
lemma misses_walkNames (hfollow : Misses follow follow') :
    Misses (t.walkNames .keep follow) (t.walkNames .follow follow') := by
  intro slash dir names h
  generalize hs : false = slash₀ at h
  fun_induction walkNames t .keep follow slash₀ dir names with
  | case2 dir rest ih =>
    rw [walkNames]
    exact ih h
  | case3 dir rest ih =>
    rw [walkNames]
    exact ih h
  | case6 dir name rest hdot hdots hslash hshort here hget hlast =>
    exact isNothing_of_missing hdot hdots hshort hget
  | case7 dir name rest hdot hdots hslash hshort here hget hlast =>
    exact isNothing_of_missing hdot hdots hshort hget
  | case8 dir name rest hdot hdots hslash hshort here hget ih =>
    rw [walkNames_name hdot hdots (by simp) hshort, hget]
    exact ih h
  | case12 dir name rest hdot hdots hslash hshort here target hget hkeep start names =>
    subst hs
    have hrest : rest.isEmpty = false := by simpa using hkeep
    rw [walkNames_name hdot hdots (by simp) hshort, hget]
    simp only [hrest, Bool.false_and, Bool.or_false, Bool.false_eq_true, if_false] at h ⊢
    exact hfollow _ _ _ h
  | _ => cases h

lemma misses_walk (t : FileTree) (links : Nat) :
    Misses (t.walk .keep links) (t.walk .follow links) := by
  induction links with
  | zero => exact misses_walkNames fun _ _ _ h => nomatch h
  | succ links ih => exact misses_walkNames ih

/-! ### Staying away -/

/-- There is something in the place that was not there before. -/
def Gains (t t' : FileTree) (l : Location) : Prop :=
  ∃ e, t'.get? l = some e ∧ t.get? l ≠ some e

lemma get?_of_not_gains (h : ¬ t.Gains t' l) : t'.get? l = none ∨ t'.get? l = t.get? l := by
  cases hget : t'.get? l with
  | none => exact .inl rfl
  | some e =>
    by_contra hne
    exact h ⟨e, hget, fun hsame => hne (.inr hsame.symm)⟩

/-- What is put in a place that was gained leaves one alone that was not. -/
lemma get?_put_of_gains {l' : Location} (hl : t.Gains t' l) (hl' : ¬ t.Gains t' l') (e : Entry) :
    (t.put l e).get? l' = t.get? l' := by
  refine get?_put_of_ne t e ?_
  rintro rfl
  exact hl' hl

lemma not_gains_self (t : FileTree) (l : Location) : ¬ t.Gains t l :=
  fun ⟨_, hget, hne⟩ => hne hget

lemma eq_of_gains_put {e : Entry} {l' : Location} (h : t.Gains (t.put l e) l') : l' = l := by
  obtain ⟨e', hget, hne⟩ := h
  by_contra hother
  exact hne ((get?_put_of_ne t e hother).symm.trans hget)

/-- A walk ends at a file on its way, whether it finds it or not. -/
lemma not_isNothing_of_file {content : Bytes} (hdot : name ≠ ".") (hdots : name ≠ "..")
    (hshort : ¬nameLimit < name.utf8ByteSize)
    (hget : t.get? (dir ++ [name]) = some (.file content)) :
    ¬ (t.walkNames .follow follow slash dir (name :: rest)).IsNothing := by
  rw [walkNames_name hdot hdots (by simp) hshort, hget]
  dsimp only
  split
  · exact nofun
  · exact id

/-- A walk that comes to nothing in the first tree, also with a file put in any place that the
second one has gained, comes to nothing in the second one. -/
def StaysAway (t t' : FileTree)
    (follow : FileTree → Bool → Location → List String → Resolved) : Prop :=
  ∀ slash dir names, (follow t slash dir names).IsNothing →
    (∀ l, t.Gains t' l → (follow (t.put l (.file [])) slash dir names).IsNothing) →
    (follow t' slash dir names).IsNothing

/-- A file put in a place on the way would end the walk there, so no such place was gained. -/
lemma not_gains_of_isNothing {follow : FileTree → Bool → Location → List String → Resolved}
    (hdot : name ≠ ".") (hdots : name ≠ "..") (hshort : ¬nameLimit < name.utf8ByteSize)
    (hgains : ∀ l, t.Gains t' l → ((t.put l (.file [])).walkNames .follow
      (follow (t.put l (.file []))) slash dir (name :: rest)).IsNothing) :
    ¬ t.Gains t' (dir ++ [name]) := fun hgain =>
  not_isNothing_of_file hdot hdots hshort (get?_put_self t _ (by simp)) (hgains _ hgain)

lemma staysAway_walkNames {follow : FileTree → Bool → Location → List String → Resolved}
    (hfollow : StaysAway t t' follow) :
    StaysAway t t' fun t => t.walkNames .follow (follow t) := by
  intro slash dir names h hgains
  dsimp only at h hgains ⊢
  fun_induction walkNames t .follow (follow t) slash dir names with
  | case1 => cases h
  | case2 dir rest ih =>
    simp only [walkNames] at hgains ⊢
    exact ih h hgains
  | case3 dir rest ih =>
    simp only [walkNames] at hgains ⊢
    exact ih h hgains
  | case6 dir name rest hdot hdots hslash hshort here hget hlast =>
    have hsame := get?_of_not_gains (not_gains_of_isNothing hdot hdots hshort hgains)
    exact isNothing_of_missing hdot hdots hshort (hsame.elim id (·.trans hget))
  | case7 dir name rest hdot hdots hslash hshort here hget hlast =>
    have hsame := get?_of_not_gains (not_gains_of_isNothing hdot hdots hshort hgains)
    exact isNothing_of_missing hdot hdots hshort (hsame.elim id (·.trans hget))
  | case8 dir name rest hdot hdots hslash hshort here hget ih =>
    have hnot := not_gains_of_isNothing hdot hdots hshort hgains
    rcases get?_of_not_gains hnot with hnone | hsame
    · exact isNothing_of_missing hdot hdots hshort hnone
    · rw [walkNames_name hdot hdots (by simp) hshort, hsame, hget]
      refine ih h fun l hl => ?_
      have hl' := hgains l hl
      rw [walkNames_name hdot hdots (by simp) hshort, get?_put_of_gains hl hnot, hget] at hl'
      exact hl'
  | case11 dir name rest hdot hdots hslash hshort here target hget hkeep => cases h
  | case12 dir name rest hdot hdots hslash hshort here target hget hkeep start names =>
    have hnot := not_gains_of_isNothing hdot hdots hshort hgains
    rcases get?_of_not_gains hnot with hnone | hsame
    · exact isNothing_of_missing hdot hdots hshort hnone
    · rw [walkNames_name hdot hdots (by simp) hshort, hsame, hget]
      simp only
      rw [if_neg hkeep]
      refine hfollow _ _ _ h fun l hl => ?_
      have hl' := hgains l hl
      rw [walkNames_name hdot hdots (by simp) hshort, get?_put_of_gains hl hnot, hget] at hl'
      simp only at hl'
      rw [if_neg hkeep] at hl'
      exact hl'
  | _ => cases h

lemma staysAway_walk (t t' : FileTree) (links : Nat) :
    StaysAway t t' fun t => t.walk .follow links := by
  induction links with
  | zero => exact staysAway_walkNames fun _ _ _ h => nomatch h
  | succ links ih => exact staysAway_walkNames ih

end FileTree

/-! ### One process -/

namespace Host

variable {h h' : Host} {path : String}

/-- A path depends on a place if it may lead elsewhere once something else is put there. -/
def DependsOn (h : Host) (path : String) (l : Location) : Prop :=
  ∃ e, ({ h with tree := h.tree.put l e } : Host).find path ≠ h.find path

lemma find_eq_noEntry : h.find path = .error (.os .noEntry) ↔
    hasNul path = false ∧ (h.resolve .follow (Path.endsInSlash path) path).IsNothing := by
  unfold find
  cases hasNul path with
  | true => simp
  | false =>
    cases h.resolve .follow (Path.endsInSlash path) path <;> simp [Resolved.IsNothing]

/-- A path that may be walked leads to nothing exactly if the walk comes to nothing. -/
lemma isNothing_resolve (h : Host) (last : LastName) (slash : Bool) (path : String) :
    (h.resolve last slash path).IsNothing ↔ path.isEmpty = true ∨
      ¬ FileTree.pathLimit < path.utf8ByteSize ∧ (h.tree.walk last FileTree.linkLimit slash
        (if Path.isAbsolute path then [] else h.cwd) (names path)).IsNothing := by
  unfold resolve
  split
  · simp [Resolved.IsNothing, *]
  · split
    · simp [Resolved.IsNothing, *]
    · simp [*]

/-- Nothing is found where a file or a link was taken away. -/
theorem find_of_unlink (hunlink : h.unlink path = .ok h') :
    h'.find path = .error (.os .noEntry) := by
  obtain ⟨l, hnamed, rfl⟩ := unlink_eq_ok.mp hunlink
  obtain ⟨hnul, hlast, e, hfound, he⟩ := named?_eq_some.mp hnamed
  have hcwd : ({ h with tree := h.tree.erase l } : Host).cwd = h.cwd := rfl
  refine find_eq_noEntry.mpr ⟨hnul, ?_⟩
  rw [endsInSlash_of_lastPiece hlast, resolve_eq_walk hfound nofun hcwd]
  exact FileTree.loses_walk _ _ _ _ _ _ (walk_of_resolve hfound nofun) he

/-- Nothing is found where there was nothing to take away. -/
theorem find_of_unlink_noEntry (hunlink : h.unlink path = .error (.os .noEntry)) :
    h.find path = .error (.os .noEntry) := by
  unfold unlink at hunlink
  split at hunlink
  · cases hunlink
  · rename_i hnul
    have hnothing : (h.resolve .keep false path).IsNothing := by
      cases hresolve : h.resolve .keep false path with
      | failed e =>
        rw [hresolve] at hunlink
        cases hunlink
        rfl
      | absent => trivial
      | found l e =>
        rw [hresolve] at hunlink
        cases e <;> cases hlast : lastPiece path <;> simp [hlast] at hunlink
    refine find_eq_noEntry.mpr ⟨Bool.eq_false_iff.mpr hnul, ?_⟩
    rw [isNothing_resolve] at hnothing ⊢
    exact hnothing.imp id fun ⟨hshort, hwalk⟩ =>
      ⟨hshort, FileTree.misses_walk _ _ _ _ _ hwalk⟩

/-- A path that leads to nothing goes on to do so until something is put in a place on which it
depends. -/
theorem find_of_spared (hfind : h.find path = .error (.os .noEntry)) (hcwd : h'.cwd = h.cwd)
    (hspared : ∀ l, h.tree.Gains h'.tree l → ¬ h.DependsOn path l) :
    h'.find path = .error (.os .noEntry) := by
  obtain ⟨hnul, hnothing⟩ := find_eq_noEntry.mp hfind
  refine find_eq_noEntry.mpr ⟨hnul, ?_⟩
  by_cases hempty : path.isEmpty = true
  · exact (isNothing_resolve ..).mpr (.inl hempty)
  · have hwalk {h : Host} (hnothing : (h.resolve .follow (Path.endsInSlash path) path).IsNothing) :=
      ((isNothing_resolve ..).mp hnothing).resolve_left hempty
    obtain ⟨hshort, hnothing⟩ := hwalk hnothing
    refine (isNothing_resolve ..).mpr (.inr ⟨hshort, ?_⟩)
    rw [hcwd]
    refine FileTree.staysAway_walk _ _ _ _ _ _ hnothing fun l hl => ?_
    have hsame : ({ h with tree := h.tree.put l (.file []) } : Host).find path = h.find path := by
      by_contra hne
      exact hspared l hl ⟨_, hne⟩
    exact (hwalk (find_eq_noEntry.mp (hsame.trans hfind)).2).2

/-- A path comes to lead somewhere only if something is put somewhere. -/
theorem gains_of_pathExists (hnot : h.pathExists path = false) (hthere : h'.pathExists path = true)
    (hcwd : h'.cwd = h.cwd) : ∃ l, h.tree.Gains h'.tree l := by
  by_contra hnone
  have hgrows : h'.tree.Grows h.tree := by
    intro l e hget
    by_contra hne
    exact hnone ⟨l, e, hget, fun hsame => hne ⟨e, hsame, .refl e⟩⟩
  rw [pathExists_of_grows hgrows (.inr hcwd.symm) hthere] at hnot
  cases hnot

end Host

end Overseer
