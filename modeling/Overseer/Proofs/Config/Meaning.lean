import Overseer.Proofs.Config.Lists

/-!
# The meaning of a document

An object means a configuration by the values under the known names: each is given once at most,
and left out it has its default. A list means what the object means that gives its values to the
known names in their order.
-/

namespace Overseer.Config

open Json

/-- The values under a name. -/
def valuesOf (name : String) (ms : List Member) : List Bytes :=
  (ms.filter (·.name = name)).map (·.value)

section

variable {α : Type} (Stands : Bytes → α → Prop)

/-- What values make of a slot, which takes one of them. -/
inductive Fills : Option α → List Bytes → Option α → Prop where
  | keep {old} : Fills old [] old
  | set {v x} (h : Stands v x) : Fills none [v] (some x)

/-- What is given by values, of which there is one at most. -/
inductive Gives (default : α) : List Bytes → α → Prop where
  | default : Gives default [] default
  | once {v x} (h : Stands v x) : Gives default [v] x

end

/-- The members mean this configuration. -/
@[mk_iff]
structure Means (ms : List Member) (c : Config) : Prop where
  isDaemon : Gives IsFlag false (valuesOf "is_daemon" ms) c.isDaemon
  pidFile : Gives IsPath none (valuesOf "pid_file" ms) c.pidFile
  configFile : Gives IsPath none (valuesOf "config_file" ms) c.configFile

/-! ### Values under a name -/

section

variable {α : Type} {Stands : Bytes → α → Prop} {default x : α} {old new : Option α}
  {name : String} {m m' : Members} {ms ms' : List Member} {v bs : Bytes} {vs vs' : List Bytes}
  {c : Config}

lemma valuesOf_cons (y : Member) : valuesOf name (y :: ms) =
    if y.name = name then y.value :: valuesOf name ms else valuesOf name ms := by
  unfold valuesOf
  split_ifs with h <;> simp [h]

lemma fills_nil : Fills Stands old [] new ↔ new = old := by
  constructor
  · intro h
    cases h
    rfl
  · rintro rfl
    exact .keep

lemma fills_cons : Fills Stands old (v :: vs) new ↔
    old = none ∧ ∃ x, Stands v x ∧ Fills Stands (some x) vs new := by
  constructor
  · intro h
    cases h with
    | set hx => exact ⟨rfl, _, hx, .keep⟩
  · rintro ⟨rfl, x, hx, h⟩
    cases h
    exact .set hx

lemma exists_gains_iff {set : α → Members} {p : Members → Prop} :
    (∃ next, Gains Stands old set v next ∧ p next) ↔
      old = none ∧ ∃ x, Stands v x ∧ p (set x) := by
  constructor
  · rintro ⟨next, ⟨hold, x, hx, rfl⟩, h⟩
    exact ⟨hold, x, hx, h⟩
  · rintro ⟨hold, x, hx, h⟩
    exact ⟨set x, ⟨hold, x, hx, rfl⟩, h⟩

/-- The slots are filled independently of each other. -/
lemma admitsAll_iff : AdmitsAll m ms m' ↔
    Fills IsFlag m.isDaemon (valuesOf "is_daemon" ms) m'.isDaemon ∧
      Fills IsPath m.pidFile (valuesOf "pid_file" ms) m'.pidFile ∧
      Fills IsPath m.configFile (valuesOf "config_file" ms) m'.configFile := by
  induction ms generalizing m with
  | nil =>
    cases m
    cases m'
    simp [AdmitsAll, valuesOf, fills_nil]
  | cons y ms ih =>
    obtain ⟨name, v⟩ := y
    simp only [AdmitsAll, Admits, ih, valuesOf_cons]
    by_cases hdaemon : name = "is_daemon"
    · simp only [hdaemon, String.reduceEq, if_true, if_false, exists_gains_iff, fills_cons]
      grind
    by_cases hpid : name = "pid_file"
    · simp only [hpid, String.reduceEq, if_true, if_false, exists_gains_iff, fills_cons]
      grind
    by_cases hconfig : name = "config_file"
    · simp only [hconfig, String.reduceEq, if_true, if_false, exists_gains_iff, fills_cons]
      grind
    · simp [hdaemon, hpid, hconfig]

lemma exists_fills_iff :
    (∃ new, Fills Stands none vs new ∧ new.getD default = x) ↔ Gives Stands default vs x := by
  constructor
  · rintro ⟨new, h, rfl⟩
    cases h with
    | keep => exact .default
    | set h => exact .once h
  · intro h
    cases h with
    | default => exact ⟨none, .keep, rfl⟩
    | once h => exact ⟨some x, .set h, rfl⟩

lemma exists_admitsAll_iff : (∃ m', AdmitsAll {} ms m' ∧ m'.config = c) ↔ Means ms c := by
  simp only [admitsAll_iff]
  constructor
  · rintro ⟨m', ⟨hdaemon, hpid, hconfig⟩, rfl⟩
    exact ⟨exists_fills_iff.mp ⟨_, hdaemon, rfl⟩, exists_fills_iff.mp ⟨_, hpid, rfl⟩,
      exists_fills_iff.mp ⟨_, hconfig, rfl⟩⟩
  · rintro ⟨hdaemon, hpid, hconfig⟩
    obtain ⟨d, hd, hd'⟩ := exists_fills_iff.mpr hdaemon
    obtain ⟨p, hp, hp'⟩ := exists_fills_iff.mpr hpid
    obtain ⟨f, hf, hf'⟩ := exists_fills_iff.mpr hconfig
    exact ⟨⟨d, p, f⟩, ⟨hd, hp, hf⟩, by simp [Members.config, hd', hp', hf']⟩

/-! ### Documents -/

/-- What is read before the end of the document, behind which only white space may stand. -/
def finish (r : Members × Bytes) : Except Fault Config :=
  if (skipBlank r.2).isEmpty then return r.1.config else throw .malformed

lemma finish_iff {read : Except Fault (Members × Bytes)} {p : Members → Prop} {r : Bytes}
    (hread : ∀ m' left, read = .ok (m', left) ↔ p m' ∧ left = r) (hr : IsBlanks r) :
    read >>= finish = .ok c ↔ ∃ m', p m' ∧ m'.config = c := by
  have hempty : skipBlank r = [] := by
    rw [← List.append_nil r, skipBlank_append hr]
    rfl
  rw [Except.bind_eq_ok_iff]
  constructor
  · rintro ⟨⟨m', left⟩, hok, h⟩
    obtain ⟨hm', rfl⟩ := (hread m' left).mp hok
    rw [finish, if_pos (by rw [hempty]; rfl)] at h
    exact ⟨m', hm', Except.ok.inj h⟩
  · rintro ⟨m', hm', rfl⟩
    exact ⟨(m', r), (hread m' r).mpr ⟨hm', rfl⟩, if_pos (by rw [hempty]; rfl)⟩

/-- An object is accepted exactly if its members mean a configuration, which it then stands for. -/
theorem ofDocument_object (h : ObjectText ms bs) : ofDocument bs = .ok c ↔ Means ms c := by
  cases h with
  | @mk l bs r hl h hr =>
    have hread m' left : members ((bs ++ r).length + 1) true {} (bs ++ r) = .ok (m', left) ↔
        AdmitsAll {} ms m' ∧ left = r := by
      have hlength := h.length_le
      exact members_iff h (by simp at hlength ⊢; omega)
    rw [← exists_admitsAll_iff, ← finish_iff hread hr, ofDocument, skipBlank_append hl,
      skipBlank_cons (by decide)]
    exact Iff.rfl

/-- A list that is not too long is accepted exactly if the object is that gives its values to the
known names. -/
theorem ofDocument_list (h : ListText vs bs) :
    ofDocument bs = .ok c ↔
      vs.length ≤ knownNames.length ∧ Means (List.zipWith Member.mk knownNames vs) c := by
  cases h with
  | @mk l bs r hl h hr =>
    have hread m' left : elements (bs ++ r) = .ok (m', left) ↔
        AdmitsValues knownNames {} vs m' ∧ left = r := elements_iff h
    rw [← exists_admitsAll_iff, ← exists_and_left]
    simp only [← and_assoc]
    refine Iff.trans ?_ (finish_iff hread hr)
    rw [ofDocument, skipBlank_append hl, skipBlank_cons (by decide)]
    exact Iff.rfl

lemma isBlanks_of_finish {r : Members × Bytes} (h : finish r = .ok c) : IsBlanks r.2 := by
  obtain ⟨l, hsplit, hl⟩ := exists_blanks r.2
  unfold finish at h
  split at h
  · rename_i hempty
    rw [List.isEmpty_iff.mp hempty, List.append_nil] at hsplit
    rw [hsplit]
    exact hl
  · cases h

/-- Whatever is accepted is an object or a list. -/
theorem exists_of_ofDocument (h : ofDocument bs = .ok c) :
    (∃ ms, ObjectText ms bs) ∨ ∃ vs, ListText vs bs := by
  obtain ⟨l, hsplit, hl⟩ := exists_blanks bs
  unfold ofDocument at h
  dsimp only at h
  split at h
  · cases h
  · rename_i b after hbs
    rw [hbs] at hsplit
    split_ifs at h with hlist hobject
    · obtain ⟨⟨m, left⟩, hread, hfinish⟩ := Except.exists_of_bind h
      obtain ⟨vs, t, rfl, ht⟩ := exists_of_elements hread
      rw [hsplit, hlist]
      exact .inr ⟨vs, .mk hl ht (isBlanks_of_finish hfinish)⟩
    · obtain ⟨⟨m, left⟩, hread, hfinish⟩ := Except.exists_of_bind h
      obtain ⟨ms, t, rfl, ht⟩ := exists_of_members hread
      rw [hsplit, hobject]
      exact .inl ⟨ms, .mk hl ht (isBlanks_of_finish hfinish)⟩
    · cases h

end

end Overseer.Config
