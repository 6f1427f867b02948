import Overseer.Proofs.Config.Meaning

/-!
# The layout of a document

What a document means rests on the values under the known names alone: not on the order of the
members, on other members, on white space or on how names are spelled. A value may be left out
where the default is meant, and the names may be left out where the values are in their order.
-/

namespace Overseer.Config

open Json

/-- The members whose names mean something. -/
def known (ms : List Member) : List Member := ms.filter (·.name ∈ knownNames)

/-- The members that say what holds without them. -/
def defaultMembers : List Member :=
  [⟨"is_daemon", ascii "false"⟩, ⟨"pid_file", ascii "null"⟩, ⟨"config_file", ascii "null"⟩]

/-- Both documents are accepted with the same result, or neither is accepted. -/
def Alike (bs bs' : Bytes) : Prop := ∀ c, ofDocument bs = .ok c ↔ ofDocument bs' = .ok c

def Rejected (bs : Bytes) : Prop := ∃ e, ofDocument bs = .error e

variable {α : Type} {Stands : Bytes → α → Prop} {default x : α} {name : String} {c : Config}
  {ms ms' : List Member} {v bs bs' : Bytes} {vs vs' : List Bytes}

lemma rejected_of_forall (h : ∀ c, ofDocument bs ≠ .ok c) : Rejected bs := by
  cases hread : ofDocument bs with
  | error e => exact ⟨e, hread⟩
  | ok c => exact absurd hread (h c)

/-! ### Known members -/

lemma valuesOf_known (h : name ∈ knownNames) : valuesOf name (known ms) = valuesOf name ms := by
  unfold valuesOf known
  rw [List.filter_filter]
  congr 1
  refine List.filter_congr fun y _ => ?_
  by_cases hy : y.name = name <;> simp [hy, h]

lemma Gives.perm (h : Gives Stands default vs x) (hvs : vs.Perm vs') :
    Gives Stands default vs' x := by
  cases h with
  | default =>
    rw [hvs.symm.eq_nil]
    exact .default
  | once h =>
    rw [List.perm_singleton.mp hvs.symm]
    exact .once h

/-- What members mean rests on the known ones among them, in any order. -/
lemma Means.perm (h : Means ms c) (hknown : (known ms).Perm (known ms')) : Means ms' c := by
  have hvalues {name : String} (hname : name ∈ knownNames) :
      (valuesOf name ms).Perm (valuesOf name ms') := by
    have hperm : (valuesOf name (known ms)).Perm (valuesOf name (known ms')) :=
      (hknown.filter _).map _
    rwa [valuesOf_known hname, valuesOf_known hname] at hperm
  exact ⟨h.isDaemon.perm (hvalues (by decide)), h.pidFile.perm (hvalues (by decide)),
    h.configFile.perm (hvalues (by decide))⟩

lemma means_iff_of_perm (hknown : (known ms).Perm (known ms')) : Means ms c ↔ Means ms' c :=
  ⟨fun h => h.perm hknown, fun h => h.perm hknown.symm⟩

/-! ### Members left out and repeated -/

lemma isFlag_false_iff {b : Bool} : IsFlag (ascii "false") b ↔ b = false := by
  cases b <;> unfold IsFlag <;> decide

lemma isPath_null_iff {p : Option String} : IsPath (ascii "null") p ↔ p = none := by
  constructor
  · generalize hv : ascii "null" = v
    intro h
    cases h with
    | null => rfl
    | text h => cases hv
  · rintro rfl
    exact .null

lemma gives_once_iff (hv : ∀ x, Stands v x ↔ x = default) :
    Gives Stands default [v] x ↔ Gives Stands default [] x := by
  constructor
  · intro h
    cases h with
    | once h =>
      rw [(hv x).mp h]
      exact .default
  · intro h
    cases h
    exact .once ((hv default).mpr rfl)

/-- A member with its default may be left out. -/
lemma means_cons_iff {y : Member} (hy : y ∈ defaultMembers) (hms : valuesOf y.name ms = []) :
    Means (y :: ms) c ↔ Means ms c := by
  have hdaemon := @gives_once_iff _ IsFlag false c.isDaemon _ fun _ => isFlag_false_iff
  have hpath x := @gives_once_iff _ IsPath none x _ fun _ => isPath_null_iff
  simp only [defaultMembers, List.mem_cons, List.not_mem_nil, or_false] at hy
  rcases hy with rfl | rfl | rfl
  · simp only [means_iff, valuesOf_cons, String.reduceEq, if_true, if_false, hms, hdaemon]
  · simp only [means_iff, valuesOf_cons, String.reduceEq, if_true, if_false, hms, hpath]
  · simp only [means_iff, valuesOf_cons, String.reduceEq, if_true, if_false, hms, hpath]

lemma Gives.length_le (h : Gives Stands default vs x) : vs.length ≤ 1 := by
  cases h with
  | default => exact Nat.zero_le 1
  | once h => exact le_rfl

lemma count_known (hname : name ∈ knownNames) :
    ((known ms).map (·.name)).count name = (valuesOf name ms).length := by
  rw [← valuesOf_known hname, valuesOf, List.length_map, ← List.countP_eq_length_filter,
    List.count, List.countP_map]
  rfl

/-- No known member is repeated where the members mean something. -/
lemma Means.nodup (h : Means ms c) : ((known ms).map (·.name)).Nodup := by
  rw [List.nodup_iff_count]
  intro name
  by_cases hname : name ∈ knownNames
  · rw [count_known hname]
    simp only [knownNames, List.mem_cons, List.not_mem_nil, or_false] at hname
    rcases hname with rfl | rfl | rfl
    · exact h.isDaemon.length_le
    · exact h.pidFile.length_le
    · exact h.configFile.length_le
  · have hmem : name ∉ (known ms).map (·.name) := by
      simp only [known, List.mem_map, List.mem_filter, decide_eq_true_eq]
      rintro ⟨y, ⟨-, hy⟩, rfl⟩
      exact hname hy
    rw [List.count_eq_zero_of_not_mem hmem]
    exact Nat.zero_le 1

/-! ### Documents -/

lemma Entries.exists_text {close : UInt8} {Written : α → Bytes → Prop} {isFirst : Bool}
    {xs : List α} (h : ∀ y ∈ xs, ∃ e, Written y e) : ∃ bs, Entries close Written isFirst xs bs := by
  induction xs generalizing isFirst with
  | nil => exact ⟨[] ++ [close], .close isBlanks_nil⟩
  | cons y xs ih =>
    rw [List.forall_mem_cons] at h
    obtain ⟨e, he⟩ := h.1
    obtain ⟨bs, hbs⟩ := @ih false h.2
    cases isFirst with
    | true => exact ⟨e ++ bs, .first he hbs⟩
    | false => exact ⟨[] ++ byte ',' :: (e ++ bs), .next isBlanks_nil he hbs⟩

/-- Members with any names and values can be written as an object. -/
theorem exists_objectText (h : ∀ y ∈ ms, IsValue y.value) : ∃ bs, ObjectText ms bs := by
  have hwritten : ∀ y ∈ ms, ∃ e, y.Written e := fun y hy =>
    ⟨_, .mk isBlanks_nil (spells_written y.name) isBlanks_nil isBlanks_nil (h y hy)⟩
  obtain ⟨bs, hbs⟩ := Entries.exists_text hwritten
  exact ⟨[] ++ byte '\x7b' :: (bs ++ []), .mk isBlanks_nil hbs isBlanks_nil⟩

/-- Any values can be written as a list. -/
theorem exists_listText (h : ∀ v ∈ vs, IsValue v) : ∃ bs, ListText vs bs := by
  have hwritten : ∀ v ∈ vs, ∃ e, Item v e := fun v hv => ⟨[] ++ v, .mk isBlanks_nil (h v hv)⟩
  obtain ⟨bs, hbs⟩ := Entries.exists_text hwritten
  exact ⟨[] ++ byte '[' :: (bs ++ []), .mk isBlanks_nil hbs isBlanks_nil⟩

lemma alike_of_means (h : ObjectText ms bs) (h' : ObjectText ms' bs')
    (hmeans : ∀ c, Means ms c ↔ Means ms' c) : Alike bs bs' := fun c => by
  rw [ofDocument_object h, ofDocument_object h']
  exact hmeans c

/-- Whatever is accepted is an object or a list. How an object is laid out has no influence on its
meaning: not the order of its members, nor those whose names are unknown, nor white space. To leave
out a known member is to give its default, and to repeat it is to be rejected. A list of three
values at most is what the object is that gives them to the known names, and a longer one is
rejected. -/
theorem documents_alike (bs bs' : Bytes) :
    (∀ c, ofDocument bs = .ok c → (∃ ms, ObjectText ms bs) ∨ ∃ vs, ListText vs bs) ∧
      (∀ ms, ObjectText ms bs →
        (∀ ms', ObjectText ms' bs' → (known ms').Perm (known ms) → Alike bs bs') ∧
        (∀ y ∈ defaultMembers, valuesOf y.name ms = [] →
          ∀ ms', ObjectText ms' bs' → (known ms').Perm (y :: known ms) → Alike bs bs') ∧
        (¬ ((known ms).map (·.name)).Nodup → Rejected bs)) ∧
      ∀ vs, ListText vs bs →
        (vs.length ≤ 3 → ObjectText (List.zipWith Member.mk knownNames vs) bs' → Alike bs bs') ∧
        (3 < vs.length → Rejected bs) := by
  refine ⟨fun c => exists_of_ofDocument, fun ms h => ⟨fun ms' h' hperm => ?_,
    fun y hy hms ms' h' hperm => ?_, fun hrepeated => ?_⟩, fun vs h => ⟨fun hlength h' c => ?_,
    fun hlength => ?_⟩⟩
  · exact alike_of_means h h' fun c => means_iff_of_perm hperm.symm
  · have hknown : known (y :: ms) = y :: known ms := by
      have hname : y.name ∈ knownNames := by
        simp only [defaultMembers, List.mem_cons, List.not_mem_nil, or_false] at hy
        rcases hy with rfl | rfl | rfl <;> decide
      exact List.filter_cons_of_pos (by simpa using hname)
    rw [← hknown] at hperm
    refine alike_of_means h h' fun c => ?_
    rw [← means_cons_iff hy hms, means_iff_of_perm hperm]
  · refine rejected_of_forall fun c hc => hrepeated ?_
    exact ((ofDocument_object h).mp hc).nodup
  · rw [ofDocument_list h, ofDocument_object h']
    exact and_iff_right hlength
  · refine rejected_of_forall fun c hc => ?_
    exact Nat.not_le_of_lt hlength ((ofDocument_list h).mp hc).1

example : ofDocument (ascii ("\x7b \"pid_file\":null, \"x\":[\x7b\"a\":\"\x7d\"\x7d]," ++
    "\"is_d\\u0061emon\" : true\x7d")) = .ok ⟨true, none, none⟩ := by decide +kernel

end Overseer.Config
