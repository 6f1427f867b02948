import Mathlib.Data.List.Duplicate
import Overseer.Proofs.Queue.Elements

/-!
# The order in which elements leave a deque

Sections at either end insert and remove elements, but those that stay keep their order: of the
stored elements, a section makes a longer list or a shorter one. So an element that was pushed behind
another stays behind it as long as both are stored, whatever happens at the other end. From that
follow the two laws of the ends: first in, first out from end to end, and last in, first out at one
end.

A moment is told by how many of the events, in the order in which they happened, are over.
-/

namespace Overseer

open List (Sublist Duplicate)

variable {α : Type}

def End.opposite : End → End
  | front => back
  | back => front

/-- The elements as they are seen by one for whom the given end is the last. -/
def End.view (e : End) (xs : List α) : List α :=
  match e with
  | front => xs.reverse
  | back => xs

/-! ### Pairs in a list -/

section Pairs

variable {xs ys : List α} {a b : α}

/-- Two elements of a list stand in one order or in the other. -/
lemma sublist_or_sublist (ha : a ∈ xs) (hb : b ∈ xs) (hne : a ≠ b) :
    Sublist [a, b] xs ∨ Sublist [b, a] xs := by
  obtain ⟨before, after, rfl⟩ := List.append_of_mem ha
  have hfirst : Sublist [a] (a :: after) := List.singleton_sublist.mpr List.mem_cons_self
  rcases List.mem_append.mp hb with hbefore | hafter
  · exact .inr ((List.singleton_sublist.mpr hbefore).append hfirst)
  · have hlast := (List.mem_cons.mp hafter).resolve_left (Ne.symm hne)
    have hboth := (List.singleton_sublist.mpr hlast).cons_cons a
    exact .inl (hboth.trans (List.sublist_append_right _ _))

/-- They do not stand in both, unless one of them is there twice. -/
lemma not_sublist_of_sublist (ha : ¬ Duplicate a xs) (hb : ¬ Duplicate b xs) (hne : a ≠ b)
    (h : Sublist [a, b] xs) : ¬ Sublist [b, a] xs := by
  induction xs with
  | nil => cases h
  | cons x xs ih =>
    intro h'
    cases h with
    | cons _ h =>
      cases h' with
      | cons _ h' =>
        exact ih (fun hd => ha (hd.duplicate_cons x)) (fun hd => hb (hd.duplicate_cons x)) h h'
      | cons_cons _ h' =>
        have hmem : b ∈ xs := h.subset (by simp)
        exact hb hmem.duplicate_cons_self
    | cons_cons _ h =>
      cases h' with
      | cons _ h' =>
        have hmem : a ∈ xs := h'.subset (by simp)
        exact ha hmem.duplicate_cons_self
      | cons_cons _ h' => exact hne rfl

/-- In a shorter list, the elements that are left stand as they stood. -/
lemma sublist_of_shorter (hshorter : Sublist ys xs) (ha : ¬ Duplicate a xs)
    (hb : ¬ Duplicate b xs) (hne : a ≠ b) (h : Sublist [a, b] xs) (hay : a ∈ ys) (hby : b ∈ ys) :
    Sublist [a, b] ys :=
  (sublist_or_sublist hay hby hne).resolve_right fun h' =>
    not_sublist_of_sublist ha hb hne h (h'.trans hshorter)

end Pairs

namespace End

variable {e : End} {xs : List α} {a b : α}

@[simp] lemma mem_view : a ∈ e.view xs ↔ a ∈ xs := by
  cases e with
  | front => exact List.mem_reverse
  | back => exact Iff.rfl

@[simp] lemma duplicate_view : Duplicate a (e.view xs) ↔ Duplicate a xs := by
  classical
  rw [List.duplicate_iff_two_le_count, List.duplicate_iff_two_le_count]
  cases e with
  | front => rw [view, List.count_reverse]
  | back => rfl

lemma view_sublist {ys : List α} (h : Sublist xs ys) : Sublist (e.view xs) (e.view ys) := by
  cases e with
  | front => exact h.reverse
  | back => exact h

end End

/-! ### Sections seen from an end -/

namespace DequeEvent

variable {ev : DequeEvent α} {e : End} {who : Nat} {xs ys : List α} {a b : α}

/-- Of the stored elements, a section makes a longer list or a shorter one. -/
lemma Turns.sublist (h : ev.Turns xs ys) : Sublist xs ys ∨ Sublist ys xs := by
  cases h with
  | pushFront who a => exact .inl (List.sublist_cons_self a xs)
  | pushBack who a => exact .inl (List.sublist_append_left xs [a])
  | popFront who a => exact .inr (List.sublist_cons_self a ys)
  | popBack who a => exact .inr (List.sublist_append_left ys [a])
  | clear => exact .inr (List.nil_sublist xs)
  | giveUp | overflow | copy => exact .inl (List.Sublist.refl _)

lemma Turns.mem (h : ev.Turns xs ys) (ha : a ∈ ys) : a ∈ xs ∨ a ∈ ev.entered := by
  cases h with
  | pushFront who x =>
    rcases List.mem_cons.mp ha with rfl | ha
    · exact .inr (List.mem_singleton_self a)
    · exact .inl ha
  | pushBack who x => exact List.mem_append.mp ha
  | popFront who x => exact .inl (List.mem_cons_of_mem x ha)
  | popBack who x => exact .inl (List.mem_append_left _ ha)
  | clear => cases ha
  | giveUp | overflow | copy => exact .inl ha

lemma Turns.unique {zs : List α} (h : ev.Turns xs ys) (h' : ev.Turns xs zs) : ys = zs := by
  cases h with
  | popBack who a =>
    generalize hxs : ys ++ [a] = us at h'
    cases h' with
    | popBack => exact (List.append_inj_left' hxs rfl)
  | _ =>
    cases h'
    rfl

lemma Turns.view_pushed (h : (pushed who e a).Turns xs ys) : e.view ys = e.view xs ++ [a] := by
  cases h with
  | pushFront => exact List.reverse_cons
  | pushBack => rfl

lemma Turns.view_popped (h : (popped who e a).Turns xs ys) : e.view xs = e.view ys ++ [a] := by
  cases h with
  | popFront => exact List.reverse_cons
  | popBack => rfl

lemma Turns.view_popped_opposite (h : (popped who e.opposite a).Turns xs ys) :
    e.view xs = a :: e.view ys := by
  cases e with
  | front =>
    generalize he : End.front.opposite = e at h
    cases h with
    | popFront => cases he
    | popBack => exact List.reverse_concat
  | back =>
    generalize he : End.back.opposite = e at h
    cases h with
    | popFront => rfl
    | popBack => cases he

end DequeEvent

/-! ### Moments of a history -/

/-- `zs` is stored after the first `k` of the events, which begin with `xs` stored. -/
def StoredAfter (xs : List α) (es : List (DequeEvent α)) (k : Nat) (zs : List α) : Prop :=
  Replays xs (es.take k).reverse zs

/-- The element comes in once at most: it is there in the beginning, or it is pushed. -/
def ComesOnce (xs : List α) (es : List (DequeEvent α)) (a : α) : Prop :=
  ¬ Duplicate a (xs ++ es.flatMap DequeEvent.entered)

section Moments

variable {xs ys zs : List α} {es es' : List (DequeEvent α)} {ev : DequeEvent α} {e o : End}
  {a b : α} {who who' s t k l : Nat}

lemma Replays.split (h : Replays xs (es' ++ es) ys) :
    ∃ zs, Replays xs es zs ∧ Replays zs es' ys := by
  induction es' generalizing ys with
  | nil => exact ⟨ys, h, .nil⟩
  | cons ev es' ih =>
    cases h with
    | cons h hev =>
      obtain ⟨zs, hbefore, hafter⟩ := ih h
      exact ⟨zs, hbefore, .cons hafter hev⟩

lemma Replays.unique (h : Replays xs es ys) (h' : Replays xs es zs) : ys = zs := by
  induction h generalizing zs with
  | nil =>
    cases h'
    rfl
  | cons _ hev ih =>
    cases h' with
    | cons h' hev' =>
      obtain rfl := ih h'
      exact hev.unique hev'

/-- A history has a stored list at each moment. -/
lemma Replays.exists_storedAfter (h : Replays xs es.reverse ys) (k : Nat) :
    ∃ zs, StoredAfter xs es k zs ∧ Replays zs (es.drop k).reverse ys := by
  have hes : es.reverse = (es.drop k).reverse ++ (es.take k).reverse := by
    rw [← List.reverse_append, List.take_append_drop]
  rw [hes] at h
  exact h.split

lemma StoredAfter.exists_later (hk : StoredAfter xs es k zs) (hkl : k ≤ l)
    (hl : StoredAfter xs es l ys) : Replays zs ((es.take l).drop k).reverse ys := by
  obtain ⟨us, hus, hrest⟩ := Replays.exists_storedAfter hl k
  rw [StoredAfter, List.take_take, Nat.min_eq_left hkl] at hus
  obtain rfl := Replays.unique hus hk
  exact hrest

/-- An event leads from what is stored before it to what is stored after it. -/
lemma Replays.exists_turns (h : Replays xs es.reverse ys) (hs : es[s]? = some ev) :
    ∃ us zs, StoredAfter xs es s us ∧ StoredAfter xs es (s + 1) zs ∧ ev.Turns us zs := by
  obtain ⟨zs, hzs, -⟩ := h.exists_storedAfter (s + 1)
  have hzs' := hzs
  rw [StoredAfter, List.take_add_one, hs, Option.toList_some, List.reverse_append,
    List.reverse_singleton, List.singleton_append] at hzs'
  cases hzs' with
  | cons hus hturns => exact ⟨_, zs, hus, hzs, hturns⟩

/-! ### The stay of an element -/

lemma duplicate_of_perm (h : List.Perm xs ys) (hd : Duplicate a xs) : Duplicate a ys := by
  classical
  rw [List.duplicate_iff_two_le_count] at hd ⊢
  rwa [← h.count_eq]

lemma duplicate_append (hx : a ∈ xs) (hy : a ∈ ys) : Duplicate a (xs ++ ys) :=
  List.duplicate_iff_sublist.mpr
    ((List.singleton_sublist.mpr hx).append (List.singleton_sublist.mpr hy))

/-- What was there and what came in until a moment went out, was cleared away or is stored. -/
lemma StoredAfter.perm (h : StoredAfter xs es k zs) :
    (xs ++ (es.take k).flatMap DequeEvent.entered).Perm
      ((es.take k).flatMap DequeEvent.returned ++ (es.take k).flatMap DequeEvent.removed ++ zs) := by
  have hperm := Replays.perm h
  rwa [List.reverse_reverse] at hperm

lemma entered_take_append_drop (xs : List α) (es : List (DequeEvent α)) (k : Nat) :
    xs ++ es.flatMap DequeEvent.entered =
      xs ++ (es.take k).flatMap DequeEvent.entered ++ (es.drop k).flatMap DequeEvent.entered := by
  rw [List.append_assoc, ← List.flatMap_append, List.take_append_drop]

lemma ComesOnce.take (h : ComesOnce xs es a) (k : Nat) : ComesOnce xs (es.take k) a := by
  intro hd
  refine h ?_
  rw [entered_take_append_drop xs es k]
  exact hd.mono_sublist (List.sublist_append_left _ _)

/-- What comes in once does so counted from any moment on. -/
lemma ComesOnce.drop (h : ComesOnce xs es a) (hk : StoredAfter xs es k zs) :
    ComesOnce zs (es.drop k) a := by
  intro hd
  refine h ?_
  rw [entered_take_append_drop xs es k]
  refine duplicate_of_perm (hk.perm.symm.append_right _) (hd.mono_sublist ?_)
  exact (List.sublist_append_right _ zs).append_right _

lemma ComesOnce.not_duplicate (h : ComesOnce xs es a) : ¬ Duplicate a xs :=
  fun hd => h (hd.mono_sublist (List.sublist_append_left _ _))

/-- Whether an event at one position is among those from a moment on. -/
lemma mem_drop_of_getElem? (hs : es[s]? = some ev) (hk : k ≤ s) : ev ∈ es.drop k := by
  refine List.mem_of_getElem? (i := s - k) ?_
  rw [List.getElem?_drop, Nat.add_sub_cancel' hk, hs]

lemma mem_take_of_getElem? (hs : es[s]? = some ev) (hk : s < k) : ev ∈ es.take k := by
  refine List.mem_of_getElem? (i := s) ?_
  rw [List.getElem?_take_of_lt hk, hs]

lemma mem_entered (h : .pushed who e a ∈ es) : a ∈ es.flatMap DequeEvent.entered :=
  List.mem_flatMap.mpr ⟨_, h, List.mem_singleton_self a⟩

lemma mem_returned (h : .popped who e a ∈ es) : a ∈ es.flatMap DequeEvent.returned :=
  List.mem_flatMap.mpr ⟨_, h, List.mem_singleton_self a⟩

/-- An element is stored only after it was pushed. -/
lemma StoredAfter.lt_of_pushed (hk : StoredAfter xs es k zs) (honce : ComesOnce xs es a)
    (ha : a ∈ zs) (hs : es[s]? = some (.pushed who e a)) : s < k := by
  by_contra hle
  have hlater := mem_entered (mem_drop_of_getElem? hs (Nat.not_lt.mp hle))
  exact honce.drop hk (duplicate_append ha hlater)

/-- An element is stored only until it is popped. -/
lemma StoredAfter.le_of_popped (hk : StoredAfter xs es k zs) (honce : ComesOnce xs es a)
    (ha : a ∈ zs) (ht : es[t]? = some (.popped who e a)) : k ≤ t := by
  by_contra hlt
  have hout := mem_returned (mem_take_of_getElem? ht (Nat.not_le.mp hlt))
  refine honce.take k (duplicate_of_perm hk.perm.symm ?_)
  exact duplicate_append (List.mem_append_left _ hout) ha

/-- From when it is pushed until it is popped, an element is stored. -/
lemma StoredAfter.mem (h : Replays xs es.reverse ys) (hk : StoredAfter xs es k zs)
    (honce : ComesOnce xs es a) (hs : es[s]? = some (.pushed who e a)) (hsk : s < k)
    (ht : es[t]? = some (.popped who' o a)) (hkt : k ≤ t) : a ∈ zs := by
  obtain ⟨zs', hk', hrest⟩ := h.exists_storedAfter k
  obtain rfl := Replays.unique hk' hk
  have hperm := hrest.perm
  rw [List.reverse_reverse] at hperm
  have hout := mem_returned (mem_drop_of_getElem? ht hkt)
  have hin := hperm.symm.subset (List.mem_append_left _ (List.mem_append_left _ hout))
  refine (List.mem_append.mp hin).resolve_right fun hlater => honce ?_
  rw [entered_take_append_drop xs es k]
  have hearlier := mem_entered (mem_take_of_getElem? hs hsk)
  exact duplicate_append (List.mem_append_right _ hearlier) hlater

/-- As long as two elements are stored, they stand in the order in which they stand. -/
lemma Replays.keeps_view (h : Replays xs es.reverse ys) (ha : ComesOnce xs es a)
    (hb : ComesOnce xs es b) (hne : a ≠ b) (hxs : Sublist [a, b] (e.view xs)) (hay : a ∈ ys)
    (hby : b ∈ ys) : Sublist [a, b] (e.view ys) := by
  induction es using List.reverseRecOn generalizing ys with
  | nil =>
    cases h
    exact hxs
  | append_singleton es ev ih =>
    rw [List.reverse_append, List.reverse_singleton, List.singleton_append] at h
    cases h with
    | @cons _ _ us _ hbefore hturns =>
      have hus : StoredAfter xs (es ++ [ev]) es.length us := by
        rwa [StoredAfter, List.take_left]
      -- what is stored now and was there in the beginning was stored before this event
      have hstays {x : α} (hx : ComesOnce xs (es ++ [ev]) x) (hxs : x ∈ xs) (hys : x ∈ ys) :
          x ∈ us ∧ ComesOnce xs es x ∧ ¬ Duplicate x (e.view us) := by
        have hold := hx.take es.length
        rw [List.take_left] at hold
        refine ⟨(hturns.mem hys).resolve_right fun hnew => hx ?_, hold, ?_⟩
        · refine duplicate_append hxs ?_
          rw [List.flatMap_append, List.flatMap_singleton]
          exact List.mem_append_right _ hnew
        · rw [End.duplicate_view]
          exact (hx.drop hus).not_duplicate
      have haxs : a ∈ xs := End.mem_view.mp (hxs.subset (by simp))
      have hbxs : b ∈ xs := End.mem_view.mp (hxs.subset (by simp))
      obtain ⟨hau, haold, ha'⟩ := hstays ha haxs hay
      obtain ⟨hbu, hbold, hb'⟩ := hstays hb hbxs hby
      have hview := ih hbefore haold hbold hau hbu
      rcases hturns.sublist with hlonger | hshorter
      · exact hview.trans (End.view_sublist hlonger)
      · exact sublist_of_shorter (End.view_sublist hshorter) ha' hb' hne hview
          (End.mem_view.mpr hay) (End.mem_view.mpr hby)

/-- The same from one moment to a later one. -/
lemma StoredAfter.keeps_view (hk : StoredAfter xs es k zs) (hkl : k ≤ l)
    (hl : StoredAfter xs es l ys) (ha : ComesOnce xs es a) (hb : ComesOnce xs es b) (hne : a ≠ b)
    (hzs : Sublist [a, b] (e.view zs)) (hay : a ∈ ys) (hby : b ∈ ys) :
    Sublist [a, b] (e.view ys) := by
  have hk' : StoredAfter xs (es.take l) k zs := by
    rwa [StoredAfter, List.take_take, Nat.min_eq_left hkl]
  exact (hk.exists_later hkl hl).keeps_view ((ha.take l).drop hk') ((hb.take l).drop hk') hne hzs
    hay hby

end Moments

/-! ### Passages -/

/-- The `s`-th event pushes the element at the end `i`, and the `t`-th pops it from the end `o`. -/
structure Passes (es : List (DequeEvent α)) (i o : End) (a : α) (s t : Nat) : Prop where
  pushed : ∃ who, es[s]? = some (.pushed who i a)
  popped : ∃ who, es[t]? = some (.popped who o a)

section Passages

variable {xs ys : List α} {es : List (DequeEvent α)} {e o : End} {a b : α} {s t s' t' k : Nat}

/-- What passes is pushed before it is popped. -/
lemma Passes.lt (h : Passes es e o a s t) (hes : Replays xs es.reverse ys)
    (honce : ComesOnce xs es a) : s < t := by
  obtain ⟨who, hs⟩ := h.pushed
  obtain ⟨who', ht⟩ := h.popped
  obtain ⟨us, zs, hus, -, hturns⟩ := hes.exists_turns ht
  have ha : a ∈ us := by
    rw [← End.mem_view (e := o), hturns.view_popped]
    simp
  exact hus.lt_of_pushed honce ha hs

/-- Once the later one of two elements is pushed at an end, it is nearer to that end as long as both
are stored. -/
lemma Passes.behind (h : Passes es e o a s t) (hes : Replays xs es.reverse ys)
    (ha : ComesOnce xs es a) (hb : ComesOnce xs es b) (hne : a ≠ b) {who : Nat}
    (hs' : es[s']? = some (.pushed who e b)) (hss' : s < s') (hk : s' < k) (hkt : k ≤ t)
    {zs : List α} (hzs : StoredAfter xs es k zs) (hbz : b ∈ zs) :
    a ∈ zs ∧ ¬ Sublist [b, a] (e.view zs) := by
  obtain ⟨_, hs⟩ := h.pushed
  obtain ⟨_, ht⟩ := h.popped
  obtain ⟨us, us', hus, hus', hturns⟩ := hes.exists_turns hs'
  have hau : a ∈ us := hus.mem hes ha hs hss' ht (by omega)
  have haz : a ∈ zs := hzs.mem hes ha hs (by omega) ht hkt
  have hview : Sublist [a, b] (e.view us') := by
    rw [hturns.view_pushed]
    exact (List.singleton_sublist.mpr (End.mem_view.mpr hau)).append (.refl [b])
  have honce {x : α} (hx : ComesOnce xs es x) : ¬ Duplicate x (e.view zs) := by
    rw [End.duplicate_view]
    exact (hx.drop hzs).not_duplicate
  exact ⟨haz, not_sublist_of_sublist (honce ha) (honce hb) hne
    (hus'.keeps_view hk hzs ha hb hne hview haz hbz)⟩

lemma Passes.ne (h : Passes es e o a s t) (h' : Passes es e o b s' t') (ha : ComesOnce xs es a)
    (hss' : s < s') : a ≠ b := by
  rintro rfl
  obtain ⟨_, hs⟩ := h.pushed
  obtain ⟨_, hs'⟩ := h'.pushed
  refine ha ?_
  rw [entered_take_append_drop xs es s']
  exact duplicate_append (List.mem_append_right _ (mem_entered (mem_take_of_getElem? hs hss')))
    (mem_entered (mem_drop_of_getElem? hs' (Nat.le_refl s')))

/-- Of two elements that go from one end to the other, the first one in is the first one out. -/
lemma Passes.first_out (h : Passes es e e.opposite a s t) (h' : Passes es e e.opposite b s' t')
    (hes : Replays xs es.reverse ys) (ha : ComesOnce xs es a) (hb : ComesOnce xs es b)
    (hss' : s < s') : t < t' := by
  by_contra hle
  have hne := h.ne h' ha hss'
  obtain ⟨_, hs'⟩ := h'.pushed
  obtain ⟨_, ht'⟩ := h'.popped
  obtain ⟨us, zs, hus, -, hturns⟩ := hes.exists_turns ht'
  -- the second one is at the other end when it is popped, with the first one still behind it
  have hview := hturns.view_popped_opposite
  have hbu : b ∈ us := hus.mem hes hb hs' (h'.lt hes hb) ht' (Nat.le_refl t')
  obtain ⟨hau, hbehind⟩ :=
    h.behind hes ha hb hne hs' hss' (h'.lt hes hb) (Nat.not_lt.mp hle) hus hbu
  rw [← End.mem_view (e := e), hview] at hau
  rw [hview] at hbehind
  have hrest := (List.mem_cons.mp hau).resolve_left hne
  exact hbehind ((List.singleton_sublist.mpr hrest).cons_cons b)

/-- Of two elements that come and go at one end and are stored at one moment, the last one in is the
first one out. -/
lemma Passes.last_out (h : Passes es e e a s t) (h' : Passes es e e b s' t')
    (hes : Replays xs es.reverse ys) (ha : ComesOnce xs es a) (hb : ComesOnce xs es b)
    (hss' : s < s') {zs : List α} (hk : StoredAfter xs es k zs) (haz : a ∈ zs) (hbz : b ∈ zs) :
    t' < t := by
  by_contra hle
  have hne := h.ne h' ha hss'
  obtain ⟨_, ht⟩ := h.popped
  obtain ⟨_, hs'⟩ := h'.pushed
  obtain ⟨_, ht'⟩ := h'.popped
  have hst : s' < t :=
    Nat.lt_of_lt_of_le (hk.lt_of_pushed hb hbz hs') (hk.le_of_popped ha haz ht)
  obtain ⟨us, us', hus, -, hturns⟩ := hes.exists_turns ht
  -- the first one is at the end when it is popped, with the second one still there
  have hview := hturns.view_popped
  have hbu : b ∈ us := hus.mem hes hb hs' hst ht' (Nat.not_lt.mp hle)
  obtain ⟨-, hbehind⟩ := h.behind hes ha hb hne hs' hss' hst (Nat.le_refl t) hus hbu
  rw [← End.mem_view (e := e), hview] at hbu
  rw [hview] at hbehind
  have hrest : b ∈ e.view us' := (List.mem_append.mp hbu).resolve_right fun hlast =>
    hne (List.mem_singleton.mp hlast).symm
  exact hbehind ((List.singleton_sublist.mpr hrest).append (.refl [a]))

end Passages

namespace Monitor

variable {m m' : Monitor α} {as : List (DequeAction α)} {a b : α} {s t s' t' : Nat}

/-- What the sections did, in the order in which they took the lock. -/
def events (m : Monitor α) : List (DequeEvent α) := m.history.reverse

/-- At some moment of the run both elements are stored. -/
def StoresBoth (m : Monitor α) (as : List (DequeAction α)) (a b : α) : Prop :=
  ∃ before u, before <+: as ∧ m.run before = some u ∧ a ∈ u.queue.toList ∧ b ∈ u.queue.toList

lemma history_suffix_of_run (h : m.run as = some m') : m.history <:+ m'.history := by
  refine runs.invariant (P := fun _ u => m.history <:+ u.history) (List.suffix_refl _) ?_ h
  intro _ _ u u' _ hu hstep
  cases (section_of_step hstep).tells with
  | nothing hhistory => rwa [hhistory]
  | event ev hhistory =>
    rw [hhistory]
    exact hu.trans (List.suffix_cons ev _)

/-- What is stored on the way is stored after the events up to then. -/
lemma storedAfter_of_run {queue : Deque α} {n : Nat} {before after : List (DequeAction α)}
    {u : Monitor α} (hbefore : (start queue n).run before = some u)
    (hafter : u.run after = some m) :
    StoredAfter queue.toList m.events u.history.length u.queue.toList := by
  obtain ⟨later, hlater⟩ := history_suffix_of_run hafter
  have htake : (m.events.take u.history.length).reverse = u.history := by
    rw [events, ← hlater, List.reverse_append, ← List.length_reverse, List.take_left,
      List.reverse_reverse]
  rw [StoredAfter, htake]
  exact (replayed_of_run hbefore).replays

/-- Whatever else happens at both ends, of two elements that come in once each, and of which the
second is pushed later at the same end: if both are popped from the other end, the first is popped
first, and if both are popped from the same end and were stored at one moment, the second is. -/
theorem passages_in_order (queue : Deque α) (n : Nat) (h : (start queue n).run as = some m)
    (ha : ¬ Duplicate a (queue.toList ++ as.flatMap DequeAction.entering))
    (hb : ¬ Duplicate b (queue.toList ++ as.flatMap DequeAction.entering)) (e : End)
    (hlater : s < s') :
    (Passes m.events e e.opposite a s t → Passes m.events e e.opposite b s' t' → t < t') ∧
    ((start queue n).StoresBoth as a b →
      Passes m.events e e a s t → Passes m.events e e b s' t' → t' < t) := by
  have hreplayed := replayed_of_run h
  have hes : Replays queue.toList m.events.reverse m.queue.toList := by
    rw [events, List.reverse_reverse]
    exact hreplayed.replays
  have ha' : ComesOnce queue.toList m.events a := by
    rwa [ComesOnce, events, hreplayed.entered_eq]
  have hb' : ComesOnce queue.toList m.events b := by
    rwa [ComesOnce, events, hreplayed.entered_eq]
  refine ⟨fun hpass hpass' => hpass.first_out hpass' hes ha' hb' hlater, ?_⟩
  rintro ⟨before, u, ⟨after, rfl⟩, hbefore, hau, hbu⟩ hpass hpass'
  rw [runs.append, hbefore, Option.bind_some] at h
  exact hpass.last_out hpass' hes ha' hb' hlater (storedAfter_of_run hbefore h) hau hbu

/-- One caller waits at the front. Another one pushes at the back, where a third one comes and goes
and the second one pops in the end. -/
def crossed : List (DequeAction Nat) :=
  [.pop 0 .front .forever ⟨3, by decide⟩, .push 1 .back 1, .notify 1 (some 0), .push 1 .back 2,
    .notify 1 none, .look 0, .push 2 .front 7, .notify 2 none, .push 2 .front 7, .notify 2 none,
    .push 1 .back 3, .notify 1 none, .push 1 .back 4, .notify 1 none,
    .pop 2 .front .never ⟨3, by decide⟩, .pop 2 .front .never ⟨3, by decide⟩,
    .pop 1 .back .never ⟨3, by decide⟩, .pop 1 .back .never ⟨3, by decide⟩,
    .pop 0 .front .never ⟨3, by decide⟩]

/-- What has become of the deque by then. -/
def afterCrossing : Monitor Nat where
  queue := {}
  callers := [.outside, .outside, .outside]
  history :=
    [.popped 0 .front 2, .popped 1 .back 3, .popped 1 .back 4, .popped 2 .front 7,
      .popped 2 .front 7, .pushed 1 .back 4, .pushed 1 .back 3, .pushed 2 .front 7,
      .pushed 2 .front 7, .popped 0 .front 1, .pushed 1 .back 2, .pushed 1 .back 1]

/-- The first two elements go from the back to the front, the last two come and go at the back. -/
theorem passages_in_order_crossed : (start {} 3).run crossed = some afterCrossing ∧
    (Passes afterCrossing.events .back .front 1 0 2 ∧
      Passes afterCrossing.events .back .front 2 1 11 ∧ 2 < 11) ∧
    (start {} 3).StoresBoth crossed 3 4 ∧ Passes afterCrossing.events .back .back 3 5 10 ∧
    Passes afterCrossing.events .back .back 4 6 9 ∧ 9 < 10 := by
  have hrun : (start {} 3).run crossed = some afterCrossing := rfl
  have hboth : (start {} 3).StoresBoth crossed 3 4 :=
    ⟨crossed.take 14, _, List.take_prefix 14 crossed, rfl, by decide, by decide⟩
  have h₁ : Passes afterCrossing.events .back .front 1 0 2 := ⟨⟨1, rfl⟩, ⟨0, rfl⟩⟩
  have h₂ : Passes afterCrossing.events .back .front 2 1 11 := ⟨⟨1, rfl⟩, ⟨0, rfl⟩⟩
  have h₃ : Passes afterCrossing.events .back .back 3 5 10 := ⟨⟨1, rfl⟩, ⟨1, rfl⟩⟩
  have h₄ : Passes afterCrossing.events .back .back 4 6 9 := ⟨⟨1, rfl⟩, ⟨1, rfl⟩⟩
  have hfirst := (passages_in_order {} 3 hrun (by decide) (by decide) .back (by decide)).1 h₁ h₂
  have hlast :=
    (passages_in_order {} 3 hrun (by decide) (by decide) .back (by decide)).2 hboth h₃ h₄
  exact ⟨hrun, ⟨h₁, h₂, hfirst⟩, hboth, h₃, h₄, hlast⟩

end Monitor

end Overseer
