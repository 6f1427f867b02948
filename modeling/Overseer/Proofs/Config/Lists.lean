import Overseer.Proofs.Config.Objects

/-!
# Configurations as lists

The values of a list are read as those of the members in their order. A list may be shorter than
that, but not longer.
-/

namespace Overseer.Config

open Json

/-- How a value in a list is written, with white space before it. -/
inductive Item (v : Bytes) : Bytes → Prop where
  | mk {n} (hn : IsBlanks n) (hv : IsValue v) : Item v (n ++ v)

/-- The bytes are a list of these values. -/
inductive ListText (vs : List Bytes) : Bytes → Prop where
  | mk {l bs r} (hl : IsBlanks l) (h : Entries (closing false) Item true vs bs) (hr : IsBlanks r) :
      ListText vs (l ++ byte '[' :: (bs ++ r))

/-! ### Values under names -/

/-- What the members become by values under these names, of which there are enough. -/
def AdmitsValues (names : List String) (m : Members) (vs : List Bytes) (m' : Members) : Prop :=
  vs.length ≤ names.length ∧ AdmitsAll m (List.zipWith Member.mk names vs) m'

section

variable {α β : Type} {m m' : Members} {name : String} {names : List String}
  {v b e bs rest left : Bytes} {vs : List Bytes}

lemma admitsValues_nil : AdmitsValues names m [] m' ↔ m' = m := by
  simp [AdmitsValues, AdmitsAll]

lemma admitsValues_cons : AdmitsValues (name :: names) m (v :: vs) m' ↔
    ∃ next, Admits m ⟨name, v⟩ next ∧ AdmitsValues names next vs m' := by
  constructor
  · rintro ⟨hlength, next, hnext, hall⟩
    exact ⟨next, hnext, Nat.le_of_succ_le_succ hlength, hall⟩
  · rintro ⟨next, hnext, hlength, hall⟩
    exact ⟨Nat.succ_le_succ hlength, next, hnext, hall⟩

/-! ### One value -/

variable {isFirst : Bool} {read : Reader α} {Stands : Bytes → α → Prop}
  {f : Option α × Bytes → Except Fault β} {y : β}

lemma element_close (hb : IsBlanks b) :
    element isFirst read (b ++ closing false :: rest) = .ok (none, closing false :: rest) := by
  rw [element, skipBlank_append hb, skipBlank_cons (isBlank_closing false)]
  exact if_pos rfl

lemma Item.exists_cons (he : Item v e) :
    ∃ c t, v = c :: t ∧ Begins c ∧ ∀ rest, skipBlank (e ++ rest) = c :: (t ++ rest) := by
  cases he with
  | mk hn hv =>
    obtain ⟨c, t, rfl, hc⟩ := hv.exists_cons
    refine ⟨c, t, rfl, hc, fun rest => ?_⟩
    rw [List.append_assoc, skipBlank_append hn, List.cons_append, skipBlank_cons hc.1]

lemma Item.isValue (he : Item v e) : IsValue v := by
  cases he with
  | mk hn hv => exact hv

/-- What is read after a value, if it stands for something. -/
lemma read_bind_iff (hread : Reads read Stands) (hv : IsValue v) (hrest : Stops rest) :
    (read (v ++ rest)).map (fun (x, left) => (some x, left)) >>= f = .ok y ↔
      ∃ x, Stands v x ∧ f (some x, rest) = .ok y := by
  rw [Except.bind_eq_ok_iff]
  constructor
  · rintro ⟨r, hr, h⟩
    obtain ⟨⟨x, left⟩, hx, rfl⟩ := Except.exists_of_map hr
    obtain ⟨hstands, rfl⟩ := (hread.iff isBlanks_nil hv hrest).mp hx
    exact ⟨x, hstands, h⟩
  · rintro ⟨x, hstands, h⟩
    have hx : read (v ++ rest) = .ok (x, rest) :=
      (hread.iff isBlanks_nil hv hrest).mpr ⟨hstands, rfl⟩
    exact ⟨(some x, rest), by rw [hx]; rfl, h⟩

lemma element_first (hread : Reads read Stands) (he : Item v e) (hrest : Stops rest) :
    element true read (e ++ rest) >>= f = .ok y ↔ ∃ x, Stands v x ∧ f (some x, rest) = .ok y := by
  obtain ⟨c, t, hc, hbegins, hskip⟩ := he.exists_cons
  rw [← read_bind_iff hread he.isValue hrest, element, hskip, hc]
  simp only [if_neg hbegins.2.1, if_true]
  exact Iff.rfl

lemma element_next (hread : Reads read Stands) (hb : IsBlanks b) (he : Item v e)
    (hrest : Stops rest) :
    element false read (b ++ byte ',' :: (e ++ rest)) >>= f = .ok y ↔
      ∃ x, Stands v x ∧ f (some x, rest) = .ok y := by
  obtain ⟨c, t, hc, hbegins, hskip⟩ := he.exists_cons
  have hcomma : byte ',' ≠ byte ']' := by decide
  rw [← read_bind_iff hread he.isValue hrest, element, skipBlank_append hb,
    skipBlank_cons (by decide)]
  simp only [if_neg hcomma, Bool.false_eq_true, if_false, if_true, hskip, if_neg hbegins.2.1, hc]
  exact Iff.rfl

lemma listEnd_iff (h : Entries (closing false) Item false vs bs) :
    listEnd (bs ++ rest) = .ok left ↔ vs = [] ∧ left = rest := by
  cases h with
  | close hb =>
    rw [List.append_assoc, listEnd, skipBlank_append hb, List.singleton_append,
      skipBlank_cons (isBlank_closing false)]
    constructor
    · intro h
      cases h
      exact ⟨rfl, rfl⟩
    · rintro ⟨-, rfl⟩
      exact rfl
  | next hb =>
    rw [List.append_assoc, listEnd, skipBlank_append hb, List.cons_append,
      skipBlank_cons (by decide)]
    constructor
    · intro h
      cases h
    · rintro ⟨h, -⟩
      cases h

/-! ### All values -/

/-- Reads what is left of a list once its third value was looked for. -/
def afterThird (d : Option Bool) (p c : Option (Option String)) : Reader Members := fun bs =>
  do return (⟨d, p, c⟩, ← listEnd bs)

/-- Reads what is left of a list once its second value was looked for. -/
def afterSecond (d : Option Bool) (p : Option (Option String)) : Reader Members := fun bs => do
  let (c, bs) ← if p.isSome then element false path bs else .ok (none, bs)
  afterThird d p c bs

/-- Reads what is left of a list once its first value was looked for. -/
def afterFirst (d : Option Bool) : Reader Members := fun bs => do
  let (p, bs) ← if d.isSome then element false path bs else .ok (none, bs)
  afterSecond d p bs

lemma elements_eq (bs : Bytes) :
    elements bs = element true flag bs >>= fun r => afterFirst r.1 r.2 := rfl

/-- The rest of a list is read as these values under these names. -/
def ReadsValues (names : List String) (read : Reader Members) (m : Members) : Prop :=
  ∀ {vs bs rest m' left}, Entries (closing false) Item false vs bs →
    (read (bs ++ rest) = .ok (m', left) ↔ AdmitsValues names m vs m' ∧ left = rest)

/-- One value is read under its name, and then the rest under the other names. -/
lemma element_iff {set : α → Members} {after : Option α → Reader Members}
    (hread : Reads read Stands)
    (hadmits : ∀ v next, Admits m ⟨name, v⟩ next ↔ ∃ x, Stands v x ∧ next = set x)
    (hnone : after none (closing false :: rest) = .ok (m, rest))
    (hsome : ∀ x, ReadsValues names (after (some x)) (set x))
    (h : Entries (closing false) Item isFirst vs bs) :
    element isFirst read (bs ++ rest) >>= (fun r => after r.1 r.2) = .ok (m', left) ↔
      AdmitsValues (name :: names) m vs m' ∧ left = rest := by
  have hcons {v vs bs} (h : Entries (closing false) Item false vs bs) :
      (∃ x, Stands v x ∧ after (some x) (bs ++ rest) = .ok (m', left)) ↔
        AdmitsValues (name :: names) m (v :: vs) m' ∧ left = rest := by
    simp only [hsome _ h, admitsValues_cons, hadmits]
    constructor
    · rintro ⟨x, hx, hvs, hleft⟩
      exact ⟨⟨set x, ⟨x, hx, rfl⟩, hvs⟩, hleft⟩
    · rintro ⟨⟨next, ⟨x, hx, rfl⟩, hvs⟩, hleft⟩
      exact ⟨x, hx, hvs, hleft⟩
  cases h with
  | close hb =>
    rw [List.append_assoc, List.singleton_append, element_close hb, ok_bind, hnone,
      admitsValues_nil]
    constructor
    · intro h
      cases h
      exact ⟨rfl, rfl⟩
    · rintro ⟨rfl, rfl⟩
      exact rfl
  | first he h =>
    rw [List.append_assoc, element_first hread he (h.stops rest)]
    exact hcons h
  | next hb he h =>
    rw [List.append_assoc, List.cons_append, List.append_assoc,
      element_next hread hb he (h.stops rest)]
    exact hcons h

lemma afterThird_iff {d p c} : ReadsValues [] (afterThird d p c) ⟨d, p, c⟩ := by
  intro vs bs rest m' left h
  rw [afterThird, Except.bind_eq_ok_iff]
  constructor
  · rintro ⟨after, hafter, heq⟩
    cases heq
    obtain ⟨rfl, rfl⟩ := (listEnd_iff h).mp hafter
    exact ⟨admitsValues_nil.mpr rfl, rfl⟩
  · rintro ⟨hvalues, rfl⟩
    cases vs with
    | nil =>
      rw [admitsValues_nil] at hvalues
      exact ⟨left, (listEnd_iff h).mpr ⟨rfl, rfl⟩, by rw [hvalues]; rfl⟩
    | cons v vs => exact absurd hvalues.1 (Nat.not_succ_le_zero _)

lemma afterSecond_iff {d p} :
    ReadsValues ["config_file"] (afterSecond d (some p)) ⟨d, some p, none⟩ := by
  intro vs bs rest m' left h
  exact element_iff reads_path (by simp [Admits, Gains]) rfl (fun x => afterThird_iff) h

lemma afterFirst_iff {d} :
    ReadsValues ["pid_file", "config_file"] (afterFirst (some d)) ⟨some d, none, none⟩ := by
  intro vs bs rest m' left h
  exact element_iff reads_path (by simp [Admits, Gains]) rfl (fun x => afterSecond_iff) h

/-- The values of a list are read under the known names. -/
theorem elements_iff (h : Entries (closing false) Item true vs bs) :
    elements (bs ++ rest) = .ok (m', left) ↔ AdmitsValues knownNames {} vs m' ∧ left = rest := by
  rw [elements_eq]
  exact element_iff reads_flag (by simp [Admits, Gains]) rfl (fun x => afterFirst_iff) h

/-! ### What is read is a list -/

/-- Either the list ends, or one more value is written. -/
lemma exists_of_element {a : Option α} (hread : Reads read Stands)
    (h : element isFirst read bs = .ok (a, left)) :
    (∃ l r, a = none ∧ left = closing false :: r ∧ bs = l ++ closing false :: r ∧ IsBlanks l) ∨
      ∃ x v e, a = some x ∧ bs = e ++ left ∧ ∀ {vs t}, Entries (closing false) Item false vs t →
        Entries (closing false) Item isFirst (v :: vs) (e ++ t) := by
  obtain ⟨l, hsplit, hl⟩ := exists_blanks bs
  unfold element at h
  split at h
  · cases h
  · rename_i b after hbs
    rw [hbs] at hsplit
    split_ifs at h with hb hfirst hcomma
    · cases h
      exact .inl ⟨l, after, rfl, by rw [hb]; rfl, by rw [hsplit, hb]; rfl, hl⟩
    · subst hfirst
      obtain ⟨⟨x, left'⟩, hx, heq⟩ := Except.exists_of_map h
      cases heq
      obtain ⟨n, v, hv, hn, hstands⟩ := hread.exists_of_ok hx
      refine .inr ⟨x, v, l ++ n ++ v, rfl, by rw [hsplit, hv]; simp, fun ht => ?_⟩
      exact .first (.mk (hl.append hn) (hread.isValue hstands)) ht
    · obtain rfl : isFirst = false := by simpa using hfirst
      obtain ⟨l', hafter, hl'⟩ := exists_blanks after
      split at h
      · cases h
      · rename_i c behind hbehind
        rw [hbehind] at hafter
        split_ifs at h
        obtain ⟨⟨x, left'⟩, hx, heq⟩ := Except.exists_of_map h
        cases heq
        obtain ⟨n, v, hv, hn, hstands⟩ := hread.exists_of_ok hx
        refine .inr ⟨x, v, l ++ byte ',' :: (l' ++ n ++ v), rfl,
          by rw [hsplit, hcomma, hafter, hv]; simp, fun {vs t} ht => ?_⟩
        rw [List.append_assoc, List.cons_append]
        exact .next hl (.mk (hl'.append hn) (hread.isValue hstands)) ht

/-- Whatever is read as the rest of a list is written as one. -/
def Ends (read : Reader Members) : Prop :=
  ∀ {bs m' rest}, read bs = .ok (m', rest) →
    ∃ vs t, bs = t ++ rest ∧ Entries (closing false) Item false vs t

lemma exists_of_slot {after : Option α → Reader Members} (hread : Reads read Stands)
    (hnone : ∀ r, after none (closing false :: r) = .ok (m, r)) (hsome : ∀ x, Ends (after (some x)))
    (h : element isFirst read bs >>= (fun r => after r.1 r.2) = .ok (m', rest)) :
    ∃ vs t, bs = t ++ rest ∧ Entries (closing false) Item isFirst vs t := by
  obtain ⟨⟨a, left⟩, helement, hafter⟩ := Except.exists_of_bind h
  rcases exists_of_element hread helement with ⟨l, r, rfl, rfl, rfl, hl⟩ | ⟨x, v, e, rfl, rfl, he⟩
  · have hr : after none (closing false :: r) = .ok (m', rest) := hafter
    rw [hnone] at hr
    cases hr
    exact ⟨[], l ++ [closing false], by simp, .close hl⟩
  · obtain ⟨vs, t, rfl, ht⟩ := hsome x hafter
    exact ⟨v :: vs, e ++ t, by simp, he ht⟩

lemma ends_afterThird {d p c} : Ends (afterThird d p c) := by
  intro bs m' rest h
  obtain ⟨left, hend, heq⟩ := Except.exists_of_bind h
  cases heq
  obtain ⟨l, hsplit, hl⟩ := exists_blanks bs
  unfold listEnd at hend
  split at hend
  · cases hend
  · rename_i b after hbs
    rw [hbs] at hsplit
    split at hend
    · rename_i hb
      cases hend
      exact ⟨[], l ++ [closing false], by rw [hsplit, hb]; simp [closing], .close hl⟩
    · cases hend

lemma ends_afterSecond {d p} : Ends (afterSecond d (some p)) :=
  fun h => exists_of_slot reads_path (fun _ => rfl) (fun _ => ends_afterThird) h

lemma ends_afterFirst {d} : Ends (afterFirst (some d)) :=
  fun h => exists_of_slot reads_path (fun _ => rfl) (fun _ => ends_afterSecond) h

/-- Whatever is read to the end of a list is its values. -/
theorem exists_of_elements (h : elements bs = .ok (m', rest)) :
    ∃ vs t, bs = t ++ rest ∧ Entries (closing false) Item true vs t :=
  exists_of_slot reads_flag (fun _ => rfl) (fun _ => ends_afterFirst) h

end

end Overseer.Config
