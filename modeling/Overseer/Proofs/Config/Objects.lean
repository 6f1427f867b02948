import Overseer.Proofs.Config.Values

/-!
# Configurations as objects

An object is read as what its members mean, one after another. A member means something by the text
that its name spells and by its value, and only if the name is known.
-/

namespace Overseer.Config

open Json

/-- The names that mean something, in the order of their values in a list. -/
def knownNames : List String := ["is_daemon", "pid_file", "config_file"]

/-- A member of an object: the text that its name spells, and its value as it is written. -/
structure Member where
  name : String
  value : Bytes

/-- How a member is written, with white space anywhere. -/
inductive Member.Written (m : Member) : Bytes → Prop where
  | mk {l raw c n} (hl : IsBlanks l) (hraw : Spells raw m.name) (hc : IsBlanks c) (hn : IsBlanks n)
      (hv : IsValue m.value) :
      m.Written (l ++ byte '"' :: (raw ++ byte '"' :: (c ++ byte ':' :: (n ++ m.value))))

section Containers

variable {α : Type} (close : UInt8) (Written : α → Bytes → Prop)

/-- How the entries of a container are written, and its end. They are told apart by whether they are
all of it or come after another one. -/
inductive Entries : Bool → List α → Bytes → Prop where
  | close {isFirst b} (hb : IsBlanks b) : Entries isFirst [] (b ++ [close])
  | first {x e xs bs} (hx : Written x e) (h : Entries false xs bs) :
      Entries true (x :: xs) (e ++ bs)
  | next {b x e xs bs} (hb : IsBlanks b) (hx : Written x e) (h : Entries false xs bs) :
      Entries false (x :: xs) (b ++ byte ',' :: (e ++ bs))

end Containers

/-- The bytes are an object with these members. -/
inductive ObjectText (ms : List Member) : Bytes → Prop where
  | mk {l bs r} (hl : IsBlanks l) (h : Entries (closing true) Member.Written true ms bs)
      (hr : IsBlanks r) :
      ObjectText ms (l ++ byte '\x7b' :: (bs ++ r))

/-! ### One member -/

/-- A value that is new makes of the members others, if it stands for something. -/
def Gains {α : Type} (Stands : Bytes → α → Prop) (old : Option α) (set : α → Members) (v : Bytes)
    (m' : Members) : Prop :=
  old = none ∧ ∃ x, Stands v x ∧ m' = set x

/-- What the members become by one more. -/
def Admits (m : Members) (x : Member) (m' : Members) : Prop :=
  if x.name = "is_daemon" then
    Gains IsFlag m.isDaemon (fun b => { m with isDaemon := some b }) x.value m'
  else if x.name = "pid_file" then
    Gains IsPath m.pidFile (fun p => { m with pidFile := some p }) x.value m'
  else if x.name = "config_file" then
    Gains IsPath m.configFile (fun p => { m with configFile := some p }) x.value m'
  else m' = m

section

variable {α : Type} {m m' : Members} {x : Member} {b c e l v rest left bs : Bytes}

lemma colon_append (hc : IsBlanks c) (bs : Bytes) : colon (c ++ byte ':' :: bs) = .ok bs := by
  rw [colon, skipBlank_append hc, skipBlank_cons (by decide)]
  exact rfl

lemma exists_of_colon (h : colon bs = .ok rest) : ∃ c, bs = c ++ byte ':' :: rest ∧ IsBlanks c := by
  obtain ⟨c, hsplit, hc⟩ := exists_blanks bs
  unfold colon at h
  split at h
  · cases h
  · rename_i b bs' hbs
    split at h
    · rename_i hb
      cases h
      exact ⟨c, by rw [hsplit, hbs, hb], hc⟩
    · cases h

/-- A known member is read exactly if it is new and its value stands for something. -/
lemma once_iff {read : Reader α} {Stands : Bytes → α → Prop} (hread : Reads read Stands)
    {old : Option α} {set : α → Members} (hc : IsBlanks c) (hl : IsBlanks l) (hv : IsValue v)
    (hrest : Stops rest) :
    once old read set (c ++ byte ':' :: (l ++ (v ++ rest))) = .ok (m', left) ↔
      Gains Stands old set v m' ∧ left = rest := by
  cases old with
  | some y =>
    refine ⟨fun h => ?_, fun h => ?_⟩
    · cases h
    · cases h.1.1
  | none =>
    simp only [once, Option.isSome_none, Bool.false_eq_true, if_false, colon_append hc, ok_bind]
    rw [Except.bind_eq_ok_iff]
    constructor
    · rintro ⟨⟨y, after⟩, hy, h⟩
      cases h
      obtain ⟨hstands, hleft⟩ := (hread.iff hl hv hrest).mp hy
      exact ⟨⟨rfl, y, hstands, rfl⟩, hleft⟩
    · rintro ⟨⟨-, y, hstands, rfl⟩, rfl⟩
      exact ⟨(y, left), (hread.iff hl hv hrest).mpr ⟨hstands, rfl⟩, rfl⟩

/-- A member is read exactly if it is admitted. -/
lemma member_iff (hc : IsBlanks c) (hl : IsBlanks l) (hv : IsValue x.value) (hrest : Stops rest) :
    member x.name m (c ++ byte ':' :: (l ++ (x.value ++ rest))) = .ok (m', left) ↔
      Admits m x m' ∧ left = rest := by
  unfold member Admits
  split_ifs
  · exact once_iff reads_flag hc hl hv hrest
  · exact once_iff reads_path hc hl hv hrest
  · exact once_iff reads_path hc hl hv hrest
  · simp only [colon_append hc, ok_bind, skipValue_value hl hv hrest]
    constructor
    · intro h
      cases h
      exact ⟨rfl, rfl⟩
    · rintro ⟨rfl, rfl⟩
      exact rfl

/-- A member begins with the quote before its name. -/
lemma Member.Written.exists_cons (hx : x.Written e) :
    ∃ t, ∀ rest, skipBlank (e ++ rest) = byte '"' :: (t ++ rest) := by
  cases hx with
  | @mk l raw c n hl hraw hc hn hv =>
    refine ⟨raw ++ byte '"' :: (c ++ byte ':' :: (n ++ x.value)), fun rest => ?_⟩
    rw [List.append_assoc, skipBlank_append hl, List.cons_append, skipBlank_cons (by decide)]

/-- A member is read as it is written. -/
lemma named_iff (hx : x.Written e) (hrest : Stops rest) :
    named m (skipBlank (e ++ rest)) = .ok (m', left) ↔ Admits m x m' ∧ left = rest := by
  cases hx with
  | @mk l raw c n hl hraw hc hn hv =>
    have htext : text (raw ++ byte '"' :: (c ++ byte ':' :: (n ++ (x.value ++ rest)))) =
        .ok (x.name, c ++ byte ':' :: (n ++ (x.value ++ rest))) :=
      text_eq_ok_iff.mpr ⟨raw, rfl, hraw⟩
    simp only [List.append_assoc, List.cons_append]
    rw [skipBlank_append hl, skipBlank_cons (by decide), named, if_pos rfl, htext]
    exact member_iff hc hn hv hrest

/-! ### All members -/

/-- What the members become by more of them, one after another. -/
def AdmitsAll (m : Members) : List Member → Members → Prop
  | [], m' => m' = m
  | x :: xs, m' => ∃ next, Admits m x next ∧ AdmitsAll next xs m'

/-- What comes after an entry of a container ends it. -/
lemma Entries.stops {W : α → Bytes → Prop} {xs : List α} {k : Bool}
    (h : Entries (closing k) W false xs bs) (rest : Bytes) : Stops (bs ++ rest) := by
  cases h with
  | close hb =>
    rw [List.append_assoc]
    exact hb.stops (stops_closing k) rest
  | next hb =>
    rw [List.append_assoc]
    exact hb.stops stops_comma _

lemma Entries.length_le {W : α → Bytes → Prop} {xs : List α} {close : UInt8} {isFirst : Bool}
    (h : Entries close W isFirst xs bs) : xs.length + (if isFirst then 0 else 1) ≤ bs.length := by
  induction h with
  | @close isFirst b hb => cases isFirst <;> simp
  | first hx h ih =>
    simp only [Bool.false_eq_true, if_false, if_true, List.length_cons, List.length_append] at ih ⊢
    omega
  | next hb hx h ih =>
    simp only [Bool.false_eq_true, if_false, List.length_cons, List.length_append] at ih ⊢
    omega

variable {ms : List Member} {n : Nat}

lemma members_close {isFirst : Bool} (hb : IsBlanks b) :
    members (n + 1) isFirst m (b ++ closing true :: rest) = .ok (m, rest) := by
  rw [members, skipBlank_append hb, skipBlank_cons (isBlank_closing true)]
  exact if_pos rfl

/-- What is read after a member that comes first or next. -/
lemma named_bind_iff {read : Members × Bytes → Except Fault α} {y : α} (hx : x.Written e)
    (hrest : Stops rest) :
    named m (skipBlank (e ++ rest)) >>= read = .ok y ↔
      ∃ next, Admits m x next ∧ read (next, rest) = .ok y := by
  rw [Except.bind_eq_ok_iff]
  constructor
  · rintro ⟨⟨next, after⟩, hnext, h⟩
    obtain ⟨hadmits, rfl⟩ := (named_iff hx hrest).mp hnext
    exact ⟨next, hadmits, h⟩
  · rintro ⟨next, hadmits, h⟩
    exact ⟨(next, rest), (named_iff hx hrest).mpr ⟨hadmits, rfl⟩, h⟩

lemma members_next_iff (hb : IsBlanks b) (hx : x.Written e) (hrest : Stops rest) :
    members (n + 1) false m (b ++ byte ',' :: (e ++ rest)) = .ok (m', left) ↔
      ∃ next, Admits m x next ∧ members n false next rest = .ok (m', left) := by
  rw [members, skipBlank_append hb, skipBlank_cons (by decide)]
  exact named_bind_iff hx hrest

lemma members_first_iff (hx : x.Written e) (hrest : Stops rest) :
    members (n + 1) true m (e ++ rest) = .ok (m', left) ↔
      ∃ next, Admits m x next ∧ members n false next rest = .ok (m', left) := by
  obtain ⟨t, ht⟩ := hx.exists_cons
  have hnamed : named m (skipBlank (e ++ rest)) >>= (fun r => members n false r.1 r.2) =
      .ok (m', left) ↔ _ := named_bind_iff hx hrest
  rw [ht] at hnamed
  rw [members, ht]
  exact hnamed

lemma admitsAll_cons {p : Prop} :
    (∃ next, Admits m x next ∧ AdmitsAll next ms m' ∧ p) ↔ AdmitsAll m (x :: ms) m' ∧ p := by
  constructor
  · rintro ⟨next, hnext, hall, h⟩
    exact ⟨⟨next, hnext, hall⟩, h⟩
  · rintro ⟨⟨next, hnext, hall⟩, h⟩
    exact ⟨next, hnext, hall, h⟩

/-- Members are read as they are written. -/
lemma members_iff {isFirst : Bool} (h : Entries (closing true) Member.Written isFirst ms bs)
    (hn : ms.length < n) :
    members n isFirst m (bs ++ rest) = .ok (m', left) ↔ AdmitsAll m ms m' ∧ left = rest := by
  induction h generalizing m n with
  | close hb =>
    obtain ⟨n, rfl⟩ := Nat.exists_eq_succ_of_ne_zero (Nat.ne_of_gt hn)
    rw [List.append_assoc, List.singleton_append, members_close hb]
    constructor
    · intro h
      cases h
      exact ⟨rfl, rfl⟩
    · rintro ⟨rfl, rfl⟩
      exact rfl
  | first hx h ih =>
    obtain ⟨n, rfl⟩ := Nat.exists_eq_succ_of_ne_zero (Nat.ne_of_gt (Nat.zero_lt_of_lt hn))
    rw [List.append_assoc, members_first_iff hx (h.stops rest), ← admitsAll_cons]
    exact exists_congr fun next => and_congr_right fun _ => ih (Nat.lt_of_succ_lt_succ hn)
  | next hb hx h ih =>
    obtain ⟨n, rfl⟩ := Nat.exists_eq_succ_of_ne_zero (Nat.ne_of_gt (Nat.zero_lt_of_lt hn))
    rw [List.append_assoc, List.cons_append, List.append_assoc,
      members_next_iff hb hx (h.stops rest), ← admitsAll_cons]
    exact exists_congr fun next => and_congr_right fun _ => ih (Nat.lt_of_succ_lt_succ hn)

/-! ### What is read is an object -/

lemma exists_of_once {read : Reader α} {Stands : Bytes → α → Prop} (hread : Reads read Stands)
    {old : Option α} {set : α → Members} (h : once old read set bs = .ok (m', rest)) :
    ∃ c n v, bs = c ++ byte ':' :: (n ++ (v ++ rest)) ∧ IsBlanks c ∧ IsBlanks n ∧ IsValue v := by
  unfold once at h
  split at h
  · cases h
  · obtain ⟨behind, hcolon, h⟩ := Except.exists_of_bind h
    obtain ⟨⟨y, after⟩, hy, h⟩ := Except.exists_of_bind h
    cases h
    obtain ⟨c, rfl, hc⟩ := exists_of_colon hcolon
    obtain ⟨n, v, rfl, hn, hv⟩ := hread.exists_of_ok hy
    exact ⟨c, n, v, rfl, hc, hn, hread.isValue hv⟩

/-- Whatever is read as a member has a value. -/
lemma exists_of_member {name : String} (h : member name m bs = .ok (m', rest)) :
    ∃ c n v, bs = c ++ byte ':' :: (n ++ (v ++ rest)) ∧ IsBlanks c ∧ IsBlanks n ∧ IsValue v := by
  unfold member at h
  split_ifs at h
  · exact exists_of_once reads_flag h
  · exact exists_of_once reads_path h
  · exact exists_of_once reads_path h
  · obtain ⟨behind, hcolon, h⟩ := Except.exists_of_bind h
    obtain ⟨after, hskip, h⟩ := Except.exists_of_bind h
    cases h
    obtain ⟨c, rfl, hc⟩ := exists_of_colon hcolon
    obtain ⟨n, v, rfl, hn, hv⟩ := exists_of_skipValue hskip
    exact ⟨c, n, v, rfl, hc, hn, hv⟩

/-- Whatever is read as a name and a value is a member. -/
lemma exists_of_named (h : named m bs = .ok (m', rest)) :
    ∃ (x : Member) (e : Bytes), bs = e ++ rest ∧ x.Written e := by
  unfold named at h
  split at h
  · cases h
  · rename_i q bs
    split at h
    · rename_i hq
      obtain ⟨⟨name, after⟩, htext, hmember⟩ := Except.exists_of_bind h
      obtain ⟨raw, rfl, hraw⟩ := text_eq_ok_iff.mp htext
      obtain ⟨c, n, v, rfl, hc, hn, hv⟩ := exists_of_member hmember
      exact ⟨⟨name, v⟩, _, by rw [hq]; simp, .mk isBlanks_nil hraw hc hn hv⟩
    · cases h

/-- White space may stand before a member. -/
lemma Member.Written.blanks (hl : IsBlanks l) (hx : x.Written e) : x.Written (l ++ e) := by
  cases hx with
  | mk hl' hraw hc hn hv =>
    rw [← List.append_assoc]
    exact .mk (hl.append hl') hraw hc hn hv

/-- Whatever is read to the end of an object is its members. -/
lemma exists_of_members {isFirst : Bool} (h : members n isFirst m bs = .ok (m', rest)) :
    ∃ ms t, bs = t ++ rest ∧ Entries (closing true) Member.Written isFirst ms t := by
  induction n generalizing isFirst m bs with
  | zero => cases h
  | succ n ih =>
    obtain ⟨l, hsplit, hl⟩ := exists_blanks bs
    unfold members at h
    split at h
    · cases h
    · rename_i b after hbs
      rw [hbs] at hsplit
      split_ifs at h with hb hfirst hcomma
      · cases h
        exact ⟨[], l ++ [closing true], by rw [hsplit, hb]; simp [closing], .close hl⟩
      · subst hfirst
        obtain ⟨⟨next, left⟩, hnamed, hrest⟩ := Except.exists_of_bind h
        obtain ⟨x, e, he, hx⟩ := exists_of_named hnamed
        obtain ⟨ms, t, rfl, ht⟩ := ih hrest
        exact ⟨x :: ms, l ++ e ++ t, by rw [hsplit, he]; simp, .first (hx.blanks hl) ht⟩
      · obtain rfl : isFirst = false := by simpa using hfirst
        obtain ⟨⟨next, left⟩, hnamed, hrest⟩ := Except.exists_of_bind h
        obtain ⟨l', hafter, hl'⟩ := exists_blanks after
        obtain ⟨x, e, he, hx⟩ := exists_of_named hnamed
        obtain ⟨ms, t, rfl, ht⟩ := ih hrest
        exact ⟨x :: ms, l ++ byte ',' :: (l' ++ e ++ t), by rw [hsplit, hcomma, hafter, he]; simp,
          .next hl (hx.blanks hl') ht⟩

end

end Overseer.Config
