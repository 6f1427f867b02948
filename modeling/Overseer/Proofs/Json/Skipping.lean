import Overseer.Proofs.Json.Numbers

/-!
# Values are skipped as they are written

Skipping a value leaves what stands behind it, however deep the value is nested, and what is
skipped is a value.
-/

namespace Overseer.Json

/-- Where the skipping of a part stands at first, and in which container. -/
def Part.place : Part → SkipAt
  | .value => .value
  | .within _ => .opened
  | .behind _ => .after

def Part.frames : Part → List Bool
  | .value => []
  | .within k | .behind k => [k]

variable {b : UInt8} {bs l v raw rest : Bytes} {n : Nat} {k : Bool} {frames : List Bool}
  {place : SkipAt}

/-! ### Steps -/

/-- How the skipping goes on once a value has ended that stands in these containers. -/
def skipAfter (n : Nat) (frames : List Bool) (rest : Bytes) : Except Fault Bytes :=
  if frames.isEmpty then .ok rest else skipOn n .after frames rest

lemma skipOn_blanks (hl : IsBlanks l) :
    skipOn n place frames (l ++ bs) = skipOn n place frames bs := by
  cases n with
  | zero => rfl
  | succ n =>
    unfold skipOn
    rw [skipBlank_append hl]

lemma skipOn_of_nil (h : skipBlank bs = []) : skipOn n place frames bs = .error .ended := by
  cases n with
  | zero => rfl
  | succ n =>
    unfold skipOn
    rw [h]

/-- Where a value has to stand. -/
lemma skipOn_value (h : skipBlank bs = b :: rest) :
    skipOn (n + 1) .value frames bs =
      if b = byte '[' then skipOn n .opened (false :: frames) rest
      else if b = byte '\x7b' then skipOn n .opened (true :: frames) rest
      else (skipScalar b rest).bind (skipAfter n frames) := by
  rw [skipOn.eq_def]
  simp only [h]
  cases frames <;> exact rfl

/-- What is left where a value in a container comes next. -/
def nextValue (place : SkipAt) (k : Bool) (b : UInt8) (rest : Bytes) : Except Fault Bytes :=
  let inside := if place = .after then rest else b :: rest
  if k then skipName inside else .ok inside

/-- Inside of a container, where a value has ended or none has begun. -/
lemma skipOn_inside (hplace : place ≠ .value) (h : skipBlank bs = b :: rest) :
    skipOn (n + 1) place (k :: frames) bs =
      if b = closing k then skipAfter n frames rest
      else if place = .after && b ≠ byte ',' then .error .malformed
      else (nextValue place k b rest).bind (skipOn n .value (k :: frames)) := by
  rw [skipOn.eq_def]
  simp only [h]
  cases place with
  | value => exact absurd rfl hplace
  | opened => cases k <;> exact rfl
  | after => cases k <;> exact rfl

/-! ### Names and scalars -/

lemma word_append (w rest : Bytes) : word w (w ++ rest) = .ok rest := by
  induction w with
  | nil => rfl
  | cons b w ih => rw [List.cons_append, word, if_pos rfl, ih]

lemma eq_append_of_word {w : Bytes} (h : word w bs = .ok rest) : bs = w ++ rest := by
  induction w generalizing bs with
  | nil =>
    cases h
    rfl
  | cons b w ih =>
    cases bs with
    | nil => cases h
    | cons a bs =>
      rw [word] at h
      split at h
      · rename_i hb
        rw [hb, List.cons_append, ih h]
      · cases h

lemma skipName_name {c : Bytes} (hl : IsBlanks l) (hraw : Quotable raw) (hc : IsBlanks c)
    (rest : Bytes) :
    skipName (l ++ byte '"' :: (raw ++ byte '"' :: (c ++ byte ':' :: rest))) = .ok rest := by
  rw [skipName, skipBlank_append hl, skipBlank_cons (by decide)]
  simp only [ne_eq, not_true_eq_false, if_false, skipText_quotable hraw, ok_bind,
    skipBlank_append hc]
  rw [skipBlank_cons (by decide)]
  exact rfl

lemma exists_of_skipName (h : skipName bs = .ok rest) :
    ∃ l raw c, bs = l ++ byte '"' :: (raw ++ byte '"' :: (c ++ byte ':' :: rest)) ∧
      IsBlanks l ∧ Quotable raw ∧ IsBlanks c := by
  obtain ⟨l, hl, hblanks⟩ := exists_blanks bs
  unfold skipName at h
  split at h
  · cases h
  · rename_i q bs' hbs
    split at h
    · cases h
    · rename_i hq
      obtain ⟨bs'', htext, hrest⟩ := Except.exists_of_bind h
      obtain ⟨raw, rfl, hraw⟩ := exists_of_skipText htext
      obtain ⟨c, hc, hblanks'⟩ := exists_blanks bs''
      split at hrest
      · cases hrest
      · rename_i hcolon
        split at hrest
        · rename_i hb
          cases hrest
          refine ⟨l, raw, c, ?_, hblanks, hraw, hblanks'⟩
          rw [hl, hbs, hc, hcolon, hb, not_ne_iff.mp hq]
        · cases hrest

/-- The first byte of a value tells that one begins. -/
def Begins (b : UInt8) : Prop := isBlank b = false ∧ b ≠ byte ']' ∧ b ≠ byte '\x7d' ∧ b ≠ byte ','

instance (b : UInt8) : Decidable (Begins b) :=
  inferInstanceAs (Decidable (_ ∧ _ ∧ _ ∧ _))

lemma begins_of_isDigit (h : isDigit b = true) : Begins b := by
  refine ⟨?_, ?_, ?_, ?_⟩
  · cases hblank : isBlank b with
    | false => rfl
    | true =>
      simp only [isBlank, Bool.or_eq_true, decide_eq_true_eq] at hblank
      rcases hblank with ((rfl | rfl) | rfl) | rfl <;> cases h
  all_goals
    rintro rfl
    cases h

lemma Unsigned.exists_cons (h : Unsigned v) : ∃ d ds, v = d :: ds ∧ isDigit d = true := by
  cases h with
  | @mk w f e hw hf he =>
    cases w with
    | nil => exact absurd rfl hw.1.1
    | cons d w => exact ⟨d, _, rfl, hw.1.2 d List.mem_cons_self⟩

lemma IsValue.exists_cons (h : IsValue v) : ∃ b bs, v = b :: bs ∧ Begins b := by
  cases h with
  | null => exact ⟨_, _, rfl, by decide⟩
  | bool b => cases b <;> exact ⟨_, _, rfl, by decide⟩
  | number h =>
    obtain ⟨d, ds, rfl, hd⟩ := h.exists_cons
    exact ⟨d, ds, rfl, begins_of_isDigit hd⟩
  | negative | text => exact ⟨_, _, rfl, by decide⟩
  | @container k => cases k <;> exact ⟨_, _, rfl, by decide⟩

/-- A value that is no container is skipped to its end. -/
lemma skipScalar_number (h : Unsigned (b :: bs)) (hstops : Stops rest) :
    skipScalar b (bs ++ rest) = .ok rest := by
  obtain ⟨d, ds, heq, hd⟩ := h.exists_cons
  cases heq
  obtain ⟨x, hx⟩ : ∃ x, numeral false (b :: bs ++ rest) = .ok (x, rest) :=
    numeral_unsigned h hstops
  have hne {c : Char} (hc : isDigit (byte c) = false) : b ≠ byte c := by
    rintro rfl
    rw [hd] at hc
    cases hc
  rw [skipScalar, if_neg (hne (by decide)), if_neg (hne (by decide)), if_neg (hne (by decide)),
    if_neg (hne (by decide)), if_pos hd, ← List.cons_append, hx]
  rfl

lemma skipScalar_negative (h : Unsigned v) (hstops : Stops rest) :
    skipScalar (byte '-') (v ++ rest) = .ok rest := by
  obtain ⟨x, hx⟩ : ∃ x, numeral false (v ++ rest) = .ok (x, rest) := numeral_unsigned h hstops
  rw [skipScalar, if_neg (by decide), if_neg (by decide), if_neg (by decide), if_pos rfl, hx]
  rfl

/-- What is skipped as a value that is no container is one. -/
lemma exists_of_skipScalar (h : skipScalar b bs = .ok rest) :
    ∃ v, b :: bs = v ++ rest ∧ IsValue v := by
  have hword {w : Bytes} (hv : IsValue (b :: w)) (h : word w bs = .ok rest) :
      ∃ v, b :: bs = v ++ rest ∧ IsValue v :=
    ⟨b :: w, by rw [eq_append_of_word h]; rfl, hv⟩
  unfold skipScalar at h
  split at h
  · rename_i hb
    exact hword (by rw [hb]; exact .null) h
  split at h
  · rename_i hb
    exact hword (by rw [hb]; exact .bool true) h
  split at h
  · rename_i hb
    exact hword (by rw [hb]; exact .bool false) h
  split at h
  · rename_i hb
    obtain ⟨⟨x, rest⟩, hx, rfl⟩ := Except.exists_of_map h
    obtain ⟨w, rfl, hw⟩ := exists_of_numeral hx
    exact ⟨byte '-' :: w, by rw [hb]; rfl, .negative hw⟩
  split at h
  · obtain ⟨⟨x, rest⟩, hx, rfl⟩ := Except.exists_of_map h
    obtain ⟨w, hw, hunsigned⟩ := exists_of_numeral hx
    exact ⟨w, hw, .number hunsigned⟩
  split at h
  · rename_i hb
    obtain ⟨raw, rfl, hraw⟩ := exists_of_skipText h
    exact ⟨byte '"' :: (raw ++ [byte '"']), by rw [hb]; simp, .text hraw⟩
  · cases h

/-! ### What is written as a value is skipped -/

/-- The part is skipped to its end, in fewer than two steps for each byte. -/
def Skips (part : Part) (bs : Bytes) : Prop :=
  ∃ s, s < 2 * bs.length ∧ ∀ n frames rest, Stops rest →
    skipOn (n + s) part.place (part.frames ++ frames) (bs ++ rest) = skipAfter n frames rest

lemma closing_cases (k : Bool) : closing k = byte ']' ∨ closing k = byte '\x7d' := by
  cases k
  · exact .inl rfl
  · exact .inr rfl

lemma stops_closing (k : Bool) : Stops [closing k] := by
  intro b hb
  cases hb
  exact .inr (.inr (closing_cases k))

lemma isBlank_closing (k : Bool) : isBlank (closing k) = false := by
  cases k <;> decide

lemma Begins.ne_closing (h : Begins b) (k : Bool) : b ≠ closing k := by
  rcases closing_cases k with hk | hk <;> rw [hk]
  · exact h.2.1
  · exact h.2.2.1

lemma skipOn_close (hplace : place ≠ .value) (hl : IsBlanks l) :
    skipOn (n + 1) place (k :: frames) (l ++ (closing k :: rest)) = skipAfter n frames rest := by
  rw [skipOn_blanks hl, skipOn_inside hplace (skipBlank_cons (isBlank_closing k)), if_pos rfl]

lemma skipOn_open : skipOn (n + 1) .value frames (opening k :: rest) =
    skipOn n .opened (k :: frames) rest := by
  cases k with
  | false => rw [skipOn_value (skipBlank_cons (by decide)), if_pos (by decide)]
  | true =>
    rw [skipOn_value (skipBlank_cons (by decide)), if_neg (by decide), if_pos (by decide)]

lemma skipOn_scalar (hblank : isBlank b = false) (hopen : ∀ k, b ≠ opening k)
    (h : skipScalar b bs = .ok rest) :
    skipOn (n + 1) .value frames (b :: bs) = skipAfter n frames rest := by
  have hlist : b ≠ byte '[' := hopen false
  have hobject : b ≠ byte '\x7b' := hopen true
  rw [skipOn_value (skipBlank_cons hblank), if_neg hlist, if_neg hobject, h]
  rfl

/-- The name before a value is skipped, if there has to be one, and its colon. -/
def skipLead (k : Bool) (bs : Bytes) : Except Fault Bytes := if k then skipName bs else .ok bs

lemma skipLead_append (hl : Lead k l) (v : Bytes) :
    ∃ l', IsBlanks l' ∧ skipLead k (l ++ v) = .ok (l' ++ v) := by
  cases hl with
  | item hl => exact ⟨l, hl, rfl⟩
  | @name l raw c l' hl hraw hc hl' =>
    refine ⟨l', hl', ?_⟩
    simp only [List.append_assoc, List.cons_append]
    exact skipName_name hl hraw hc _

/-- White space does not matter before a name. -/
lemma skipLead_blanks (hl : IsBlanks l) (v : Bytes) {n : Nat} :
    (skipLead k (l ++ v)).bind (skipOn n .value (k :: frames)) =
      (skipLead k v).bind (skipOn n .value (k :: frames)) := by
  cases k with
  | false => exact skipOn_blanks hl
  | true =>
    have hname : skipName (l ++ v) = skipName v := by
      rw [skipName, skipName, skipBlank_append hl]
    rw [skipLead, if_pos rfl, hname]
    rfl

/-- Before the first value of a container. -/
lemma skipOn_first (hl : Lead k l) (hv : IsValue v) :
    skipOn (n + 1) .opened (k :: frames) (l ++ (v ++ rest)) =
      skipOn n .value (k :: frames) (v ++ rest) := by
  obtain ⟨l', hl', hlead⟩ := skipLead_append hl (v ++ rest)
  -- the container does not end where its first value begins
  obtain ⟨b, bs, hbs, hb⟩ : ∃ b bs, skipBlank (l ++ (v ++ rest)) = b :: bs ∧ b ≠ closing k := by
    cases hl with
    | item hl =>
      obtain ⟨b, bs, rfl, hb⟩ := hv.exists_cons
      rw [skipBlank_append hl]
      exact ⟨b, _, skipBlank_cons hb.1, hb.ne_closing false⟩
    | name hl =>
      rw [List.append_assoc, skipBlank_append hl]
      exact ⟨byte '"', _, skipBlank_cons (by decide), by decide⟩
  obtain ⟨l'', hsplit, hl''⟩ := exists_blanks (l ++ (v ++ rest))
  rw [hbs] at hsplit
  rw [skipOn_inside (by decide) hbs, if_neg hb, if_neg (by simp)]
  change (skipLead k (b :: bs)).bind _ = _
  rw [← skipLead_blanks hl'', ← hsplit, hlead]
  exact skipOn_blanks hl'

/-- Before a value that is not the first. -/
lemma skipOn_next (hbs : IsBlanks bs) (hl : Lead k l) (v : Bytes) :
    skipOn (n + 1) .after (k :: frames) (bs ++ byte ',' :: (l ++ v)) =
      skipOn n .value (k :: frames) v := by
  have hcomma : byte ',' ≠ closing k := by
    cases k <;> decide
  obtain ⟨l', hl', hlead⟩ := skipLead_append hl v
  rw [skipOn_blanks hbs, skipOn_inside (by decide) (skipBlank_cons (by decide)), if_neg hcomma,
    if_neg (by decide)]
  change (skipLead k (l ++ v)).bind _ = _
  rw [hlead]
  exact skipOn_blanks hl'

/-- What stands behind a value in a container ends it. -/
lemma Derives.stops_behind (h : Derives (.behind k) bs) (rest : Bytes) : Stops (bs ++ rest) := by
  cases h with
  | last hb =>
    rw [List.append_assoc]
    exact hb.stops (stops_closing k) rest
  | next hb =>
    rw [List.append_assoc]
    exact hb.stops stops_comma _

lemma skips_scalar (h : ∀ rest, Stops rest → skipScalar b (bs ++ rest) = .ok rest)
    (hb : Begins b) (hopen : ∀ k, b ≠ opening k) : Skips .value (b :: bs) :=
  ⟨1, by simp only [List.length_cons]; omega, fun _ _ rest hrest =>
    skipOn_scalar hb.1 hopen (h rest hrest)⟩

lemma skips_word {w : Bytes} (h : ∀ bs, skipScalar b bs = word w bs) (hb : Begins b)
    (hopen : ∀ k, b ≠ opening k) : Skips .value (b :: w) :=
  skips_scalar (fun rest _ => by rw [h, word_append]) hb hopen

lemma skips_close {part : Part} (hplace : part.place ≠ .value) (hframes : part.frames = [k])
    (hl : IsBlanks l) : Skips part (l ++ [closing k]) := by
  refine ⟨1, ?_, fun n frames rest _ => ?_⟩
  · simp only [List.length_append, List.length_singleton]
    omega
  · rw [List.append_assoc, hframes]
    exact skipOn_close hplace hl

/-- A value in a container is skipped, and what is left of the container. -/
lemma Skips.behind {w : Bytes} (hv : Skips .value v) (hw : Skips (.behind k) w)
    (hstops : ∀ rest, Stops (w ++ rest)) :
    ∃ s, s + 1 < 2 * (v.length + w.length) ∧ ∀ n frames rest, Stops rest →
      skipOn (n + s) .value (k :: frames) (v ++ (w ++ rest)) = skipAfter n frames rest := by
  obtain ⟨s, hs, hskip⟩ := hv
  obtain ⟨s', hs', hskip'⟩ := hw
  refine ⟨s' + s, by omega, fun n frames rest hrest => ?_⟩
  rw [← Nat.add_assoc]
  exact (hskip _ _ _ (hstops rest)).trans (hskip' n frames rest hrest)

lemma Derives.skips {part : Part} (h : Derives part bs) : Skips part bs := by
  induction h with
  | null => exact skips_word (fun _ => rfl) (by decide) (by decide)
  | bool b =>
    cases b with
    | false => exact skips_word (fun _ => rfl) (by decide) (by decide)
    | true => exact skips_word (fun _ => rfl) (by decide) (by decide)
  | number h =>
    obtain ⟨d, ds, rfl, hd⟩ := h.exists_cons
    refine skips_scalar (fun rest hrest => skipScalar_number h hrest) (begins_of_isDigit hd) ?_
    rintro k rfl
    cases k <;> cases hd
  | negative h =>
    exact skips_scalar (fun rest hrest => skipScalar_negative h hrest) (by decide) (by decide)
  | text h =>
    refine skips_scalar (fun rest _ => ?_) (by decide) (by decide)
    rw [List.append_assoc]
    exact skipText_quotable h rest
  | container h ih =>
    obtain ⟨s, hs, hskip⟩ := ih
    refine ⟨s + 1, by simp only [List.length_cons]; omega, fun n frames rest hrest => ?_⟩
    exact skipOn_open.trans (hskip n frames rest hrest)
  | empty hb => exact skips_close (by simp [Part.place]) rfl hb
  | first hl hv h ihv ih =>
    obtain ⟨s, hs, hskip⟩ := ihv.behind ih h.stops_behind
    refine ⟨s + 1, by simp only [List.length_append]; omega, fun n frames rest hrest => ?_⟩
    rw [List.append_assoc, List.append_assoc]
    exact (skipOn_first hl hv).trans (hskip n frames rest hrest)
  | last hb => exact skips_close (by simp [Part.place]) rfl hb
  | next hb hl hv h ihv ih =>
    obtain ⟨s, hs, hskip⟩ := ihv.behind ih h.stops_behind
    refine ⟨s + 1, by simp only [List.length_append, List.length_cons]; omega,
      fun n frames rest hrest => ?_⟩
    rw [List.append_assoc, List.cons_append, List.append_assoc, List.append_assoc]
    exact (skipOn_next hb hl _).trans (hskip n frames rest hrest)

/-- A value and the white space before it are skipped, and nothing else. -/
theorem skipValue_value (hl : IsBlanks l) (hv : IsValue v) (hrest : Stops rest) :
    skipValue (l ++ (v ++ rest)) = .ok rest := by
  obtain ⟨s, hs, hskip⟩ := hv.skips
  have hsteps : s ≤ 2 * (l ++ (v ++ rest)).length + 2 := by
    simp only [List.length_append]
    omega
  rw [skipValue, ← Nat.sub_add_cancel hsteps, skipOn_blanks hl]
  exact hskip _ [] rest hrest

/-! ### What is skipped is a value -/

lemma exists_of_skipLead (h : skipLead k bs = .ok rest) :
    ∃ l, bs = l ++ rest ∧ ∀ l', IsBlanks l' → Lead k (l ++ l') := by
  cases k with
  | false =>
    cases h
    exact ⟨[], rfl, fun l' hl' => .item hl'⟩
  | true =>
    obtain ⟨l, raw, c, rfl, hl, hraw, hc⟩ := exists_of_skipName h
    refine ⟨l ++ byte '"' :: (raw ++ byte '"' :: (c ++ [byte ':'])), by simp, fun l' hl' => ?_⟩
    have hlead := Lead.name hl hraw hc hl'
    simpa using hlead

/-- White space before a part that is left of a container belongs to it. -/
lemma Derives.blanks {part : Part} (h : Derives part bs) (hpart : part ≠ .value)
    (hl : IsBlanks l) : Derives part (l ++ bs) := by
  cases h with
  | null | bool | number | negative | text | container => exact absurd rfl hpart
  | empty hb =>
    rw [← List.append_assoc]
    exact .empty (hl.append hb)
  | first hlead hv h =>
    rw [← List.append_assoc]
    refine .first ?_ hv h
    cases hlead with
    | item hn => exact .item (hl.append hn)
    | name hl' hraw hc hn =>
      rw [← List.append_assoc]
      exact .name (hl.append hl') hraw hc hn
  | last hb =>
    rw [← List.append_assoc]
    exact .last (hl.append hb)
  | next hb hlead hv h =>
    rw [← List.append_assoc]
    exact .next (hl.append hb) hlead hv h

/-- A container is opened, or the value is none. -/
lemma cases_of_skipOn_value (hbs : skipBlank bs = b :: v)
    (h : skipOn (n + 1) .value frames bs = .ok rest) :
    (∃ k, b = opening k ∧ skipOn n .opened (k :: frames) v = .ok rest) ∨
      ∃ mid, skipScalar b v = .ok mid ∧ skipAfter n frames mid = .ok rest := by
  rw [skipOn_value hbs] at h
  split at h
  · rename_i hb
    exact .inl ⟨false, hb, h⟩
  split at h
  · rename_i hb
    exact .inl ⟨true, hb, h⟩
  · exact .inr (Except.exists_of_bind h)

/-- The container ends, or a value comes next. -/
lemma cases_of_skipOn_inside (hplace : place ≠ .value) (hbs : skipBlank bs = b :: v)
    (h : skipOn (n + 1) place (k :: frames) bs = .ok rest) :
    b = closing k ∧ skipAfter n frames v = .ok rest ∨
      ∃ inside mid, (place = .opened ∧ inside = b :: v ∨
          place = .after ∧ b = byte ',' ∧ inside = v) ∧
        skipLead k inside = .ok mid ∧ skipOn n .value (k :: frames) mid = .ok rest := by
  rw [skipOn_inside hplace hbs] at h
  split at h
  · rename_i hb
    exact .inl ⟨hb, h⟩
  split at h
  · cases h
  · rename_i hcomma
    obtain ⟨mid, hmid, hrest⟩ := Except.exists_of_bind h
    cases place with
    | value => exact absurd rfl hplace
    | opened => exact .inr ⟨b :: v, mid, .inl ⟨rfl, rfl⟩, hmid, hrest⟩
    | after =>
      have hb : b = byte ',' := by simpa using hcomma
      exact .inr ⟨v, mid, .inr ⟨rfl, hb, rfl⟩, hmid, hrest⟩

/-- Whatever is skipped is a part, with white space before it. -/
lemma exists_of_skipOn (n : Nat) (part : Part) (frames : List Bool)
    (h : skipOn n part.place (part.frames ++ frames) bs = .ok rest) :
    ∃ l w mid m, bs = l ++ (w ++ mid) ∧ IsBlanks l ∧ Derives part w ∧ m < n ∧
      skipAfter m frames mid = .ok rest := by
  induction n using Nat.strongRecOn generalizing part frames bs with
  | ind n ih =>
    cases n with
    | zero => cases h
    | succ n =>
      obtain ⟨l, hsplit, hl⟩ := exists_blanks bs
      cases hbs : skipBlank bs with
      | nil =>
        rw [skipOn_of_nil hbs] at h
        cases h
      | cons b v =>
        rw [hbs] at hsplit
        -- a value in the container `k`, and then what is left of the container
        have hvalue {k : Bool} {mid : Bytes}
            (h : skipOn n .value (k :: frames) mid = .ok rest) :
            ∃ l v w mid' m, mid = l ++ (v ++ (w ++ mid')) ∧ IsBlanks l ∧ IsValue v ∧
              Derives (.behind k) w ∧ m < n + 1 ∧ skipAfter m frames mid' = .ok rest := by
          obtain ⟨l₁, v, mid₁, m₁, rfl, hl₁, hv, hm₁, h⟩ :=
            ih n (Nat.lt_succ_self n) .value (k :: frames) h
          obtain ⟨l₂, w, mid₂, m₂, rfl, hl₂, hw, hm₂, h⟩ :=
            ih m₁ (by omega) (.behind k) frames h
          exact ⟨l₁, v, l₂ ++ w, mid₂, m₂, by simp, hl₁, hv, hw.blanks (by simp) hl₂, by omega, h⟩
        cases part with
        | value =>
          rcases cases_of_skipOn_value hbs h with ⟨k, rfl, h⟩ | ⟨mid, hscalar, h⟩
          · obtain ⟨l', w, mid, m, rfl, hl', hw, hm, h⟩ :=
              ih n (Nat.lt_succ_self n) (.within k) frames h
            exact ⟨l, opening k :: (l' ++ w), mid, m, by rw [hsplit]; simp, hl,
              .container (hw.blanks (by simp) hl'), by omega, h⟩
          · obtain ⟨w, hw, hvalue⟩ := exists_of_skipScalar hscalar
            exact ⟨l, w, mid, n, by rw [hsplit, hw], hl, hvalue, Nat.lt_succ_self n, h⟩
        | within k =>
          rcases cases_of_skipOn_inside (by simp [Part.place]) hbs h with
            ⟨rfl, h⟩ | ⟨inside, mid, ⟨-, rfl⟩ | ⟨hplace, -⟩, hskip, h⟩
          · exact ⟨l, [closing k], v, n, hsplit, hl, .empty isBlanks_nil, Nat.lt_succ_self n, h⟩
          · obtain ⟨lead, hinside, hlead⟩ := exists_of_skipLead hskip
            obtain ⟨l', v', w, mid', m, rfl, hl', hv', hw, hm, h⟩ := hvalue h
            exact ⟨l, lead ++ l' ++ (v' ++ w), mid', m, by rw [hsplit, hinside]; simp, hl,
              .first (hlead l' hl') hv' hw, hm, h⟩
          · cases hplace
        | behind k =>
          rcases cases_of_skipOn_inside (by simp [Part.place]) hbs h with
            ⟨rfl, h⟩ | ⟨inside, mid, ⟨hplace, -⟩ | ⟨-, rfl, rfl⟩, hskip, h⟩
          · exact ⟨l, [closing k], v, n, hsplit, hl, .last isBlanks_nil, Nat.lt_succ_self n, h⟩
          · cases hplace
          · obtain ⟨lead, hinside, hlead⟩ := exists_of_skipLead hskip
            obtain ⟨l', v', w, mid', m, rfl, hl', hv', hw, hm, h⟩ := hvalue h
            exact ⟨l, byte ',' :: (lead ++ l' ++ (v' ++ w)), mid', m,
              by rw [hsplit, hinside]; simp, hl,
              .next isBlanks_nil (hlead l' hl') hv' hw, hm, h⟩

/-- What is skipped is a value, with white space before it. -/
theorem exists_of_skipValue (h : skipValue bs = .ok rest) :
    ∃ l v, bs = l ++ (v ++ rest) ∧ IsBlanks l ∧ IsValue v := by
  obtain ⟨l, v, mid, m, hbs, hl, hv, -, hmid⟩ :=
    exists_of_skipOn (2 * bs.length + 2) .value [] h
  cases hmid
  exact ⟨l, v, hbs, hl, hv⟩

end Overseer.Json
