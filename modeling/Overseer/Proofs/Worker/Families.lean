import Mathlib.Logic.Relation
import Overseer.Proofs.Lookup
import Overseer.Worker.Token

/-!
# Families of tokens

Which tokens belong together is told from the calls alone: a token is the call that made it, and
those that are connected by copying are kin, whether they are still held or not. `Traced` ties this
to the flags that tokens share, and every call keeps it.
-/

namespace Overseer

variable {κ : Type} [DecidableEq κ]

/-! ### What the calls say -/

namespace TokenCall

/-- The place that the call puts a token in or takes one from. -/
def place? : TokenCall κ → Option κ
  | fresh k | copy k _ | drop k => some k
  | cancel _ | wait .. | ask _ => none

/-- The call makes a token. -/
def makes : TokenCall κ → Bool
  | fresh _ | copy .. => true
  | drop _ | cancel _ | wait .. | ask _ => false

/-- The token in a place after the calls, of which the latest is the first. It is the number of the
call that made it. -/
def token? : List (TokenCall κ) → κ → Option Nat
  | [], _ => none
  | fresh k :: past, k' | copy k _ :: past, k' =>
    if k' = k then some past.length else token? past k'
  | drop k :: past, k' => if k' = k then none else token? past k'
  | _ :: past, k' => token? past k'

/-- The token `b` is a copy of `b'`. -/
inductive Copies (past : List (TokenCall κ)) : Nat → Nat → Prop where
  | intro (k source : κ) (earlier : List (TokenCall κ)) (b' : Nat)
      (h : copy k source :: earlier <:+ past) (hb : token? earlier source = some b') :
      Copies past earlier.length b'

/-- The tokens are connected by copying. -/
def Kin (past : List (TokenCall κ)) : Nat → Nat → Prop := Relation.EqvGen (Copies past)

/-- A token of the family of `b` was cancelled. -/
def Cancelled (past : List (TokenCall κ)) (b : Nat) : Prop :=
  ∃ k earlier b', cancel k :: earlier <:+ past ∧ token? earlier k = some b' ∧ Kin past b' b

/-- The token `b` was held at some time. -/
def Born (past : List (TokenCall κ)) (b : Nat) : Prop :=
  ∃ k earlier, earlier <:+ past ∧ token? earlier k = some b

variable {past earlier : List (TokenCall κ)} {c : TokenCall κ} {k : κ} {b b' : Nat}

lemma token?_cons (h : token? (c :: past) k = some b) :
    b = past.length ∨ token? past k = some b := by
  cases c with
  | fresh | copy =>
    rw [token?] at h
    split at h
    · exact .inl (Option.some.inj h).symm
    · exact .inr h
  | drop =>
    rw [token?] at h
    split at h
    · cases h
    · exact .inr h
  | cancel | wait | ask => exact .inr h

lemma lt_length_of_token? (h : token? past k = some b) : b < past.length := by
  induction past with
  | nil => cases h
  | cons c past ih =>
    rw [List.length_cons]
    rcases token?_cons h with rfl | h
    · exact Nat.lt_succ_self _
    · exact Nat.lt_succ_of_lt (ih h)

lemma born_of_token? (h : token? past k = some b) : Born past b :=
  ⟨k, past, List.suffix_refl past, h⟩

lemma Born.lt_length (h : Born past b) : b < past.length := by
  obtain ⟨k, earlier, hsuffix, hb⟩ := h
  exact Nat.lt_of_lt_of_le (lt_length_of_token? hb) hsuffix.length_le

/-- The latest call has made a token, or it was held before. -/
lemma born_cons (h : Born (c :: past) b) : b = past.length ∨ Born past b := by
  obtain ⟨k, earlier, hsuffix, hb⟩ := h
  rcases List.suffix_cons_iff.mp hsuffix with rfl | hsuffix
  · exact (token?_cons hb).imp_right born_of_token?
  · exact .inr ⟨k, earlier, hsuffix, hb⟩

lemma token?_of_cons (hc : c.makes = false) (h : token? (c :: past) k = some b) :
    token? past k = some b := by
  cases c with
  | fresh | copy => cases hc
  | drop =>
    rw [token?] at h
    split at h
    · cases h
    · exact h
  | cancel | wait | ask => exact h

lemma born_of_cons (hc : c.makes = false) (h : Born (c :: past) b) : Born past b := by
  obtain ⟨k, earlier, hsuffix, hb⟩ := h
  rcases List.suffix_cons_iff.mp hsuffix with rfl | hsuffix
  · exact born_of_token? (token?_of_cons hc hb)
  · exact ⟨k, earlier, hsuffix, hb⟩

lemma Copies.cons (h : Copies past b b') : Copies (c :: past) b b' := by
  obtain ⟨k, source, earlier, b', hsuffix, hb⟩ := h
  exact .intro k source earlier b' (hsuffix.trans (List.suffix_cons c past)) hb

lemma Copies.born (h : Copies past b b') : b < past.length ∧ Born past b' := by
  obtain ⟨k, source, earlier, b', hsuffix, hb⟩ := h
  refine ⟨hsuffix.length_le, source, earlier, ?_, hb⟩
  exact (List.suffix_cons _ earlier).trans hsuffix

/-- The latest call makes a copy, or tokens are copies as before. -/
lemma copies_cons (h : Copies (c :: past) b b') :
    Copies past b b' ∨ ∃ k source, c = copy k source ∧ b = past.length ∧
      token? past source = some b' := by
  obtain ⟨k, source, earlier, b', hsuffix, hb⟩ := h
  rcases List.suffix_cons_iff.mp hsuffix with heq | hsuffix
  · cases heq
    exact .inr ⟨k, source, rfl, rfl, hb⟩
  · exact .inl (.intro k source earlier b' hsuffix hb)

lemma Kin.cons (h : Kin past b b') : Kin (c :: past) b b' :=
  Relation.EqvGen.mono (fun _ _ hcopy => hcopy.cons) _ _ h

/-- What copies have in common, kin have. -/
lemma Kin.eq {β : Type} {f : Nat → β} (h : Kin past b b')
    (hcopies : ∀ b b', Copies past b b' → f b = f b') : f b = f b' := by
  induction h with
  | rel b b' hcopy => exact hcopies b b' hcopy
  | refl b => rfl
  | symm b b' _ ih => exact ih.symm
  | trans b b' b'' _ _ ih ih' => exact ih.trans ih'

lemma Cancelled.of_kin (h : Cancelled past b) (hkin : Kin past b b') : Cancelled past b' := by
  obtain ⟨k, earlier, b₀, hsuffix, hb₀, hfamily⟩ := h
  exact ⟨k, earlier, b₀, hsuffix, hb₀, hfamily.trans _ _ _ hkin⟩

lemma Cancelled.cons (h : Cancelled past b) : Cancelled (c :: past) b := by
  obtain ⟨k, earlier, b', hsuffix, hb', hkin⟩ := h
  exact ⟨k, earlier, b', hsuffix.trans (List.suffix_cons c past), hb', hkin.cons⟩

/-- The latest call cancels, or there was a token to cancel before. -/
lemma cancelled_cons (h : Cancelled (c :: past) b) :
    (∃ k b', c = cancel k ∧ token? past k = some b' ∧ Kin (c :: past) b' b) ∨
      ∃ b', Born past b' ∧ Cancelled past b' ∧ Kin (c :: past) b' b := by
  obtain ⟨k, earlier, b', hsuffix, hb', hkin⟩ := h
  rcases List.suffix_cons_iff.mp hsuffix with heq | hsuffix
  · cases heq
    exact .inl ⟨k, b', rfl, hb', hkin⟩
  · exact .inr ⟨b', ⟨k, earlier, (List.suffix_cons _ earlier).trans hsuffix, hb'⟩,
      ⟨k, earlier, b', hsuffix, hb', .refl b'⟩, hkin⟩

end TokenCall

namespace Tokens

open TokenCall

variable {past : List (TokenCall κ)} {c : TokenCall κ} {a : TokenAnswer} {t t' : Tokens κ}
  {k k' : κ} {b b' : Nat} {family : Nat → Nat}

/-! ### Places and flags -/

lemma family?_put (t : Tokens κ) (k : κ) (f : Nat) (k' : κ) :
    (t.put k f).family? k' = if k' = k then some f else t.family? k' := by
  rw [family?, put, List.lookup_cons]
  split
  · rename_i heq
    rw [if_pos (eq_of_beq heq)]
  · rename_i hne
    have hne := beq_eq_false_iff_ne.mp hne
    rw [if_neg hne, lookup_filter_ne t.holdings hne, family?]

lemma family?_drop (t : Tokens κ) (k k' : κ) :
    (t.drop k).family? k' = if k' = k then none else t.family? k' := by
  rw [family?, drop]
  split
  · subst ‹k' = k›
    exact lookup_filter_self t.holdings k'
  · exact lookup_filter_ne t.holdings ‹k' ≠ k›

/-- The flags are those of the families: `family` says to which family a token belongs. -/
structure Traced (past : List (TokenCall κ)) (t : Tokens κ) (family : Nat → Nat) : Prop where
  places : ∀ k, t.family? k = (token? past k).map family
  known : ∀ b, Born past b → family b < t.flags.length
  copies : ∀ b b', Copies past b b' → family b = family b'
  kin : ∀ b b', Born past b → Born past b' → family b = family b' → Kin past b b'
  flags : ∀ b, Born past b → (t.flags[family b]? = some true ↔ Cancelled past b)

namespace Traced

lemma places_of_token? (h : Traced past t family) (hb : token? past k = some b) :
    t.family? k = some (family b) := by
  rw [h.places, hb, Option.map_some]

/-- A place with a token has one that was made. -/
lemma exists_token (h : Traced past t family) {f : Nat} (hf : t.family? k = some f) :
    ∃ b, token? past k = some b ∧ family b = f := by
  rw [h.places] at hf
  exact Option.map_eq_some_iff.mp hf

lemma isCancelled?_eq (h : Traced past t family) (hb : token? past k = some b) :
    t.isCancelled? k = t.flags[family b]? := by
  rw [isCancelled?, h.places_of_token? hb, Option.bind_some]

end Traced

lemma traced_nil : Traced [] ({} : Tokens κ) id where
  places _ := rfl
  known b hb := absurd hb.lt_length (Nat.not_lt_zero b)
  copies b _ h := absurd h.born.1 (Nat.not_lt_zero b)
  kin b _ hb := absurd hb.lt_length (Nat.not_lt_zero b)
  flags b hb := absurd hb.lt_length (Nat.not_lt_zero b)

/-! ### Calls -/

namespace Traced

/-- Tokens that were made before the latest call are kin only if they were before it. -/
lemma kin_of_cons (h : Traced past t family) {family' : Nat → Nat}
    (hagree : ∀ b < past.length, family' b = family b)
    (hcopies : ∀ b b', Copies (c :: past) b b' → family' b = family' b')
    (hb : Born past b) (hb' : Born past b') (hkin : Kin (c :: past) b b') : Kin past b b' := by
  have heq := hkin.eq hcopies
  rw [hagree b hb.lt_length, hagree b' hb'.lt_length] at heq
  exact h.kin b b' hb hb' heq

/-- Where a call cancels no token, those of before are cancelled only if they were before it. -/
lemma cancelled_of_cons (h : Traced past t family) {family' : Nat → Nat}
    (hagree : ∀ b < past.length, family' b = family b)
    (hcopies : ∀ b b', Copies (c :: past) b b' → family' b = family' b')
    (hcancel : ∀ k, c ≠ cancel k) (hb : Born past b) (hcancelled : Cancelled (c :: past) b) :
    Cancelled past b := by
  rcases cancelled_cons hcancelled with ⟨k, -, hc, -⟩ | ⟨b', hb', hcancelled, hkin⟩
  · exact absurd hc (hcancel k)
  · exact hcancelled.of_kin (h.kin_of_cons hagree hcopies hb' hb hkin)

lemma copies_of_cons (h : Traced past t family) (hc : c.makes = false) :
    ∀ b b', Copies (c :: past) b b' → family b = family b' := by
  intro b b' hb
  rcases copies_cons hb with hb | ⟨k, source, rfl, -⟩
  · exact h.copies b b' hb
  · cases hc

/-- A call that neither makes a token nor cancels one leaves the families as they are. -/
lemma stay (h : Traced past t family)
    (hplaces : ∀ k, t'.family? k = (token? (c :: past) k).map family) (hflags : t'.flags = t.flags)
    (hc : c.makes = false) (hcancel : ∀ k, c ≠ .cancel k) :
    Traced (c :: past) t' family where
  places := hplaces
  known b hb := hflags ▸ h.known b (born_of_cons hc hb)
  copies := h.copies_of_cons hc
  kin b b' hb hb' heq := (h.kin b b' (born_of_cons hc hb) (born_of_cons hc hb') heq).cons
  flags b hb := by
    rw [hflags, h.flags b (born_of_cons hc hb)]
    exact ⟨Cancelled.cons, h.cancelled_of_cons (fun _ _ => rfl) (h.copies_of_cons hc) hcancel
      (born_of_cons hc hb)⟩

/-- A token that is cancelled sets the flag of its family. -/
lemma cancel (h : Traced past t family) (hb : token? past k = some b) :
    Traced (.cancel k :: past) { t with flags := t.flags.set (family b) true } family where
  places := h.places
  known b' hb' := by
    rw [List.length_set]
    exact h.known b' (born_of_cons rfl hb')
  copies := h.copies_of_cons rfl
  kin b' b'' hb' hb'' heq := (h.kin b' b'' (born_of_cons rfl hb') (born_of_cons rfl hb'') heq).cons
  flags b' hb' := by
    have hborn := born_of_cons rfl hb'
    by_cases heq : family b = family b'
    · have hkin := h.kin b b' (born_of_token? hb) hborn heq
      rw [← heq, List.getElem?_set_self (h.known b (born_of_token? hb))]
      exact iff_of_true rfl ⟨k, past, b, List.suffix_refl _, hb, hkin.cons⟩
    · rw [List.getElem?_set_ne heq, h.flags b' hborn]
      refine ⟨Cancelled.cons, fun hcancelled => ?_⟩
      rcases cancelled_cons hcancelled with ⟨k', b₀, hk, hb₀, hkin⟩ | ⟨b₀, hb₀, hold, hkin⟩
      · cases hk
        cases hb.symm.trans hb₀
        exact absurd (hkin.eq (h.copies_of_cons rfl)) heq
      · exact hold.of_kin (h.kin_of_cons (fun _ _ => rfl) (h.copies_of_cons rfl) hb₀ hborn hkin)

/-- A token that is made belongs to one family with the one that it is a copy of. -/
lemma copies_update (h : Traced past t family) {f : Nat}
    (hf : ∀ k source b, c = .copy k source → token? past source = some b → f = family b) :
    ∀ b b', Copies (c :: past) b b' →
      Function.update family past.length f b = Function.update family past.length f b' := by
  intro b b' hb
  have hagree : ∀ b < past.length, Function.update family past.length f b = family b :=
    fun b hb => Function.update_of_ne (Nat.ne_of_lt hb) f family
  rcases copies_cons hb with hb | ⟨k, source, rfl, rfl, hb'⟩
  · obtain ⟨hlt, hb'⟩ := hb.born
    rw [hagree b hlt, hagree b' hb'.lt_length, h.copies b b' hb]
  · rw [Function.update_self, hagree b' (lt_length_of_token? hb'), hf k source b' rfl hb']

/-- The places after a token was made. -/
lemma places_update (h : Traced past t family) (f : Nat) (k' : κ) :
    (if k' = k then some f else t.family? k') =
      (if k' = k then some past.length else token? past k').map
        (Function.update family past.length f) := by
  split
  · rw [Option.map_some, Function.update_self]
  · rw [h.places]
    cases hb : token? past k' with
    | none => rfl
    | some b =>
      rw [Option.map_some, Option.map_some,
        Function.update_of_ne (Nat.ne_of_lt (lt_length_of_token? hb))]

/-- A new token has a family of its own. -/
lemma fresh (h : Traced past t family) (k : κ) :
    Traced (.fresh k :: past) (t.fresh k)
      (Function.update family past.length t.flags.length) := by
  have hcopies := h.copies_update (c := .fresh k) (f := t.flags.length) fun _ _ _ hc => by cases hc
  have hagree : ∀ b < past.length, Function.update family past.length t.flags.length b = family b :=
    fun b hb => Function.update_of_ne (Nat.ne_of_lt hb) _ family
  have hapart : ∀ b, Born past b → Function.update family past.length t.flags.length b ≠
      Function.update family past.length t.flags.length past.length := by
    intro b hb heq
    rw [hagree b hb.lt_length, Function.update_self] at heq
    exact absurd heq (Nat.ne_of_lt (h.known b hb))
  refine ⟨fun k' => ?_, fun b hb => ?_, hcopies, fun b b' hb hb' heq => ?_, fun b hb => ?_⟩
  · exact (family?_put _ k _ k').trans (h.places_update t.flags.length k')
  · show _ < (t.flags ++ [false]).length
    rw [List.length_append, List.length_singleton]
    rcases born_cons hb with rfl | hb
    · rw [Function.update_self]
      exact Nat.lt_succ_self _
    · rw [hagree b hb.lt_length]
      exact Nat.lt_succ_of_lt (h.known b hb)
  · rcases born_cons hb with rfl | hb <;> rcases born_cons hb' with rfl | hb'
    · exact .refl _
    · exact absurd heq.symm (hapart b' hb')
    · exact absurd heq (hapart b hb)
    · rw [hagree b hb.lt_length, hagree b' hb'.lt_length] at heq
      exact (h.kin b b' hb hb' heq).cons
  · show (t.flags ++ [false])[_]? = some true ↔ _
    rcases born_cons hb with rfl | hb
    · rw [Function.update_self, List.getElem?_concat_length]
      refine iff_of_false (by simp) fun hcancelled => ?_
      rcases cancelled_cons hcancelled with ⟨k', b', hc, -⟩ | ⟨b', hb', -, hkin⟩
      · cases hc
      · exact hapart b' hb' (hkin.eq hcopies)
    · rw [hagree b hb.lt_length, List.getElem?_append_left (h.known b hb), h.flags b hb]
      exact ⟨Cancelled.cons, h.cancelled_of_cons hagree hcopies (fun _ hc => by cases hc) hb⟩

/-- A copy belongs to the family of the token that was copied. -/
lemma copy (h : Traced past t family) {source : κ} (hb : token? past source = some b) (k : κ) :
    Traced (.copy k source :: past) (t.put k (family b))
      (Function.update family past.length (family b)) := by
  have hcopies := h.copies_update (c := .copy k source) (f := family b) fun _ _ b' hc hb' => by
    cases hc
    cases hb.symm.trans hb'
    rfl
  have hagree : ∀ b' < past.length,
      Function.update family past.length (family b) b' = family b' :=
    fun b' hb' => Function.update_of_ne (Nat.ne_of_lt hb') _ family
  have hborn := born_of_token? hb
  have hcopied : Kin (.copy k source :: past) past.length b :=
    .rel _ _ (.intro k source past b (List.suffix_refl _) hb)
  refine ⟨fun k' => ?_, fun b' hb' => ?_, hcopies, fun b₁ b₂ hb₁ hb₂ heq => ?_, fun b' hb' => ?_⟩
  · exact (family?_put t k _ k').trans (h.places_update (family b) k')
  · show _ < t.flags.length
    rcases born_cons hb' with rfl | hb'
    · rw [Function.update_self]
      exact h.known b hborn
    · rw [hagree b' hb'.lt_length]
      exact h.known b' hb'
  · -- What is in the family of the copy is kin to what was copied, and so to the copy.
    have hnew : ∀ b', Born past b' → family b = family b' →
        Kin (.copy k source :: past) past.length b' :=
      fun b' hb' heq => hcopied.trans _ _ _ (h.kin b b' hborn hb' heq).cons
    rcases born_cons hb₁ with rfl | hb₁ <;> rcases born_cons hb₂ with rfl | hb₂
    · exact .refl _
    · rw [Function.update_self, hagree b₂ hb₂.lt_length] at heq
      exact hnew b₂ hb₂ heq
    · rw [Function.update_self, hagree b₁ hb₁.lt_length] at heq
      exact (hnew b₁ hb₁ heq.symm).symm
    · rw [hagree b₁ hb₁.lt_length, hagree b₂ hb₂.lt_length] at heq
      exact (h.kin b₁ b₂ hb₁ hb₂ heq).cons
  · show t.flags[_]? = some true ↔ _
    rcases born_cons hb' with rfl | hb'
    · rw [Function.update_self, h.flags b hborn]
      refine ⟨fun hcancelled => hcancelled.cons.of_kin hcopied.symm, fun hcancelled => ?_⟩
      exact h.cancelled_of_cons hagree hcopies (fun _ hc => by cases hc) hborn
        (hcancelled.of_kin hcopied)
    · rw [hagree b' hb'.lt_length, h.flags b' hb']
      exact ⟨Cancelled.cons, h.cancelled_of_cons hagree hcopies (fun _ hc => by cases hc) hb'⟩

/-- Every call keeps the families. -/
lemma perform (h : Traced past t family) (hc : t.perform c = some (a, t')) :
    ∃ family', Traced (c :: past) t' family' := by
  cases c with
  | fresh k =>
    cases hc
    exact ⟨_, h.fresh k⟩
  | copy k source =>
    obtain ⟨t₁, ht₁, heq⟩ := Option.map_eq_some_iff.mp hc
    cases heq
    obtain ⟨f, hf, rfl⟩ := Option.map_eq_some_iff.mp ht₁
    obtain ⟨b, hb, rfl⟩ := h.exists_token hf
    exact ⟨_, h.copy hb k⟩
  | drop k =>
    rw [Tokens.perform] at hc
    split at hc <;> cases hc
    refine ⟨family, h.stay (fun k' => ?_) rfl rfl fun k' hk' => by cases hk'⟩
    rw [family?_drop, token?]
    split
    · rfl
    · exact h.places k'
  | cancel k =>
    obtain ⟨t₁, ht₁, heq⟩ := Option.map_eq_some_iff.mp hc
    cases heq
    obtain ⟨f, hf, rfl⟩ := Option.map_eq_some_iff.mp ht₁
    obtain ⟨b, hb, rfl⟩ := h.exists_token hf
    exact ⟨family, h.cancel hb⟩
  | wait k timeout now =>
    obtain ⟨w, -, heq⟩ := Option.map_eq_some_iff.mp hc
    cases heq
    exact ⟨family, h.stay h.places rfl rfl fun k' hk' => by cases hk'⟩
  | ask k =>
    obtain ⟨cancelled, -, heq⟩ := Option.map_eq_some_iff.mp hc
    cases heq
    exact ⟨family, h.stay h.places rfl rfl fun k' hk' => by cases hk'⟩

end Traced

lemma exists_traced (h : after? past = some t) : ∃ family, Traced past t family := by
  induction past generalizing t with
  | nil =>
    cases h
    exact ⟨id, traced_nil⟩
  | cons c past ih =>
    obtain ⟨t₀, hpast, hc⟩ := Option.bind_eq_some_iff.mp h
    obtain ⟨⟨a, t₁⟩, hperformed, rfl⟩ := Option.map_eq_some_iff.mp hc
    obtain ⟨family, htraced⟩ := ih hpast
    exact htraced.perform hperformed

/-! ### What tokens report -/

lemma isCancelled?_congr (hfamily : t'.family? k = t.family? k)
    (hflags : ∀ f, t.family? k = some f → t'.flags[f]? = t.flags[f]?) :
    t'.isCancelled? k = t.isCancelled? k := by
  rw [isCancelled?, hfamily, isCancelled?]
  exact Option.bind_congr hflags

namespace Traced

/-- A call that cancels nothing leaves the tokens in other places as they are. -/
lemma isCancelled?_perform (h : Traced past t family) (hc : t.perform c = some (a, t'))
    (hcancel : ∀ k, c ≠ .cancel k) (hk : c.place? ≠ some k) :
    t'.isCancelled? k = t.isCancelled? k := by
  cases c with
  | fresh k' =>
    cases hc
    refine isCancelled?_congr ?_ fun f hf => ?_
    · rw [Tokens.fresh, family?_put, if_neg fun heq => hk (congrArg some heq.symm), family?,
        family?]
    · obtain ⟨b, hb, rfl⟩ := h.exists_token hf
      exact List.getElem?_append_left (h.known b (born_of_token? hb))
  | copy k' source =>
    obtain ⟨t₁, ht₁, heq⟩ := Option.map_eq_some_iff.mp hc
    cases heq
    obtain ⟨f, -, rfl⟩ := Option.map_eq_some_iff.mp ht₁
    refine isCancelled?_congr ?_ fun _ _ => rfl
    rw [family?_put, if_neg fun heq => hk (congrArg some heq.symm)]
  | drop k' =>
    rw [Tokens.perform] at hc
    split at hc <;> cases hc
    refine isCancelled?_congr ?_ fun _ _ => rfl
    rw [family?_drop, if_neg fun heq => hk (congrArg some heq.symm)]
  | cancel k' => exact absurd rfl (hcancel k')
  | wait k' timeout now =>
    obtain ⟨w, -, heq⟩ := Option.map_eq_some_iff.mp hc
    cases heq
    rfl
  | ask k' =>
    obtain ⟨cancelled, -, heq⟩ := Option.map_eq_some_iff.mp hc
    cases heq
    rfl

/-- A token that is cancelled takes its kin along, and nobody else. -/
lemma isCancelled?_cancel (h : Traced past t family) (hb : token? past k = some b)
    (hb' : token? past k' = some b') :
    let t' : Tokens κ := { t with flags := t.flags.set (family b) true }
    (Kin past b b' → t'.isCancelled? k' = some true) ∧
      (¬ Kin past b b' → t'.isCancelled? k' = t.isCancelled? k') := by
  have hborn := born_of_token? hb
  have hlater : ({ t with flags := t.flags.set (family b) true } : Tokens κ).isCancelled? k' =
      (t.flags.set (family b) true)[family b']? := by
    have hfamily : ({ t with flags := t.flags.set (family b) true } : Tokens κ).family? k' =
        some (family b') := h.places_of_token? hb'
    rw [isCancelled?, hfamily, Option.bind_some]
  refine ⟨fun hkin => ?_, fun hkin => ?_⟩
  · rw [hlater, ← hkin.eq h.copies, List.getElem?_set_self (h.known b hborn)]
  · have hne : family b ≠ family b' :=
      fun heq => hkin (h.kin b b' hborn (born_of_token? hb') heq)
    rw [hlater, List.getElem?_set_ne hne, h.isCancelled?_eq hb']

end Traced

/-- After any calls: a token reports, when asked and after a wait, that it is cancelled if and only
if one of its family was, held or not. A wait for a timeout that there is, and a question, change
nothing. Tokens that are made, copied, dropped and overwritten leave the others as they are. A token
that is cancelled takes its family along, and leaves the other families as they are. -/
theorem cancelled_with_family (h : after? past = some t) :
    (∀ k, t.holds k = (token? past k).isSome) ∧
    (∀ k b, token? past k = some b → ∃ cancelled : Bool,
      (cancelled = true ↔ Cancelled past b) ∧
      t.perform (.ask k) = some (.flag cancelled, t) ∧
      ∀ timeout now, (now.after? timeout).isSome = true →
        t.perform (.wait k timeout now) = some (.waited (.saw cancelled), t)) ∧
    (∀ c a t', t.perform c = some (a, t') → (∀ k, c ≠ .cancel k) →
      ∀ k, c.place? ≠ some k → t'.isCancelled? k = t.isCancelled? k) ∧
    ∀ k b, token? past k = some b → ∃ t', t.perform (.cancel k) = some (.unit, t') ∧
      ∀ k' b', token? past k' = some b' →
        (Kin past b b' → t'.isCancelled? k' = some true) ∧
        (¬ Kin past b b' → t'.isCancelled? k' = t.isCancelled? k') := by
  obtain ⟨family, htraced⟩ := exists_traced h
  refine ⟨fun k => ?_, fun k b hb => ?_,
    fun c a t' hc hcancel k hk => htraced.isCancelled?_perform hc hcancel hk, fun k b hb => ?_⟩
  · rw [holds, htraced.places, Option.isSome_map]
  · have hborn := born_of_token? hb
    obtain ⟨cancelled, hflag⟩ : ∃ cancelled, t.flags[family b]? = some cancelled :=
      ⟨_, List.getElem?_eq_getElem (htraced.known b hborn)⟩
    have hreport : t.isCancelled? k = some cancelled := by
      rw [htraced.isCancelled?_eq hb, hflag]
    refine ⟨cancelled, ?_, ?_, fun timeout now hdue => ?_⟩
    · rw [← htraced.flags b hborn, hflag, Option.some_inj]
    · rw [perform, hreport, Option.map_some]
    · rw [perform, wait?, hreport, Option.map_some, Option.map_some,
        Option.isNone_eq_false_iff.mpr hdue, if_neg Bool.false_ne_true]
  · refine ⟨_, ?_, fun k' b' hb' => htraced.isCancelled?_cancel hb hb'⟩
    rw [perform, cancel?, htraced.places_of_token? hb]
    rfl

/-- A token is copied, cancelled and dropped, while there is another one. -/
def dropped : List (TokenCall Nat) := [.drop 0, .cancel 0, .fresh 2, .copy 1 0, .fresh 0]

/-- The copy reports that it is cancelled, and the other token does not. -/
theorem cancelled_with_family_dropped : ∃ t, after? dropped = some t ∧
    (t.perform (.ask 1) = some (.flag true, t) ∧ Cancelled dropped 1) ∧
    t.perform (.ask 2) = some (.flag false, t) ∧ ¬ Cancelled dropped 2 := by
  have h : after? dropped = some _ := rfl
  obtain ⟨-, hreports, -⟩ := cancelled_with_family h
  obtain ⟨copied, hcopied, hask, -⟩ := hreports 1 1 rfl
  obtain ⟨other, hother, hask', -⟩ := hreports 2 2 rfl
  obtain rfl : true = copied := TokenAnswer.flag.inj (Prod.ext_iff.mp (Option.some.inj hask)).1
  obtain rfl : false = other := TokenAnswer.flag.inj (Prod.ext_iff.mp (Option.some.inj hask')).1
  exact ⟨_, h, ⟨hask, hcopied.mp rfl⟩, hask',
    fun hcancelled => Bool.false_ne_true (hother.mpr hcancelled)⟩

end Tokens

end Overseer
