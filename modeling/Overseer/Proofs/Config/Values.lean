import Overseer.Config.Document
import Overseer.Proofs.Json.Skipping

/-!
# Values of a configuration

A flag is read from `true` and `false`, a path from `null` and from texts. All other values are
refused, and what stands around a value has no influence.
-/

namespace Overseer.Config

open Json

/-- What a flag is written as. -/
def IsFlag (v : Bytes) (b : Bool) : Prop := v = ascii (toString b)

/-- What a path is written as. -/
inductive IsPath : Bytes → Option String → Prop where
  | null : IsPath (ascii "null") none
  | text {raw s} (h : Spells raw s) : IsPath (byte '"' :: (raw ++ [byte '"'])) (some s)

variable {α : Type} {l v rest bs : Bytes}

/-! ### Readers of values -/

/-- The reader takes the values that stand for something, and no others. -/
structure Reads (read : Reader α) (Stands : Bytes → α → Prop) : Prop where
  append : ∀ {l v x}, IsBlanks l → Stands v x → ∀ rest, read (l ++ (v ++ rest)) = .ok (x, rest)
  exists_of_ok : ∀ {bs x rest}, read bs = .ok (x, rest) →
    ∃ l v, bs = l ++ (v ++ rest) ∧ IsBlanks l ∧ Stands v x
  isValue : ∀ {v x}, Stands v x → IsValue v
  /-- The end of such a value is seen without regard to what comes after it. -/
  skip : ∀ {l v x}, IsBlanks l → Stands v x → ∀ rest, skipValue (l ++ (v ++ rest)) = .ok rest

/-- Blanks end where a value begins. -/
lemma takeWhile_value (hl : IsBlanks l) (hv : IsValue v) (rest : Bytes) :
    (l ++ (v ++ rest)).takeWhile isBlank = l := by
  obtain ⟨b, bs, rfl, hb⟩ := hv.exists_cons
  rw [List.takeWhile_append_of_pos hl, List.cons_append,
    List.takeWhile_cons_of_neg (by simp [hb.1]), List.append_nil]

/-- A value is read exactly if it stands for something, and then just to its end. -/
lemma Reads.iff {read : Reader α} {Stands : Bytes → α → Prop} (h : Reads read Stands)
    (hl : IsBlanks l) (hv : IsValue v) (hrest : Stops rest) {x : α} {left : Bytes} :
    read (l ++ (v ++ rest)) = .ok (x, left) ↔ Stands v x ∧ left = rest := by
  constructor
  · intro hread
    obtain ⟨l', v', hsplit, hl', hv'⟩ := h.exists_of_ok hread
    -- both ways to see a value leave the same bytes, so it is one value
    have hleft : left = rest := by
      have hskip := skipValue_value hl hv hrest
      rw [hsplit, h.skip hl' hv' left] at hskip
      exact Except.ok.inj hskip
    subst hleft
    have hblanks : l = l' := by
      rw [← takeWhile_value hl hv left, hsplit, takeWhile_value hl' (h.isValue hv') left]
    subst hblanks
    obtain rfl : v = v' := List.append_cancel_right (List.append_cancel_left hsplit)
    exact ⟨hv', rfl⟩
  · rintro ⟨hx, rfl⟩
    exact h.append hl hx left

/-! ### Flags and paths -/

lemma skipValue_scalar {b : UInt8} (hl : IsBlanks l) (hb : Begins b) (hopen : ∀ k, b ≠ opening k)
    (h : skipScalar b bs = .ok rest) : skipValue (l ++ b :: bs) = .ok rest := by
  rw [skipValue, skipOn_blanks hl]
  exact skipOn_scalar hb.1 hopen h

lemma reads_flag : Reads flag IsFlag where
  append := by
    rintro l v x hl rfl rest
    rw [flag, skipBlank_append hl]
    cases x <;> exact rfl
  exists_of_ok := by
    intro bs x rest h
    obtain ⟨l, hsplit, hl⟩ := exists_blanks bs
    unfold flag at h
    split at h
    · cases h
    · rename_i b bs' hbs
      split at h
      · rename_i hb
        obtain ⟨rest, hword, heq⟩ := Except.exists_of_map h
        cases heq
        exact ⟨l, _, by rw [hsplit, hbs, hb, eq_append_of_word hword]; rfl, hl, rfl⟩
      split at h
      · rename_i hb
        obtain ⟨rest, hword, heq⟩ := Except.exists_of_map h
        cases heq
        exact ⟨l, _, by rw [hsplit, hbs, hb, eq_append_of_word hword]; rfl, hl, rfl⟩
      · cases h
  isValue := by
    rintro v x rfl
    exact .bool x
  skip := by
    rintro l v x hl rfl rest
    cases x <;> exact skipValue_scalar hl (by decide) (by decide) (word_append _ rest)

lemma reads_path : Reads path IsPath where
  append := by
    intro l v x hl hv rest
    rw [path, skipBlank_append hl]
    cases hv with
    | null => exact rfl
    | @text raw s h =>
      have htext : text (raw ++ byte '"' :: rest) = .ok (s, rest) :=
        text_eq_ok_iff.mpr ⟨raw, rfl, h⟩
      simp only [List.cons_append, List.append_assoc, List.nil_append]
      rw [skipBlank_cons (by decide)]
      simp only [htext]
      exact rfl
  exists_of_ok := by
    intro bs x rest h
    obtain ⟨l, hsplit, hl⟩ := exists_blanks bs
    unfold path at h
    split at h
    · cases h
    · rename_i b bs' hbs
      split at h
      · rename_i hb
        obtain ⟨rest, hword, heq⟩ := Except.exists_of_map h
        cases heq
        exact ⟨l, _, by rw [hsplit, hbs, hb, eq_append_of_word hword]; rfl, hl, .null⟩
      split at h
      · rename_i hb
        obtain ⟨⟨s, rest⟩, htext, heq⟩ := Except.exists_of_map h
        cases heq
        obtain ⟨raw, rfl, hraw⟩ := text_eq_ok_iff.mp htext
        exact ⟨l, _, by rw [hsplit, hbs, hb]; simp, hl, .text hraw⟩
      · cases h
  isValue := by
    intro v x hv
    cases hv with
    | null => exact .null
    | text h => exact .text h.quotable
  skip := by
    intro l v x hl hv rest
    cases hv with
    | null =>
      exact skipValue_scalar hl (by decide) (by decide) (word_append _ rest)
    | text h =>
      rw [List.cons_append, List.append_assoc]
      exact skipValue_scalar hl (by decide) (by decide)
        (skipText_quotable h.quotable rest)

end Overseer.Config
