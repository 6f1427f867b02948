import Overseer.Proofs.Text.Encoding

/-!
# Which bytes spell a text

The byte machine accepts nothing but the bytes of a text: whenever it has come to rest at the end,
each character it has read is spelled by just the bytes that it took. Together with the other
direction, bytes are accepted exactly if some text has them.
-/

namespace Overseer.Text

open String (utf8EncodeChar)

/-! ## Steps read backwards -/

section Steps

variable {p : Pending} {b : UInt8} {bs : Bytes} {cs : List Char}

/-- A character that is under way with more than one byte to come takes a byte within its bounds. -/
lemma inner_of_decodeFrom (howed : 1 < p.owed) (h : decodeFrom (some p) bs = some cs) :
    ∃ b rest, bs = b :: rest ∧ p.low ≤ b.toNat ∧ b.toNat ≤ p.high ∧
      decodeFrom (some ⟨p.owed - 1, 0x80, 0xbf, p.value * 64 + (b.toNat - 0x80)⟩) rest =
        some cs := by
  cases bs with
  | nil => cases h
  | cons b rest =>
    simp only [decodeFrom, byteStep, Pending.next] at h
    by_cases hbounds : p.low ≤ b.toNat ∧ b.toNat ≤ p.high
    · rw [if_pos hbounds, if_neg (Nat.not_le.mpr howed)] at h
      exact ⟨b, rest, rfl, hbounds.1, hbounds.2, h⟩
    · rw [if_neg hbounds] at h
      cases h

/-- The last byte of a character ends it. -/
lemma last_of_decodeFrom (howed : p.owed = 1) (h : decodeFrom (some p) bs = some cs) :
    ∃ b rest cs', bs = b :: rest ∧ p.low ≤ b.toNat ∧ b.toNat ≤ p.high ∧
      cs = Char.ofNat (p.value * 64 + (b.toNat - 0x80)) :: cs' ∧
      decodeFrom none rest = some cs' := by
  cases bs with
  | nil => cases h
  | cons b rest =>
    simp only [decodeFrom, byteStep, Pending.next] at h
    by_cases hbounds : p.low ≤ b.toNat ∧ b.toNat ≤ p.high
    · rw [if_pos hbounds, if_pos (Nat.le_of_eq howed)] at h
      obtain ⟨cs', hcs', rfl⟩ := Option.map_eq_some_iff.mp h
      exact ⟨b, rest, cs', rfl, hbounds.1, hbounds.2, rfl, hcs'⟩
    · rw [if_neg hbounds] at h
      cases h

lemma toNat_char {n : Nat} (h : n < 0xd800 ∨ 0xdfff < n ∧ n < 0x110000) :
    (Char.ofNat n).toNat = n := by
  rw [Char.ofNat, dif_pos h]
  rfl

lemma ofNat_eq {n : Nat} (h : n = b.toNat) : UInt8.ofNat n = b := by
  rw [h, UInt8.ofNat_toNat]

/-- What a first byte that is not refused says of the character. -/
inductive Begins (b : UInt8) : ByteStep → Prop where
  | one (h : b.toNat < 0x80) : Begins b (.done (Char.ofNat b.toNat))
  | two (hlow : 0xc2 ≤ b.toNat) (h : b.toNat < 0xe0) :
      Begins b (.more ⟨1, 0x80, 0xbf, b.toNat - 0xc0⟩)
  | three (hlow : 0xe0 ≤ b.toNat) (h : b.toNat < 0xf0) :
      Begins b (.more ⟨2, if b.toNat = 0xe0 then 0xa0 else 0x80,
        if b.toNat = 0xed then 0x9f else 0xbf, b.toNat - 0xe0⟩)
  | four (hlow : 0xf0 ≤ b.toNat) (h : b.toNat < 0xf5) :
      Begins b (.more ⟨3, if b.toNat = 0xf0 then 0x90 else 0x80,
        if b.toNat = 0xf4 then 0x8f else 0xbf, b.toNat - 0xf0⟩)
  | broken : Begins b .broken

lemma begins_firstByte (b : UInt8) : Begins b (firstByte b) := by
  unfold firstByte
  dsimp only
  split
  · exact .one ‹_›
  split
  · exact .broken
  split
  · exact .two (by omega) ‹_›
  split
  · exact .three (by omega) ‹_›
  split
  · exact .four (by omega) ‹_›
  · exact .broken

end Steps

/-! ## A character at a time -/

/-- The bytes that the machine takes for a character are the bytes of the character. -/
lemma exists_of_decodeFrom {b : UInt8} {bs : Bytes} {cs : List Char}
    (h : decodeFrom none (b :: bs) = some cs) :
    ∃ c rest cs', b :: bs = utf8EncodeChar c ++ rest ∧ cs = c :: cs' ∧
      decodeFrom none rest = some cs' := by
  have hbegins := begins_firstByte b
  simp only [decodeFrom, byteStep] at h
  generalize firstByte b = step at h hbegins
  cases hbegins with
  | one hb =>
    obtain ⟨cs', hcs', rfl⟩ := Option.map_eq_some_iff.mp h
    have hc : (Char.ofNat b.toNat).toNat = b.toNat := toNat_char (by omega)
    refine ⟨_, bs, cs', ?_, rfl, hcs'⟩
    rw [utf8EncodeChar_one (by omega), ofNat_eq hc, List.singleton_append]
  | two hlow hb =>
    obtain ⟨b₁, rest, cs', rfl, hlow₁, hhigh₁, rfl, hcs'⟩ := last_of_decodeFrom rfl h
    simp only at hlow₁ hhigh₁ ⊢
    generalize hv : (b.toNat - 0xc0) * 64 + (b₁.toNat - 0x80) = v
    have hc := toNat_char (n := v) (by omega)
    refine ⟨Char.ofNat v, rest, cs', ?_, rfl, hcs'⟩
    rw [utf8EncodeChar_two (by omega) (by omega), hc, ofNat_eq (b := b) (by omega),
      ofNat_eq (b := b₁) (by omega)]
    rfl
  | three hlow hb =>
    obtain ⟨b₁, rest, rfl, hlow₁, hhigh₁, h⟩ := inner_of_decodeFrom (by simp) h
    obtain ⟨b₂, rest, cs', rfl, hlow₂, hhigh₂, rfl, hcs'⟩ := last_of_decodeFrom rfl h
    simp only at hlow₁ hhigh₁ hlow₂ hhigh₂ ⊢
    generalize hv :
      ((b.toNat - 0xe0) * 64 + (b₁.toNat - 0x80)) * 64 + (b₂.toNat - 0x80) = v
    -- the bounds of the second byte leave out shorter forms and surrogates
    have hvalid : 0x80 ≤ b₁.toNat ∧ b₁.toNat ≤ 0xbf ∧ 0x800 ≤ v ∧ v < 0x10000 ∧
        (v < 0xd800 ∨ 0xdfff < v) := by
      split at hlow₁ <;> split at hhigh₁ <;> omega
    have hc := toNat_char (n := v) (by omega)
    refine ⟨Char.ofNat v, rest, cs', ?_, rfl, hcs'⟩
    rw [utf8EncodeChar_three (by omega) (by omega), hc, ofNat_eq (b := b) (by omega),
      ofNat_eq (b := b₁) (by omega), ofNat_eq (b := b₂) (by omega)]
    rfl
  | four hlow hb =>
    obtain ⟨b₁, rest, rfl, hlow₁, hhigh₁, h⟩ := inner_of_decodeFrom (by simp) h
    obtain ⟨b₂, rest, rfl, hlow₂, hhigh₂, h⟩ := inner_of_decodeFrom (by simp) h
    obtain ⟨b₃, rest, cs', rfl, hlow₃, hhigh₃, rfl, hcs'⟩ := last_of_decodeFrom rfl h
    simp only at hlow₁ hhigh₁ hlow₂ hhigh₂ hlow₃ hhigh₃ ⊢
    generalize hv : (((b.toNat - 0xf0) * 64 + (b₁.toNat - 0x80)) * 64 + (b₂.toNat - 0x80)) * 64 +
      (b₃.toNat - 0x80) = v
    have hvalid : 0x80 ≤ b₁.toNat ∧ b₁.toNat ≤ 0xbf ∧ 0x10000 ≤ v ∧ v < 0x110000 := by
      split at hlow₁ <;> split at hhigh₁ <;> omega
    have hc := toNat_char (n := v) (by omega)
    refine ⟨Char.ofNat v, rest, cs', ?_, rfl, hcs'⟩
    rw [utf8EncodeChar_four (by omega), hc, ofNat_eq (b := b) (by omega),
      ofNat_eq (b := b₁) (by omega), ofNat_eq (b := b₂) (by omega), ofNat_eq (b := b₃) (by omega)]
    rfl
  | broken => cases h

/-- Bytes spell a text exactly if they are the bytes of the text. -/
theorem decode?_eq_some_iff {bs : Bytes} {cs : List Char} :
    decode? bs = some cs ↔ bs = cs.flatMap utf8EncodeChar := by
  constructor
  · intro h
    induction cs generalizing bs with
    | nil =>
      cases bs with
      | nil => rfl
      | cons b bs =>
        obtain ⟨_, _, _, -, hcs, -⟩ := exists_of_decodeFrom h
        cases hcs
    | cons c cs ih =>
      cases bs with
      | nil => cases h
      | cons b bs =>
        obtain ⟨_, rest, _, hbs, hcs, hrest⟩ := exists_of_decodeFrom h
        cases hcs
        rw [hbs, List.flatMap_cons, ih hrest]
  · rintro rfl
    exact decode?_flatMap cs

end Overseer.Text
