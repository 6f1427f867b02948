import Mathlib.Tactic.Common
import Overseer.Text.Utf8

/-!
# Reading a text from its bytes

The bytes of a character take the byte machine from rest to rest, and what it reads on the way is
the character. So the bytes of a text spell the text and nothing else.
-/

namespace Overseer.Text

open String (utf8EncodeChar)

/-! ## The bytes of a character -/

section Bytes

variable {c : Char}

lemma toNat_lt_or_gt (c : Char) : c.toNat < 0xd800 ∨ 0xdfff < c.toNat ∧ c.toNat < 0x110000 :=
  c.valid

lemma utf8EncodeChar_one (h : c.toNat < 0x80) : utf8EncodeChar c = [UInt8.ofNat c.toNat] := by
  rw [utf8EncodeChar]
  exact if_pos (Nat.le_of_lt_succ h)

lemma utf8EncodeChar_two (hlow : 0x80 ≤ c.toNat) (h : c.toNat < 0x800) :
    utf8EncodeChar c =
      [UInt8.ofNat (c.toNat / 64 + 0xc0), UInt8.ofNat (c.toNat % 64 + 0x80)] := by
  rw [utf8EncodeChar]
  change ite (c.toNat ≤ 127) _ (ite (c.toNat ≤ 2047) _ _) = _
  rw [if_neg (by omega), if_pos (by omega)]
  rw [show c.val.toNat = c.toNat from rfl, show c.toNat / 64 % 32 = c.toNat / 64 by omega]

lemma utf8EncodeChar_three (hlow : 0x800 ≤ c.toNat) (h : c.toNat < 0x10000) :
    utf8EncodeChar c =
      [UInt8.ofNat (c.toNat / 4096 + 0xe0), UInt8.ofNat (c.toNat / 64 % 64 + 0x80),
        UInt8.ofNat (c.toNat % 64 + 0x80)] := by
  rw [utf8EncodeChar]
  change ite (c.toNat ≤ 127) _ (ite (c.toNat ≤ 2047) _ (ite (c.toNat ≤ 65535) _ _)) = _
  rw [if_neg (by omega), if_neg (by omega), if_pos (by omega)]
  rw [show c.val.toNat = c.toNat from rfl, show c.toNat / 4096 % 16 = c.toNat / 4096 by omega]

lemma utf8EncodeChar_four (hlow : 0x10000 ≤ c.toNat) :
    utf8EncodeChar c =
      [UInt8.ofNat (c.toNat / 262144 + 0xf0), UInt8.ofNat (c.toNat / 4096 % 64 + 0x80),
        UInt8.ofNat (c.toNat / 64 % 64 + 0x80), UInt8.ofNat (c.toNat % 64 + 0x80)] := by
  have h := toNat_lt_or_gt c
  rw [utf8EncodeChar]
  change ite (c.toNat ≤ 127) _ (ite (c.toNat ≤ 2047) _ (ite (c.toNat ≤ 65535) _ _)) = _
  rw [if_neg (by omega), if_neg (by omega), if_neg (by omega)]
  rw [show c.val.toNat = c.toNat from rfl, show c.toNat / 262144 % 8 = c.toNat / 262144 by omega]

lemma toNat_ofNat {n : Nat} (h : n < 256) : (UInt8.ofNat n).toNat = n :=
  UInt8.toNat_ofNat_of_lt h

/-- A character beyond ASCII has no ASCII byte. -/
lemma le_of_mem_utf8EncodeChar (h : 0x80 ≤ c.toNat) {b : UInt8} (hb : b ∈ utf8EncodeChar c) :
    0x80 ≤ b.toNat := by
  have hc := toNat_lt_or_gt c
  rcases Nat.lt_or_ge c.toNat 0x800 with h2 | h2
  · rw [utf8EncodeChar_two h h2] at hb
    simp only [List.mem_cons, List.not_mem_nil, or_false] at hb
    obtain rfl | rfl := hb <;> rw [toNat_ofNat (by omega)] <;> omega
  rcases Nat.lt_or_ge c.toNat 0x10000 with h3 | h3
  · rw [utf8EncodeChar_three h2 h3] at hb
    simp only [List.mem_cons, List.not_mem_nil, or_false] at hb
    obtain rfl | rfl | rfl := hb <;> rw [toNat_ofNat (by omega)] <;> omega
  · rw [utf8EncodeChar_four h3] at hb
    simp only [List.mem_cons, List.not_mem_nil, or_false] at hb
    obtain rfl | rfl | rfl | rfl := hb <;> rw [toNat_ofNat (by omega)] <;> omega

end Bytes

/-! ## The bytes of a text -/

@[simp] lemma encode_append (s t : String) : encode (s ++ t) = encode s ++ encode t := by
  simp [encode]

lemma encode_ofList (cs : List Char) :
    encode (String.ofList cs) = cs.flatMap utf8EncodeChar := by
  simp [encode]

/-! ## The byte machine -/

section Machine

variable {p : Option Pending} {b : UInt8} {bs : Bytes}

lemma decodeFrom_done {c : Char} (h : byteStep p b = .done c) :
    decodeFrom p (b :: bs) = (decodeFrom none bs).map (c :: ·) := by
  cases p <;> simp only [decodeFrom, h]

lemma decodeFrom_more {q : Pending} (h : byteStep p b = .more q) :
    decodeFrom p (b :: bs) = decodeFrom (some q) bs := by
  cases p <;> simp only [decodeFrom, h]

variable {n : Nat}

lemma byteStep_last {p : Pending} (hn : n < 64) (howed : p.owed ≤ 1)
    (hlow : p.low ≤ n + 0x80) (hhigh : n + 0x80 ≤ p.high) :
    byteStep (some p) (UInt8.ofNat (n + 0x80)) = .done (Char.ofNat (p.value * 64 + n)) := by
  simp only [byteStep, Pending.next]
  rw [toNat_ofNat (by omega), if_pos ⟨hlow, hhigh⟩, if_pos howed, Nat.add_sub_cancel]

lemma byteStep_inner {p : Pending} (hn : n < 64) (howed : 1 < p.owed)
    (hlow : p.low ≤ n + 0x80) (hhigh : n + 0x80 ≤ p.high) :
    byteStep (some p) (UInt8.ofNat (n + 0x80)) =
      .more ⟨p.owed - 1, 0x80, 0xbf, p.value * 64 + n⟩ := by
  simp only [byteStep, Pending.next]
  rw [toNat_ofNat (by omega), if_pos ⟨hlow, hhigh⟩, if_neg (by omega), Nat.add_sub_cancel]

lemma byteStep_one (h : n < 0x80) :
    byteStep none (UInt8.ofNat n) = .done (Char.ofNat n) := by
  simp only [byteStep, firstByte]
  rw [toNat_ofNat (by omega), if_pos h]

lemma byteStep_two (hlow : 2 ≤ n) (h : n < 32) :
    byteStep none (UInt8.ofNat (n + 0xc0)) = .more ⟨1, 0x80, 0xbf, n⟩ := by
  simp only [byteStep, firstByte]
  rw [toNat_ofNat (by omega), if_neg (by omega), if_neg (by omega), if_pos (by omega),
    Nat.add_sub_cancel]

lemma byteStep_three (h : n < 16) :
    byteStep none (UInt8.ofNat (n + 0xe0)) =
      .more ⟨2, if n = 0 then 0xa0 else 0x80, if n = 13 then 0x9f else 0xbf, n⟩ := by
  simp only [byteStep, firstByte]
  rw [toNat_ofNat (by omega), if_neg (by omega), if_neg (by omega), if_neg (by omega),
    if_pos (by omega), Nat.add_sub_cancel]
  simp only [Nat.add_eq_right, Nat.reduceEqDiff]

lemma byteStep_four (h : n < 5) :
    byteStep none (UInt8.ofNat (n + 0xf0)) =
      .more ⟨3, if n = 0 then 0x90 else 0x80, if n = 4 then 0x8f else 0xbf, n⟩ := by
  simp only [byteStep, firstByte]
  rw [toNat_ofNat (by omega), if_neg (by omega), if_neg (by omega), if_neg (by omega),
    if_neg (by omega), if_pos (by omega), Nat.add_sub_cancel]
  simp only [Nat.add_eq_right, Nat.reduceEqDiff]

/-- The machine reads a character off its bytes. -/
lemma decodeFrom_utf8EncodeChar (c : Char) (rest : Bytes) :
    decodeFrom none (utf8EncodeChar c ++ rest) = (decodeFrom none rest).map (c :: ·) := by
  have hc := toNat_lt_or_gt c
  have hback := Char.ofNat_toNat c
  rcases Nat.lt_or_ge c.toNat 0x80 with h1 | h1
  · rw [utf8EncodeChar_one h1, List.singleton_append, decodeFrom_done (byteStep_one h1), hback]
  rcases Nat.lt_or_ge c.toNat 0x800 with h2 | h2
  · have hvalue : c.toNat / 64 * 64 + c.toNat % 64 = c.toNat := by omega
    rw [utf8EncodeChar_two h1 h2]
    simp only [List.cons_append, List.nil_append]
    rw [decodeFrom_more (byteStep_two (by omega) (by omega)),
      decodeFrom_done (byteStep_last (by omega) (by simp) (by simp) (by simp only; omega)), hvalue,
      hback]
  rcases Nat.lt_or_ge c.toNat 0x10000 with h3 | h3
  · have hvalue : (c.toNat / 4096 * 64 + c.toNat / 64 % 64) * 64 + c.toNat % 64 = c.toNat := by
      omega
    rw [utf8EncodeChar_three h2 h3]
    simp only [List.cons_append, List.nil_append]
    -- the second byte is in its bounds as the character is no surrogate and not below 0x800
    rw [decodeFrom_more (byteStep_three (by omega)),
      decodeFrom_more (byteStep_inner (by omega) (by simp) (by simp only; split <;> omega)
        (by simp only; split <;> omega)),
      decodeFrom_done (byteStep_last (by omega) (by simp) (by simp) (by simp only; omega)), hvalue,
      hback]
  · have hvalue : ((c.toNat / 262144 * 64 + c.toNat / 4096 % 64) * 64 + c.toNat / 64 % 64) * 64
        + c.toNat % 64 = c.toNat := by
      omega
    rw [utf8EncodeChar_four h3]
    simp only [List.cons_append, List.nil_append]
    rw [decodeFrom_more (byteStep_four (by omega)),
      decodeFrom_more (byteStep_inner (by omega) (by simp) (by simp only; split <;> omega)
        (by simp only; split <;> omega)),
      decodeFrom_more (byteStep_inner (by omega) (by simp) (by simp) (by simp only; omega)),
      decodeFrom_done (byteStep_last (by omega) (by simp) (by simp) (by simp only; omega)), hvalue,
      hback]

end Machine

/-- The bytes of a text spell it. -/
theorem decode?_flatMap (cs : List Char) : decode? (cs.flatMap utf8EncodeChar) = some cs := by
  induction cs with
  | nil => rfl
  | cons c cs ih =>
    rw [decode?] at ih ⊢
    rw [List.flatMap_cons, decodeFrom_utf8EncodeChar, ih, Option.map_some]

end Overseer.Text
