import Overseer.Json.Scan
import Overseer.Proofs.Text.Encoding

/-!
# Reading JSON texts back

What stands for a character between the quotes is read as that character, whether it stands for
itself, after a backslash or by its number. A text that was quoted is thus read as the text.
-/

namespace Overseer.Json

open String (utf8EncodeChar)
open Text (encode)

/-- The bytes that stand for characters between the quotes. -/
def written (cs : List Char) : Bytes := (cs.flatMap escapeChar).flatMap utf8EncodeChar

lemma written_cons (c : Char) (cs : List Char) :
    written (c :: cs) = (escapeChar c).flatMap utf8EncodeChar ++ written cs := by
  simp [written]

lemma encode_quote (s : String) :
    encode (quote s) = byte '"' :: (written s.toList ++ [byte '"']) := by
  rw [quote, Text.encode_ofList, List.flatMap_append, List.flatMap_cons]
  rfl

@[simp] lemma ok_bind {α β : Type} (a : α) (f : α → Except Fault β) :
    ((Except.ok a : Except Fault α) >>= f) = f a :=
  rfl

@[simp] lemma prepend_ok (x y rest : Bytes) : prepend x (.ok (y, rest)) = .ok (x ++ y, rest) :=
  rfl

@[simp] lemma prepend_nil (r : Except Fault (Bytes × Bytes)) : prepend [] r = r := by
  cases r <;> rfl

lemma prepend_append (x y : Bytes) (r : Except Fault (Bytes × Bytes)) :
    prepend (x ++ y) r = prepend x (prepend y r) := by
  cases r <;> simp [prepend, Except.map]

section Reading

variable {careful : Bool} {rest : Bytes}

/-- The byte stands for itself between the quotes. -/
def IsOrdinary (b : UInt8) : Prop := b ≠ byte '"' ∧ b ≠ byte '\\' ∧ 32 ≤ b.toNat

lemma textBytes_ordinary {x : Bytes} (h : ∀ b ∈ x, IsOrdinary b) :
    textBytes careful .plain (x ++ rest) = prepend x (textBytes careful .plain rest) := by
  induction x with
  | nil => exact (prepend_nil _).symm
  | cons b x ih =>
    obtain ⟨hquote, hslash, hlow⟩ := h b List.mem_cons_self
    have ih := ih fun a ha => h a (List.mem_cons_of_mem b ha)
    rw [List.cons_append, textBytes, if_neg hquote, if_neg hslash, if_neg (by omega), ih,
      ← prepend_append, List.singleton_append]

lemma textBytes_short {a b : UInt8} (h : shortEscape? a = some b) :
    textBytes careful .plain (byte '\\' :: a :: rest) =
      prepend [b] (textBytes careful .plain rest) := by
  have hu : a ≠ byte 'u' := by
    rintro rfl
    cases h
  rw [textBytes, if_neg (by decide), if_pos rfl, textBytes, if_neg hu, h]

lemma hexValue?_digitChar : ∀ d < 16, hexValue? (byte (Nat.digitChar d)) = some d := by
  decide

lemma utf8EncodeChar_digitChar :
    ∀ d < 16, utf8EncodeChar (Nat.digitChar d) = [byte (Nat.digitChar d)] := by
  decide

/-- One digit of the number of a character. -/
lemma textBytes_digit {owed value d : Nat} {high : Option Nat} (ho : 1 < owed) (hd : d < 16) :
    textBytes careful (.hex owed value high) (byte (Nat.digitChar d) :: rest) =
      textBytes careful (.hex (owed - 1) (value * 16 + d) high) rest := by
  rw [textBytes, hexValue?_digitChar d hd]
  simp only [if_pos ho]

/-- The last digit of the number of a character that is no half of another. -/
lemma textBytes_lastDigit {value d : Nat} (hd : d < 16) (h : value * 16 + d < 0xd800) :
    textBytes true (.hex 1 value none) (byte (Nat.digitChar d) :: rest) =
      prepend (charBytes (value * 16 + d)) (textBytes true .plain rest) := by
  have hafter : afterNumber true (value * 16 + d) none =
      .ok (charBytes (value * 16 + d), .plain) := by
    have hl : isLowHalf (value * 16 + d) = false := by simp [isLowHalf]; omega
    have hh : isHighHalf (value * 16 + d) = false := by simp [isHighHalf]; omega
    simp [afterNumber, hl, hh]
  rw [textBytes, hexValue?_digitChar d hd]
  simp only [Nat.lt_irrefl, if_false, hafter]

/-- A control character is read by its number. -/
lemma textBytes_number {c : Char} (h : c.toNat < 32) :
    textBytes true .plain
        (byte '\\' :: byte 'u' :: byte (Nat.digitChar 0) :: byte (Nat.digitChar 0) ::
          byte (Nat.digitChar (c.toNat / 16)) :: byte (Nat.digitChar (c.toNat % 16)) :: rest) =
      prepend (utf8EncodeChar c) (textBytes true .plain rest) := by
  rw [textBytes, if_neg (by decide), if_pos rfl, textBytes, if_pos rfl, if_neg (by simp),
    textBytes_digit (by omega) (by omega), textBytes_digit (by omega) (by omega),
    textBytes_digit (by omega) (by omega), textBytes_lastDigit (by omega) (by omega), charBytes]
  rw [show ((0 * 16 + 0) * 16 + 0) * 16 + c.toNat / 16 = c.toNat / 16 by omega,
    show c.toNat / 16 * 16 + c.toNat % 16 = c.toNat by omega, Char.ofNat_toNat]

lemma isOrdinary_of_mem {c : Char} (hquote : c ≠ '"') (hslash : c ≠ '\\') (h : 32 ≤ c.toNat)
    {b : UInt8} (hb : b ∈ utf8EncodeChar c) : IsOrdinary b := by
  rcases Nat.lt_or_ge c.toNat 0x80 with hascii | hhigh
  · rw [Text.utf8EncodeChar_one hascii, List.mem_singleton] at hb
    subst hb
    have hback : (UInt8.ofNat c.toNat).toNat = c.toNat := Text.toNat_ofNat (by omega)
    refine ⟨fun heq => hquote ?_, fun heq => hslash ?_, by omega⟩ <;>
    · have := congrArg UInt8.toNat heq
      rw [hback] at this
      exact Char.toNat_inj.1 this
  · have := Text.le_of_mem_utf8EncodeChar hhigh hb
    refine ⟨?_, ?_, by omega⟩ <;> rintro rfl <;> exact absurd this (by decide)

/-- What stands for a character is read as the bytes of the character. -/
lemma textBytes_escapeChar (c : Char) :
    textBytes true .plain ((escapeChar c).flatMap utf8EncodeChar ++ rest) =
      prepend (utf8EncodeChar c) (textBytes true .plain rest) := by
  rw [escapeChar]
  split_ifs with hspecial hb ht hn hf hr hcontrol
  · rcases hspecial with rfl | rfl <;> exact textBytes_short rfl
  · subst hb; exact textBytes_short rfl
  · subst ht; exact textBytes_short rfl
  · subst hn; exact textBytes_short rfl
  · subst hf; exact textBytes_short rfl
  · subst hr; exact textBytes_short rfl
  · have hhigh := utf8EncodeChar_digitChar (c.toNat / 16) (by omega)
    have hlow := utf8EncodeChar_digitChar (c.toNat % 16) (by omega)
    have hdigits : [Nat.digitChar (c.toNat / 16), Nat.digitChar (c.toNat % 16)].flatMap
        utf8EncodeChar = [byte (Nat.digitChar (c.toNat / 16)), byte (Nat.digitChar (c.toNat % 16))]
        := by
      rw [List.flatMap_cons, List.flatMap_singleton, hhigh, hlow, List.singleton_append]
    rw [List.flatMap_append, hdigits]
    exact textBytes_number hcontrol
  · rw [List.flatMap_singleton]
    have ⟨hquote, hslash⟩ := not_or.1 hspecial
    exact textBytes_ordinary fun b => isOrdinary_of_mem hquote hslash (by omega)

lemma textBytes_written (cs : List Char) :
    textBytes true .plain (written cs ++ byte '"' :: rest) =
      .ok (cs.flatMap utf8EncodeChar, rest) := by
  induction cs with
  | nil => rfl
  | cons c cs ih =>
    rw [written_cons, List.append_assoc, textBytes_escapeChar, ih, prepend_ok, List.flatMap_cons]

/-- A text that was quoted is read as the text. -/
theorem text_written (s : String) :
    text (written s.toList ++ byte '"' :: rest) = .ok (s, rest) := by
  have hdecode := Text.decode?_flatMap s.toList
  rw [text, textBytes_written, ok_bind]
  simp only [hdecode, String.ofList_toList]
  rfl

end Reading

end Overseer.Json
