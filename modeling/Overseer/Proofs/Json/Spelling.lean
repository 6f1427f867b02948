import Overseer.Proofs.Except
import Overseer.Proofs.Json.Grammar
import Overseer.Proofs.Text.Decoding

/-!
# Texts are read as they are spelled

A text ends at the first quote that no backslash stands before, and is read if and only if what
stands before that quote follows the grammar. With care it is read as what it spells.
-/

namespace Overseer.Json

open Text (encode)

section

variable {careful : Bool} {high : Option Nat} {n value owed : Nat} {ds bs raw x rest : Bytes}

/-! ### What follows the grammar is read -/

/-- How the reading goes on after the number of a character. -/
def resume (careful : Bool) (n : Nat) (high : Option Nat) (bs : Bytes) :
    Except Fault (Bytes × Bytes) :=
  match afterNumber careful n high with
  | .ok (x, next) => prepend x (textBytes careful next bs)
  | .error e => .error e

lemma textBytes_hex_inner {b : UInt8} {d : Nat} (howed : 1 < owed) (hb : hexValue? b = some d) :
    textBytes careful (.hex owed value high) (b :: bs) =
      textBytes careful (.hex (owed - 1) (value * 16 + d) high) bs := by
  rw [textBytes, hb]
  exact if_pos howed

lemma textBytes_hex_last {b : UInt8} {d : Nat} (hb : hexValue? b = some d) :
    textBytes careful (.hex 1 value high) (b :: bs) = resume careful (value * 16 + d) high bs := by
  rw [textBytes, hb]
  exact if_neg (Nat.lt_irrefl 1)

lemma textBytes_hex (hds : Hex ds n) :
    textBytes careful (.hex 4 0 high) (ds ++ bs) = resume careful n high bs := by
  cases hds with
  | mk ha hb hc hd =>
    simp only [List.cons_append, List.nil_append]
    rw [textBytes_hex_inner (by omega) ha, textBytes_hex_inner (by omega) hb,
      textBytes_hex_inner (by omega) hc, textBytes_hex_last hd, Nat.zero_mul, Nat.zero_add]

lemma Hex.four_le (hds : Hex ds n) (bs : Bytes) : ¬(ds ++ bs).length < 4 := by
  cases hds
  simp

lemma textBytes_numbered (hds : Hex ds n) :
    textBytes careful .plain (byte '\\' :: byte 'u' :: (ds ++ bs)) = resume careful n none bs := by
  rw [textBytes, if_neg (by decide), if_pos rfl, textBytes, if_pos rfl, if_neg (hds.four_le bs),
    textBytes_hex hds]

lemma textBytes_second (hds : Hex ds n) {h : Nat} :
    textBytes careful (.pairEscape h) (byte '\\' :: byte 'u' :: (ds ++ bs)) =
      resume careful n (some h) bs := by
  rw [textBytes, if_pos rfl, textBytes, if_pos rfl, if_neg (hds.four_le bs), textBytes_hex hds]

lemma textBytes_plain {b : UInt8} (hb : IsOrdinary b) :
    textBytes careful .plain (b :: bs) = prepend [b] (textBytes careful .plain bs) :=
  textBytes_ordinary (x := [b]) (by simpa using hb)

lemma textBytes_quotable (h : Quotable raw) (rest : Bytes) :
    ∃ x, textBytes false .plain (raw ++ byte '"' :: rest) = .ok (x, rest) := by
  induction h with
  | nil => exact ⟨[], rfl⟩
  | plain hb _ ih =>
    obtain ⟨x, hx⟩ := ih
    exact ⟨_, by rw [List.cons_append, textBytes_plain hb, hx, prepend_ok]⟩
  | short ha _ ih =>
    obtain ⟨x, hx⟩ := ih
    exact ⟨_, by rw [List.cons_append, List.cons_append, textBytes_short ha, hx, prepend_ok]⟩
  | number hds _ ih =>
    obtain ⟨x, hx⟩ := ih
    refine ⟨x, ?_⟩
    rw [List.cons_append, List.cons_append, List.append_assoc, textBytes_numbered hds]
    exact (prepend_nil _).trans hx

lemma textBytes_spelled (h : Spelled raw x) (rest : Bytes) :
    textBytes true .plain (raw ++ byte '"' :: rest) = .ok (x, rest) := by
  induction h with
  | nil => rfl
  | plain hb _ ih => rw [List.cons_append, textBytes_plain hb, ih, prepend_ok]; rfl
  | short ha _ ih =>
    rw [List.cons_append, List.cons_append, textBytes_short ha, ih, prepend_ok]
    rfl
  | number hds hlow hhigh _ ih =>
    rw [List.cons_append, List.cons_append, List.append_assoc, textBytes_numbered hds, resume,
      afterNumber, hlow, hhigh]
    simp only [Bool.not_true, Bool.false_eq_true, if_false, ih, prepend_ok]
  | pair hds hhigh hds' hlow _ ih =>
    have hsecond {n : Nat} (hhigh : isHighHalf n = true) : isLowHalf n = false := by
      simp only [isHighHalf, Bool.and_eq_true, decide_eq_true_eq] at hhigh
      simp only [isLowHalf, Bool.and_eq_false_iff, decide_eq_false_iff_not]
      omega
    simp only [List.cons_append, List.append_assoc]
    rw [textBytes_numbered hds, resume, afterNumber, hsecond hhigh, hhigh]
    simp only [Bool.not_true, Bool.false_eq_true, if_false, if_true, prepend_nil]
    rw [textBytes_second hds', resume, afterNumber, hlow]
    simp only [Bool.not_true, Bool.false_eq_true, if_false, if_true, ih, prepend_ok]

lemma skipText_quotable (h : Quotable raw) (rest : Bytes) :
    skipText (raw ++ byte '"' :: rest) = .ok rest := by
  obtain ⟨x, hx⟩ := textBytes_quotable h rest
  rw [skipText, hx]
  rfl

/-! ### What is read follows the grammar -/

lemma exists_of_prepend {y : Bytes} {r : Except Fault (Bytes × Bytes)}
    (h : prepend y r = .ok (x, rest)) : ∃ x', r = .ok (x', rest) ∧ x = y ++ x' := by
  obtain ⟨⟨x', rest'⟩, hr, heq⟩ := Except.exists_of_map h
  cases heq
  exact ⟨x', hr, rfl⟩

/-- What was read after the number of a character. -/
lemma exists_of_resume (h : resume careful n high bs = .ok (x, rest)) :
    ∃ y next x', afterNumber careful n high = .ok (y, next) ∧
      textBytes careful next bs = .ok (x', rest) ∧ x = y ++ x' := by
  unfold resume at h
  split at h
  · rename_i y next hafter
    obtain ⟨x', hx', rfl⟩ := exists_of_prepend h
    exact ⟨y, next, x', hafter, hx', rfl⟩
  · cases h

lemma exists_digit (h : textBytes careful (.hex owed value high) bs = .ok (x, rest)) :
    ∃ b d bs', bs = b :: bs' ∧ hexValue? b = some d := by
  cases bs with
  | nil => cases h
  | cons b bs =>
    rw [textBytes] at h
    cases hb : hexValue? b with
    | none =>
      rw [hb] at h
      cases h
    | some d => exact ⟨b, d, bs, rfl, hb⟩

lemma exists_hex (h : textBytes careful (.hex 4 0 high) bs = .ok (x, rest)) :
    ∃ ds n bs', bs = ds ++ bs' ∧ Hex ds n ∧ resume careful n high bs' = .ok (x, rest) := by
  obtain ⟨a, w, bs₁, rfl, ha⟩ := exists_digit h
  rw [textBytes_hex_inner (by omega) ha] at h
  obtain ⟨b, v, bs₂, rfl, hb⟩ := exists_digit h
  rw [textBytes_hex_inner (by omega) hb] at h
  obtain ⟨c, y, bs₃, rfl, hc⟩ := exists_digit h
  rw [textBytes_hex_inner (by omega) hc] at h
  obtain ⟨d, z, bs₄, rfl, hd⟩ := exists_digit h
  rw [textBytes_hex_last hd, Nat.zero_mul, Nat.zero_add] at h
  exact ⟨[a, b, c, d], _, bs₄, rfl, .mk ha hb hc hd, h⟩

/-- What a text that was read begins with. -/
inductive Front (careful : Bool) (bs x rest : Bytes) : Prop where
  | close (hbs : bs = byte '"' :: rest) (hx : x = [])
  | plain {b bs' x'} (hbs : bs = b :: bs') (hb : IsOrdinary b) (hx : x = b :: x')
      (h : textBytes careful .plain bs' = .ok (x', rest))
  | short {a b bs' x'} (hbs : bs = byte '\\' :: a :: bs') (ha : shortEscape? a = some b)
      (hx : x = b :: x') (h : textBytes careful .plain bs' = .ok (x', rest))
  | number {ds n bs'} (hbs : bs = byte '\\' :: byte 'u' :: (ds ++ bs')) (hds : Hex ds n)
      (h : resume careful n none bs' = .ok (x, rest))

lemma front_of_escape (h : textBytes careful .escape bs = .ok (x, rest)) :
    Front careful (byte '\\' :: bs) x rest := by
  cases bs with
  | nil => cases h
  | cons a bs =>
    rw [textBytes] at h
    by_cases hu : a = byte 'u'
    · subst hu
      rw [if_pos rfl] at h
      split at h
      · cases h
      · obtain ⟨ds, n, bs', rfl, hds, hresume⟩ := exists_hex h
        exact .number rfl hds hresume
    · rw [if_neg hu] at h
      split at h
      · rename_i b ha
        obtain ⟨x', hx', rfl⟩ := exists_of_prepend h
        exact .short rfl ha rfl hx'
      · cases h

lemma front_of_plain (h : textBytes careful .plain bs = .ok (x, rest)) :
    Front careful bs x rest := by
  cases bs with
  | nil => cases h
  | cons b bs =>
    rw [textBytes] at h
    by_cases hquote : b = byte '"'
    · rw [if_pos hquote] at h
      cases h
      exact .close (by rw [hquote]) rfl
    · rw [if_neg hquote] at h
      by_cases hslash : b = byte '\\'
      · subst hslash
        rw [if_pos rfl] at h
        exact front_of_escape h
      · rw [if_neg hslash] at h
        split at h
        · cases h
        · rename_i hlow
          obtain ⟨x', hx', rfl⟩ := exists_of_prepend h
          exact .plain rfl ⟨hquote, hslash, by omega⟩ rfl hx'

/-- The second half of a character. -/
lemma exists_second {h : Nat} (hread : textBytes true (.pairEscape h) bs = .ok (x, rest)) :
    ∃ ds n bs' x', bs = byte '\\' :: byte 'u' :: (ds ++ bs') ∧ Hex ds n ∧ isLowHalf n = true ∧
      textBytes true .plain bs' = .ok (x', rest) ∧
        x = charBytes (0x10000 + (h - 0xd800) * 0x400 + (n - 0xdc00)) ++ x' := by
  cases bs with
  | nil => cases hread
  | cons b bs =>
    rw [textBytes] at hread
    split at hread
    · rename_i hslash
      subst hslash
      cases bs with
      | nil => cases hread
      | cons b bs =>
        rw [textBytes] at hread
        split at hread
        · rename_i hu
          subst hu
          split at hread
          · cases hread
          · obtain ⟨ds, n, bs', rfl, hds, hresume⟩ := exists_hex hread
            obtain ⟨y, next, x', hafter, hx', rfl⟩ := exists_of_resume hresume
            cases hlow : isLowHalf n with
            | false => simp [afterNumber, hlow] at hafter
            | true =>
              simp only [afterNumber, hlow, Bool.not_true, Bool.false_eq_true, if_false, if_true,
                Except.ok.injEq, Prod.mk.injEq] at hafter
              obtain ⟨rfl, rfl⟩ := hafter
              exact ⟨ds, n, bs', x', rfl, hds, hlow, hx', rfl⟩
        · cases hread
    · cases hread

/-- With care, a number is that of a character or of the first half of one. -/
lemma afterNumber_eq_ok {y : Bytes} {next : TextAt} (h : afterNumber true n none = .ok (y, next)) :
    isLowHalf n = false ∧ (isHighHalf n = false ∧ y = charBytes n ∧ next = .plain ∨
      isHighHalf n = true ∧ y = [] ∧ next = .pairEscape n) := by
  simp only [afterNumber, Bool.not_true, Bool.false_eq_true, if_false] at h
  split at h
  · cases h
  · rename_i hlow
    refine ⟨by simpa using hlow, ?_⟩
    split at h
    · rename_i hhigh
      cases h
      exact .inr ⟨hhigh, rfl, rfl⟩
    · rename_i hhigh
      cases h
      exact .inl ⟨by simpa using hhigh, rfl, rfl⟩

end

/-- With care, what is read up to the closing quote is what is spelled before it. -/
lemma exists_of_textBytes {bs x rest : Bytes} (h : textBytes true .plain bs = .ok (x, rest)) :
    ∃ raw, bs = raw ++ byte '"' :: rest ∧ Spelled raw x := by
  induction hlength : bs.length using Nat.strongRecOn generalizing bs x with
  | ind length ih =>
    cases front_of_plain h with
    | close hbs hx => exact ⟨[], hbs, by rw [hx]; exact .nil⟩
    | plain hbs hb hx hread =>
      subst hbs hx
      obtain ⟨raw, rfl, hraw⟩ := ih _ (by simp [← hlength]) hread rfl
      exact ⟨_, rfl, .plain hb hraw⟩
    | short hbs ha hx hread =>
      subst hbs hx
      obtain ⟨raw, rfl, hraw⟩ := ih _ (by simp only [← hlength, List.length_cons]; omega) hread rfl
      exact ⟨_, rfl, .short ha hraw⟩
    | number hbs hds hread =>
      subst hbs
      obtain ⟨y, next, x', hafter, hx', rfl⟩ := exists_of_resume hread
      obtain ⟨hlow, ⟨hhigh, rfl, rfl⟩ | ⟨hhigh, rfl, rfl⟩⟩ := afterNumber_eq_ok hafter
      · obtain ⟨raw, rfl, hraw⟩ := ih _ (by simp [← hlength]; omega) hx' rfl
        exact ⟨_, by simp, .number hds hlow hhigh hraw⟩
      · obtain ⟨ds', n', bs', x'', rfl, hds', hlow', hx'', hx⟩ := exists_second hx'
        obtain ⟨raw, rfl, hraw⟩ := ih _ (by simp [← hlength]; omega) hx'' rfl
        rw [hx, List.nil_append]
        exact ⟨_, by simp, .pair hds hhigh hds' hlow' hraw⟩

/-- Without care, what is read up to the closing quote has its escapes in order. -/
lemma quotable_of_textBytes {bs x rest : Bytes} (h : textBytes false .plain bs = .ok (x, rest)) :
    ∃ raw, bs = raw ++ byte '"' :: rest ∧ Quotable raw := by
  induction hlength : bs.length using Nat.strongRecOn generalizing bs x with
  | ind length ih =>
    cases front_of_plain h with
    | close hbs hx => exact ⟨[], hbs, .nil⟩
    | plain hbs hb hx hread =>
      subst hbs
      obtain ⟨raw, rfl, hraw⟩ := ih _ (by simp [← hlength]) hread rfl
      exact ⟨_, rfl, .plain hb hraw⟩
    | short hbs ha hx hread =>
      subst hbs
      obtain ⟨raw, rfl, hraw⟩ := ih _ (by simp only [← hlength, List.length_cons]; omega) hread rfl
      exact ⟨_, rfl, .short ha hraw⟩
    | number hbs hds hread =>
      subst hbs
      obtain ⟨y, next, x', hafter, hx', rfl⟩ := exists_of_resume hread
      cases hafter
      obtain ⟨raw, rfl, hraw⟩ := ih _ (by simp [← hlength]; omega) hx' rfl
      exact ⟨_, by simp, .number hds hraw⟩

lemma exists_of_skipText {bs rest : Bytes} (h : skipText bs = .ok rest) :
    ∃ raw, bs = raw ++ byte '"' :: rest ∧ Quotable raw := by
  obtain ⟨⟨x, rest⟩, hread, rfl⟩ := Except.exists_of_map h
  exact quotable_of_textBytes hread

/-- A text is read as the characters that are spelled before the closing quote. -/
theorem text_eq_ok_iff {bs rest : Bytes} {s : String} :
    text bs = .ok (s, rest) ↔ ∃ raw, bs = raw ++ byte '"' :: rest ∧ Spells raw s := by
  constructor
  · intro h
    obtain ⟨⟨x, rest'⟩, hread, h⟩ := Except.exists_of_bind h
    dsimp only at h
    split at h
    · rename_i cs hdecode
      cases h
      obtain ⟨raw, hbs, hraw⟩ := exists_of_textBytes hread
      refine ⟨raw, hbs, ?_⟩
      rwa [Spells, Text.encode_ofList, ← Text.decode?_eq_some_iff.mp hdecode]
    · cases h
  · rintro ⟨raw, rfl, hraw⟩
    rw [text, textBytes_spelled hraw, ok_bind]
    simp only [encode, Text.decode?_flatMap, String.ofList_toList]
    rfl

/-- Every text is spelled as it is quoted. -/
lemma spells_written (s : String) : Spells (written s.toList) s := by
  obtain ⟨raw, hraw, hspells⟩ := text_eq_ok_iff.mp (@text_written [] s)
  rwa [List.append_cancel_right hraw]

/-- What spells a text may stand between quotes. -/
lemma Spelled.quotable {raw x : Bytes} (h : Spelled raw x) : Quotable raw := by
  induction h with
  | nil => exact .nil
  | plain hb _ ih => exact .plain hb ih
  | short ha _ ih => exact .short ha ih
  | number hds _ _ _ ih => exact .number hds ih
  | pair hds _ hds' _ _ ih => exact .number hds (.number hds' ih)

end Overseer.Json
