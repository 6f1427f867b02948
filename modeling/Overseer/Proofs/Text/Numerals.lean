import Mathlib.Data.Nat.Digits.Defs
import Mathlib.Tactic.Common
import Overseer.PidFile

/-!
# Numerals

What a text spells as a decimal number, and that reading finds just that: digits after at most one
plus sign, as many as one likes, whose number is below the limit. Of any other text the first
character at fault decides what is said.
-/

namespace Overseer

namespace Text

/-- The number that digits spell, the last of them counting least. -/
def spelled (ds : List Char) : Nat := Nat.ofDigits 10 (ds.reverse.map fun c => c.toNat - '0'.toNat)

/-- The text is a numeral for the number. -/
def IsNumeral (cs : List Char) (n : Nat) : Prop :=
  ∃ ds, (cs = ds ∨ cs = '+' :: ds) ∧ ds ≠ [] ∧ (∀ c ∈ ds, c.isDigit = true) ∧ spelled ds = n

/-- Digits that go on after a number. -/
def goOn (n : Nat) (ds : List Char) : Nat :=
  ds.foldl (fun n c => n * 10 + (c.toNat - '0'.toNat)) n

lemma spelled_eq_goOn (ds : List Char) : spelled ds = goOn 0 ds := by
  rw [spelled, Nat.ofDigits_eq_foldr, List.map_reverse, List.foldr_reverse, List.foldl_map, goOn]
  congr 1
  funext n c
  simp
  omega

lemma le_goOn (n : Nat) (ds : List Char) : n ≤ goOn n ds := by
  induction ds generalizing n with
  | nil => exact Nat.le_refl n
  | cons c ds ih =>
    have hstep : n ≤ n * 10 + (c.toNat - '0'.toNat) := by omega
    exact Nat.le_trans hstep (ih _)

lemma digitValue?_of_isDigit {c : Char} (h : c.isDigit = true) :
    digitValue? c = some (c.toNat - '0'.toNat) := by
  simp only [Char.isDigit, Bool.and_eq_true, decide_eq_true_eq] at h
  rw [digitValue?, if_pos]
  exact h

lemma digitValue?_eq_none {c : Char} (h : c.isDigit = false) : digitValue? c = none := by
  rw [digitValue?, if_neg]
  intro hdigit
  simp only [Char.isDigit, Bool.and_eq_false_iff, decide_eq_false_iff_not] at h
  rcases h with hlow | hhigh
  · exact hlow hdigit.1
  · exact hhigh hdigit.2

/-- Reading goes on as long as there are digits and the number stays below the limit. -/
lemma readDigits_eq_ok {limit n m : Nat} {cs : List Char} (hn : n < limit) :
    readDigits limit n cs = .ok m ↔
      (∀ c ∈ cs, c.isDigit = true) ∧ goOn n cs = m ∧ m < limit := by
  induction cs generalizing n with
  | nil =>
    simp only [readDigits, goOn, List.foldl_nil, Except.ok.injEq]
    constructor
    · rintro rfl
      exact ⟨by simp, rfl, hn⟩
    · rintro ⟨-, rfl, -⟩
      rfl
  | cons c cs ih =>
    by_cases hc : c.isDigit = true
    · simp only [readDigits, digitValue?_of_isDigit hc]
      by_cases hlarge : limit ≤ n * 10 + (c.toNat - '0'.toNat)
      · rw [if_pos hlarge]
        constructor
        · intro h
          cases h
        · rintro ⟨-, rfl, hm⟩
          have hle := le_goOn (n * 10 + (c.toNat - '0'.toNat)) cs
          have hgo : goOn n (c :: cs) = goOn (n * 10 + (c.toNat - '0'.toNat)) cs := rfl
          omega
      · rw [if_neg hlarge, ih (by omega), List.forall_mem_cons]
        constructor
        · rintro ⟨hcs, hm, hlt⟩
          exact ⟨⟨hc, hcs⟩, hm, hlt⟩
        · rintro ⟨⟨-, hcs⟩, hm, hlt⟩
          exact ⟨hcs, hm, hlt⟩
    · rw [Bool.not_eq_true] at hc
      simp only [readDigits, digitValue?_eq_none hc]
      constructor
      · intro h
        cases h
      · rintro ⟨hall, -, -⟩
        rw [hall c (List.mem_cons_self ..)] at hc
        cases hc

/-- A text is read as a number if it is a numeral for it and the number is below the limit. -/
theorem readNumber_eq_ok {limit n : Nat} {cs : List Char} (hlimit : 0 < limit) :
    readNumber limit cs = .ok n ↔ IsNumeral cs n ∧ n < limit := by
  have hplus : ¬ ('+').isDigit = true := by decide
  have hread (ds : List Char) (hne : ds ≠ []) : readDigits limit 0 ds = .ok n ↔
      (ds ≠ [] ∧ (∀ c ∈ ds, c.isDigit = true) ∧ spelled ds = n) ∧ n < limit := by
    rw [readDigits_eq_ok hlimit, spelled_eq_goOn]
    tauto
  unfold readNumber
  split
  · constructor
    · intro h
      cases h
    · rintro ⟨⟨ds, hcs, hne, -, -⟩, -⟩
      rcases hcs with rfl | hcs
      · exact absurd rfl hne
      · cases hcs
  · constructor
    · intro h
      cases h
    · rintro ⟨⟨ds, hcs, hne, hdigits, -⟩, -⟩
      rcases hcs with rfl | hcs
      · exact absurd (hdigits '+' (List.mem_cons_self ..)) hplus
      · cases hcs
        exact absurd rfl hne
  · rename_i cs hne
    have hcs : cs ≠ [] := by
      rintro rfl
      exact hne rfl
    rw [hread cs hcs]
    constructor
    · rintro ⟨hds, hn⟩
      exact ⟨⟨cs, .inr rfl, hds⟩, hn⟩
    · rintro ⟨⟨ds, heq, hds⟩, hn⟩
      rcases heq with rfl | heq
      · exact absurd (hds.2.1 '+' (List.mem_cons_self ..)) hplus
      · cases heq
        exact ⟨hds, hn⟩
  · rename_i hempty _ hsign
    have hcs : cs ≠ [] := hempty
    rw [hread cs hcs]
    constructor
    · rintro ⟨hds, hn⟩
      exact ⟨⟨cs, .inl rfl, hds⟩, hn⟩
    · rintro ⟨⟨ds, heq, hds⟩, hn⟩
      rcases heq with rfl | heq
      · exact ⟨hds, hn⟩
      · exact absurd heq (hsign ds)

/-! ### Numbers at fault -/

variable {limit n : Nat} {c : Char} {cs : List Char} {f : NumberFault}

/-- What stands behind a plus sign, if there is one. -/
def unsigned : List Char → List Char
  | '+' :: cs => cs
  | cs => cs

/-- A character cannot go on with the number that stands before it. -/
inductive Offends (limit n : Nat) (c : Char) : NumberFault → Prop where
  | noDigit (h : c.isDigit = false) : Offends limit n c .invalidDigit
  | tooLarge (hc : c.isDigit = true) (h : limit ≤ n * 10 + (c.toNat - '0'.toNat)) :
      Offends limit n c .tooLarge

/-- What is wrong with a text that is no numeral below the limit. -/
inductive Faulty (limit : Nat) : List Char → NumberFault → Prop where
  | nothing : Faulty limit [] .empty
  | bareSign : Faulty limit ['+'] .invalidDigit
  /-- The digits before the character at fault are those of a number below the limit. -/
  | character {cs ds rest : List Char} {c : Char} {f : NumberFault}
      (hcs : unsigned cs = ds ++ c :: rest) (hds : ∀ d ∈ ds, d.isDigit = true)
      (hbelow : spelled ds < limit) (hc : Offends limit (spelled ds) c f) : Faulty limit cs f

lemma offends_of_isDigit (hc : c.isDigit = true) : Offends limit n c f ↔
    f = .tooLarge ∧ limit ≤ n * 10 + (c.toNat - '0'.toNat) := by
  constructor
  · intro h
    cases h with
    | noDigit h =>
      rw [h] at hc
      cases hc
    | tooLarge _ h => exact ⟨rfl, h⟩
  · rintro ⟨rfl, h⟩
    exact .tooLarge hc h

lemma offends_of_not_isDigit (hc : c.isDigit = false) :
    Offends limit n c f ↔ f = .invalidDigit := by
  constructor
  · intro h
    cases h with
    | noDigit => rfl
    | tooLarge h =>
      rw [h] at hc
      cases hc
  · rintro rfl
    exact .noDigit hc

/-- Behind digits that go on with the number `n` stands a character at fault. -/
def Stops (limit n : Nat) (cs : List Char) (f : NumberFault) : Prop :=
  ∃ ds c rest, cs = ds ++ c :: rest ∧ (∀ d ∈ ds, d.isDigit = true) ∧ goOn n ds < limit ∧
    Offends limit (goOn n ds) c f

/-- The first character is at fault, or it is the first of the digits before that one. -/
lemma stops_cons (hn : n < limit) : Stops limit n (c :: cs) f ↔
    Offends limit n c f ∨
      c.isDigit = true ∧ Stops limit (n * 10 + (c.toNat - '0'.toNat)) cs f := by
  constructor
  · rintro ⟨ds, c', rest, hcs, hds, hbelow, hoffends⟩
    cases ds with
    | nil =>
      cases hcs
      exact .inl hoffends
    | cons d ds =>
      cases hcs
      obtain ⟨hd, hds⟩ := List.forall_mem_cons.mp hds
      exact .inr ⟨hd, ds, c', rest, rfl, hds, hbelow, hoffends⟩
  · rintro (hoffends | ⟨hc, ds, c', rest, rfl, hds, hbelow, hoffends⟩)
    · exact ⟨[], c, cs, rfl, List.forall_mem_nil _, hn, hoffends⟩
    · exact ⟨c :: ds, c', rest, rfl, List.forall_mem_cons.mpr ⟨hc, hds⟩, hbelow, hoffends⟩

lemma lt_of_stops (h : Stops limit n cs f) : n < limit := by
  obtain ⟨ds, -, -, -, -, hbelow, -⟩ := h
  exact Nat.lt_of_le_of_lt (le_goOn n ds) hbelow

/-- Reading stops at the first character that cannot go on with the number before it. -/
lemma readDigits_eq_error (hn : n < limit) :
    readDigits limit n cs = .error f ↔ Stops limit n cs f := by
  induction cs generalizing n with
  | nil => simp [readDigits, Stops]
  | cons c cs ih =>
    rw [stops_cons hn]
    by_cases hc : c.isDigit = true
    · simp only [readDigits, digitValue?_of_isDigit hc, offends_of_isDigit hc, hc, true_and]
      generalize n * 10 + (c.toNat - '0'.toNat) = m
      by_cases hlarge : limit ≤ m
      · have hnot : ¬ Stops limit m cs f := fun h => Nat.not_lt.mpr hlarge (lt_of_stops h)
        simp [hlarge, hnot, eq_comm]
      · simp [hlarge, ih (Nat.not_le.mp hlarge)]
    · rw [Bool.not_eq_true] at hc
      simp only [readDigits, digitValue?_eq_none hc, offends_of_not_isDigit hc, hc]
      simp [eq_comm]

/-- Where a text is more than a sign, one of its characters is at fault. -/
lemma faulty_iff (hempty : cs ≠ []) (hsign : cs ≠ ['+']) :
    Faulty limit cs f ↔ Stops limit 0 (unsigned cs) f := by
  simp only [Stops, ← spelled_eq_goOn]
  constructor
  · intro h
    cases h with
    | nothing => exact absurd rfl hempty
    | bareSign => exact absurd rfl hsign
    | character hcs hds hbelow hc => exact ⟨_, _, _, hcs, hds, hbelow, hc⟩
  · rintro ⟨ds, c, rest, hcs, hds, hbelow, hc⟩
    exact .character hcs hds hbelow hc

/-- What is said of a text that is not read as a number is what is wrong with it. -/
theorem readNumber_eq_error (hlimit : 0 < limit) :
    readNumber limit cs = .error f ↔ Faulty limit cs f := by
  unfold readNumber
  split
  · constructor
    · rintro ⟨⟩
      exact .nothing
    · intro h
      cases h with
      | nothing => rfl
      | character hcs => simp [unsigned] at hcs
  · constructor
    · rintro ⟨⟩
      exact .bareSign
    · intro h
      cases h with
      | bareSign => rfl
      | character hcs => simp [unsigned] at hcs
  · rename_i cs hne
    have hcs : cs ≠ [] := fun h => hne (by rw [h])
    rw [readDigits_eq_error hlimit, faulty_iff (by simp) (by simpa using hcs)]
    rfl
  · rename_i hempty _ hsign
    have hcs : unsigned cs = cs := by
      unfold unsigned
      split
      · exact absurd rfl (hsign _)
      · rfl
    rw [readDigits_eq_error hlimit, faulty_iff hempty (hsign []), hcs]

end Text

/-- A file at the path holds a numeral for the number, with white space around it at most. -/
def Host.Stores (h : Host) (path : String) (n : Nat) : Prop :=
  ∃ content text, h.read path = .ok content ∧ Text.decode? content = some text ∧
    Text.IsNumeral (Text.trim text) n

/-- The text of a file is what its bytes spell. -/
lemma Host.readText_eq_ok {h : Host} {path : String} {text : List Char} :
    h.readText path = .ok text ↔
      ∃ content, h.read path = .ok content ∧ Text.decode? content = some text := by
  unfold Host.readText
  cases hread : h.read path with
  | error e =>
    constructor
    · intro htext
      cases htext
    · rintro ⟨content, hcontent, -⟩
      cases hcontent
  | ok content =>
    cases hdecode : Text.decode? content with
    | none =>
      simp [bind, Except.bind, hdecode]
    | some cs =>
      simp [bind, Except.bind, hdecode, pure, Except.pure]

namespace PidFile

lemma readText_eq_ok {text : List Char} {n : Nat} :
    readText text = .ok n ↔ Text.IsNumeral (Text.trim text) n ∧ n < pidLimit :=
  Text.readNumber_eq_ok (by decide)

/-- What is read from a PID file is the number that stands there. -/
theorem read_eq_some {p : PidFile} {h : Host} {n : Nat} :
    p.read h = .ok (some n) ↔ h.Stores p.path n ∧ n < pidLimit := by
  have hstores : h.Stores p.path n ∧ n < pidLimit ↔
      ∃ text, h.readText p.path = .ok text ∧ readText text = .ok n := by
    simp only [Host.Stores, Host.readText_eq_ok, readText_eq_ok]
    constructor
    · rintro ⟨⟨content, text, hcontent, htext, hnumeral⟩, hn⟩
      exact ⟨text, ⟨content, hcontent, htext⟩, hnumeral, hn⟩
    · rintro ⟨text, ⟨content, hcontent, htext⟩, hnumeral, hn⟩
      exact ⟨⟨content, text, hcontent, htext, hnumeral⟩, hn⟩
  rw [hstores]
  unfold read
  split
  · rename_i hnone
    simp [hnone]
  · rename_i e _ herror
    simp [herror]
  · rename_i text htext
    cases hnumber : readText text with
    | ok m => simp [htext, hnumber]
    | error f => simp [htext, hnumber]

end PidFile

end Overseer
