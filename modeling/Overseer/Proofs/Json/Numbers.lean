import Overseer.Proofs.Json.Spelling

/-!
# Numbers are read as they are written

A number ends where no digit, point or exponent can make it longer.
-/

namespace Overseer.Json

variable {careful : Bool} {bs ds rest : Bytes} {n : Numeral}

/-- What may come after a value: no number goes on with it. -/
def Stops (rest : Bytes) : Prop :=
  ∀ b, rest.head? = some b → isBlank b = true ∨ b = byte ',' ∨ b = byte ']' ∨ b = byte '\x7d'

lemma stops_comma : Stops [byte ','] := by
  intro b hb
  cases hb
  exact .inr (.inl rfl)

/-- White space may stand before what stops a value. -/
lemma IsBlanks.stops {l : Bytes} (hl : IsBlanks l) {b : UInt8} (hb : Stops [b]) (rest : Bytes) :
    Stops (l ++ b :: rest) := by
  cases l with
  | nil =>
    intro a ha
    exact hb a ha
  | cons a l =>
    intro a' ha'
    cases ha'
    exact .inl (hl a List.mem_cons_self)

/-- No digit is next. -/
def NoDigit (rest : Bytes) : Prop := ∀ b, rest.head? = some b → isDigit b = false

lemma Stops.head {b : UInt8} (h : Stops (b :: rest)) :
    isDigit b = false ∧ b ≠ byte '.' ∧ b ≠ byte 'e' ∧ b ≠ byte 'E' := by
  have hb := h b rfl
  simp only [isBlank, Bool.or_eq_true, decide_eq_true_eq] at hb
  rcases hb with ((((rfl | rfl) | rfl) | rfl) | rfl | rfl | rfl) <;> decide

lemma Stops.noDigit (h : Stops rest) : NoDigit rest := by
  cases rest with
  | nil => simp [NoDigit]
  | cons b rest =>
    intro a ha
    cases ha
    exact h.head.1

lemma noDigit_exponent {e : Bytes} (he : Exponent e) (hstops : Stops rest) :
    NoDigit (e ++ rest) := by
  cases he with
  | none => exact hstops.noDigit
  | some he =>
    intro b hb
    cases hb
    rcases he with rfl | rfl <;> decide

/-! ### Digits -/

lemma digits_append (hds : ∀ d ∈ ds, isDigit d = true) (hrest : NoDigit rest) :
    digits (ds ++ rest) = (ds, rest) := by
  have hstop : rest.takeWhile isDigit = [] ∧ rest.dropWhile isDigit = rest := by
    cases rest with
    | nil => exact ⟨rfl, rfl⟩
    | cons b rest =>
      have hb := hrest b rfl
      exact ⟨List.takeWhile_cons_of_neg (by simp [hb]), List.dropWhile_cons_of_neg (by simp [hb])⟩
  rw [digits, List.takeWhile_append_of_pos hds, List.dropWhile_append_of_pos hds, hstop.1, hstop.2,
    List.append_nil]

lemma someDigits_append (hds : IsDigits ds) (hrest : NoDigit rest) :
    someDigits careful (ds ++ rest) = .ok (ds, rest) := by
  rw [someDigits, digits_append hds.2 hrest]
  cases ds with
  | nil => exact absurd rfl hds.1
  | cons d ds => rfl

lemma exists_of_someDigits (h : someDigits careful bs = .ok (ds, rest)) :
    bs = ds ++ rest ∧ IsDigits ds := by
  unfold someDigits at h
  split at h
  · cases h
  · rename_i hsome
    cases h
    have hsplit : bs.takeWhile isDigit ++ bs.dropWhile isDigit = bs :=
      List.takeWhile_append_dropWhile
    refine ⟨hsplit.symm, fun hnil => ?_, fun d hd => List.mem_takeWhile_imp hd⟩
    exact hsome _ (by rw [digits, hnil])

/-! ### Parts of a number -/

lemma fraction_append {f : Bytes} (hf : Fraction f) (hdigit : NoDigit rest)
    (hpoint : ∀ bs, rest ≠ byte '.' :: bs) :
    ∃ x, fraction careful (f ++ rest) = .ok (x, rest) := by
  cases hf with
  | none =>
    refine ⟨[], ?_⟩
    cases rest with
    | nil => rfl
    | cons b rest =>
      rw [List.nil_append, fraction, if_neg]
      rintro rfl
      exact hpoint rest rfl
  | @some ds hds =>
    refine ⟨ds, ?_⟩
    rw [List.cons_append, fraction, if_pos rfl, someDigits_append hds hdigit]

lemma exists_of_fraction {x : Bytes} (h : fraction careful bs = .ok (x, rest)) :
    ∃ f, bs = f ++ rest ∧ Fraction f := by
  cases bs with
  | nil =>
    cases h
    exact ⟨[], rfl, .none⟩
  | cons b bs =>
    rw [fraction] at h
    split at h
    · rename_i hb
      subst hb
      obtain ⟨rfl, hds⟩ := exists_of_someDigits h
      exact ⟨_, rfl, .some hds⟩
    · cases h
      exact ⟨[], rfl, .none⟩

lemma sign_append {s : Bytes} (hs : s = [] ∨ s = [byte '+'] ∨ s = [byte '-']) (hds : IsDigits ds) :
    (sign (s ++ (ds ++ rest))).2 = ds ++ rest := by
  rcases hs with rfl | rfl | rfl
  · cases ds with
    | nil => exact absurd rfl hds.1
    | cons d ds =>
      have hd : isDigit d = true := hds.2 d List.mem_cons_self
      have hminus : d ≠ byte '-' := by
        rintro rfl
        cases hd
      have hplus : d ≠ byte '+' := by
        rintro rfl
        cases hd
      rw [List.nil_append, List.cons_append, sign, if_neg hminus, if_neg hplus]
  · rfl
  · rfl

lemma exists_of_sign (bs : Bytes) :
    ∃ s, bs = s ++ (sign bs).2 ∧ (s = [] ∨ s = [byte '+'] ∨ s = [byte '-']) := by
  cases bs with
  | nil => exact ⟨[], rfl, .inl rfl⟩
  | cons b bs =>
    rw [sign]
    split
    · rename_i hb
      exact ⟨[byte '-'], by rw [hb]; rfl, .inr (.inr rfl)⟩
    · split
      · rename_i hb
        exact ⟨[byte '+'], by rw [hb]; rfl, .inr (.inl rfl)⟩
      · exact ⟨[], rfl, .inl rfl⟩

lemma exponent_append {e : Bytes} (he : Exponent e) (hstops : Stops rest) :
    ∃ x, exponent careful (e ++ rest) = .ok (x, rest) := by
  cases he with
  | none =>
    refine ⟨(false, []), ?_⟩
    cases rest with
    | nil => rfl
    | cons b rest =>
      obtain ⟨-, -, hsmall, hlarge⟩ := hstops.head
      rw [List.nil_append, exponent, if_neg (by simp [hsmall, hlarge])]
  | @some e s ds he hs hds =>
    refine ⟨((sign (s ++ (ds ++ rest))).1, ds), ?_⟩
    rw [List.cons_append, List.append_assoc, exponent, if_pos (by simpa using he),
      sign_append hs hds, someDigits_append hds hstops.noDigit]
    rfl

lemma exists_of_exponent {x : Bool × Bytes} (h : exponent careful bs = .ok (x, rest)) :
    ∃ e, bs = e ++ rest ∧ Exponent e := by
  cases bs with
  | nil =>
    cases h
    exact ⟨[], rfl, .none⟩
  | cons b bs =>
    rw [exponent] at h
    split at h
    · rename_i hb
      obtain ⟨⟨ds, rest⟩, hds, heq⟩ := Except.exists_of_map h
      cases heq
      obtain ⟨hsplit, hds⟩ := exists_of_someDigits hds
      obtain ⟨s, hbs, hs⟩ := exists_of_sign bs
      refine ⟨b :: (s ++ ds), ?_, .some (by simpa using hb) hs hds⟩
      rw [hbs, hsplit, List.cons_append, List.append_assoc]
    · cases h
      exact ⟨[], rfl, .none⟩

/-! ### Numbers -/

/-- A number is read to its end. -/
theorem numeral_unsigned (h : Unsigned bs) (hstops : Stops rest) :
    ∃ n, numeral careful (bs ++ rest) = .ok (n, rest) := by
  cases h with
  | @mk w f e hw hf he =>
    have hexponent : NoDigit (e ++ rest) := noDigit_exponent he hstops
    have hfraction : NoDigit (f ++ (e ++ rest)) := by
      cases hf with
      | none => exact hexponent
      | some hds =>
        intro b hb
        cases hb
        decide
    have hpoint : ∀ bs, e ++ rest ≠ byte '.' :: bs := by
      intro bs hbs
      cases he with
      | none =>
        rw [List.nil_append] at hbs
        subst hbs
        exact hstops.head.2.1 rfl
      | some he =>
        cases hbs
        rcases he with he | he <;> cases he
    obtain ⟨x, hx⟩ : ∃ x, fraction careful (f ++ (e ++ rest)) = .ok (x, e ++ rest) :=
      fraction_append hf hexponent hpoint
    obtain ⟨y, hy⟩ : ∃ y, exponent careful (e ++ rest) = .ok (y, rest) := exponent_append he hstops
    have hwhole : ¬((w.head? = some (byte '0') && w.length ≠ 1) = true) := by
      simpa using hw.2
    refine ⟨⟨w, x, y.1, y.2⟩, ?_⟩
    rw [List.append_assoc, List.append_assoc, numeral, someDigits_append hw.1 hfraction]
    simp only [ok_bind, if_neg hwhole, hx, hy]
    rfl

/-- What is read as a number is one. -/
theorem exists_of_numeral (h : numeral careful bs = .ok (n, rest)) :
    ∃ w, bs = w ++ rest ∧ Unsigned w := by
  obtain ⟨⟨w, bs₁⟩, hw, h⟩ := Except.exists_of_bind h
  dsimp only at h
  split at h
  · cases h
  · rename_i hwhole
    obtain ⟨⟨f, bs₂⟩, hf, h⟩ := Except.exists_of_bind h
    obtain ⟨⟨⟨isSmall, e⟩, bs₃⟩, he, h⟩ := Except.exists_of_bind h
    cases h
    obtain ⟨rfl, hdigits⟩ := exists_of_someDigits hw
    obtain ⟨f, rfl, hfraction⟩ := exists_of_fraction hf
    obtain ⟨e, rfl, hexponent⟩ := exists_of_exponent he
    refine ⟨w ++ (f ++ e), by simp, .mk ⟨hdigits, ?_⟩ hfraction hexponent⟩
    simpa using hwhole

end Overseer.Json
