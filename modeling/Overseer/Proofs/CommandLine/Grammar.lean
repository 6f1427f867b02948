import Mathlib.Tactic.Common
import Overseer.CommandLine
import Overseer.Proofs.Except

/-!
# The grammar of command lines

What a list of arguments sets, told apart from how it is read: which arguments are options, which
of them leave a parameter without a value, and that the next argument is the value then. The
grammar is unambiguous, and what is read without a fault is what it says.
-/

namespace Overseer.CommandLine

/-- What one option sets. -/
inductive Setting where
  | parameter (p : Parameter) (value : String)
  | switch (s : Switch)
deriving DecidableEq, Repr

/-- What letters behind a dash set, and the parameter that they leave without a value. -/
inductive Letters : List Char → List Setting → Option Parameter → Prop where
  | nil : Letters [] [] none
  | switch {c s cs ss p} (hc : Flag.ofShort? c = some (.switch s)) (h : Letters cs ss p) :
      Letters (c :: cs) (.switch s :: ss) p
  | equals {c p} (v : List Char) (hc : Flag.ofShort? c = some (.parameter p)) :
      Letters (c :: '=' :: v) [.parameter p (String.ofList v)] none
  | attached {c p a} (v : List Char) (hc : Flag.ofShort? c = some (.parameter p)) (ha : a ≠ '=') :
      Letters (c :: a :: v) [.parameter p (String.ofList (a :: v))] none
  | bare {c p} (hc : Flag.ofShort? c = some (.parameter p)) : Letters [c] [] (some p)

/-- What an option that is written out sets, and the parameter that it leaves without a value. -/
inductive Written : List Char → List Setting → Option Parameter → Prop where
  | switch {name s} (hname : '=' ∉ name)
      (h : Flag.ofLong? (String.ofList name) = some (.switch s)) : Written name [.switch s] none
  | equals {name p} (v : List Char) (hname : '=' ∉ name)
      (h : Flag.ofLong? (String.ofList name) = some (.parameter p)) :
      Written (name ++ '=' :: v) [.parameter p (String.ofList v)] none
  | bare {name p} (hname : '=' ∉ name)
      (h : Flag.ofLong? (String.ofList name) = some (.parameter p)) : Written name [] (some p)

/-- What an argument with options sets, and the parameter that it leaves without a value. -/
inductive Says (argument : String) (ss : List Setting) (p : Option Parameter) : Prop where
  | short {c cs} (h : argument.toList = '-' :: c :: cs) (hc : c ≠ '-')
      (hletters : Letters (c :: cs) ss p)
  | long {cs} (h : argument.toList = '-' :: '-' :: cs) (hwritten : Written cs ss p)

/-- The argument is no option, and does not end them either. -/
def IsValue (argument : String) : Prop := ∀ c cs, argument.toList ≠ '-' :: c :: cs

/-- What the arguments set, in order. -/
inductive Spells : List String → List Setting → Prop where
  | nil : Spells [] []
  /-- Two dashes end the options, and there is nothing but options. -/
  | ended : Spells ["--"] []
  | said {argument ss rest ss'} (h : Says argument ss none) (hrest : Spells rest ss') :
      Spells (argument :: rest) (ss ++ ss')
  | valued {argument ss p value rest ss'} (h : Says argument ss (some p)) (hvalue : IsValue value)
      (hrest : Spells rest ss') :
      Spells (argument :: value :: rest) (ss ++ .parameter p value :: ss')

/-! ### The grammar is unambiguous -/

section

variable {cs : List Char} {argument : String} {arguments : List String} {ss ss' : List Setting}
  {p p' : Option Parameter}

lemma Letters.unique (h : Letters cs ss p) (h' : Letters cs ss' p') : ss = ss' ∧ p = p' := by
  induction h generalizing ss' p' with
  | nil =>
    cases h'
    exact ⟨rfl, rfl⟩
  | switch hc h ih =>
    cases h' with
    | switch hc' h' =>
      cases hc.symm.trans hc'
      obtain ⟨rfl, rfl⟩ := ih h'
      exact ⟨rfl, rfl⟩
    | equals v hc' => cases hc.symm.trans hc'
    | attached v hc' ha => cases hc.symm.trans hc'
    | bare hc' => cases hc.symm.trans hc'
  | equals v hc =>
    cases h' with
    | switch hc' h' => cases hc.symm.trans hc'
    | equals v hc' =>
      cases hc.symm.trans hc'
      exact ⟨rfl, rfl⟩
    | attached v hc' ha => exact absurd rfl ha
  | attached v hc ha =>
    cases h' with
    | switch hc' h' => cases hc.symm.trans hc'
    | equals v hc' => exact absurd rfl ha
    | attached v hc' =>
      cases hc.symm.trans hc'
      exact ⟨rfl, rfl⟩
  | bare hc =>
    cases h' with
    | switch hc' h' => cases hc.symm.trans hc'
    | bare hc' =>
      cases hc.symm.trans hc'
      exact ⟨rfl, rfl⟩

/-- A name ends at the first equals sign. -/
lemma eq_of_append_equals {name name' v v' : List Char} (hname : '=' ∉ name)
    (hname' : '=' ∉ name') (h : name ++ '=' :: v = name' ++ '=' :: v') : name = name' ∧ v = v' := by
  have htake {name : List Char} (hname : '=' ∉ name) (v : List Char) :
      (name ++ '=' :: v).takeWhile (· ≠ '=') = name := by
    rw [List.takeWhile_append_of_pos (fun c hc => ?_)]
    · simp
    · simpa using ne_of_mem_of_not_mem hc hname
  have hsame : name = name' := by rw [← htake hname v, h, htake hname' v']
  subst hsame
  exact ⟨rfl, (List.cons.inj (List.append_cancel_left h)).2⟩

lemma Written.unique (h : Written cs ss p) (h' : Written cs ss' p') : ss = ss' ∧ p = p' := by
  generalize hcs : cs = cs' at h'
  cases h with
  | switch hname hflag =>
    cases h' with
    | switch hname' hflag' =>
      subst hcs
      cases hflag.symm.trans hflag'
      exact ⟨rfl, rfl⟩
    | equals v hname' hflag' => exact absurd (by simp [hcs]) hname
    | bare hname' hflag' =>
      subst hcs
      cases hflag.symm.trans hflag'
  | equals v hname hflag =>
    cases h' with
    | switch hname' hflag' => exact absurd (by simp [← hcs]) hname'
    | equals v' hname' hflag' =>
      obtain ⟨rfl, rfl⟩ := eq_of_append_equals hname hname' hcs
      cases hflag.symm.trans hflag'
      exact ⟨rfl, rfl⟩
    | bare hname' hflag' => exact absurd (by simp [← hcs]) hname'
  | bare hname hflag =>
    cases h' with
    | switch hname' hflag' =>
      subst hcs
      cases hflag.symm.trans hflag'
    | equals v hname' hflag' => exact absurd (by simp [hcs]) hname
    | bare hname' hflag' =>
      subst hcs
      cases hflag.symm.trans hflag'
      exact ⟨rfl, rfl⟩

lemma Says.unique (h : Says argument ss p) (h' : Says argument ss' p') : ss = ss' ∧ p = p' := by
  cases h with
  | short hchars hc hletters =>
    cases h' with
    | short hchars' hc' hletters' =>
      cases hchars.symm.trans hchars'
      exact hletters.unique hletters'
    | long hchars' hwritten =>
      cases hchars.symm.trans hchars'
      exact absurd rfl hc
  | long hchars hwritten =>
    cases h' with
    | short hchars' hc hletters =>
      cases hchars.symm.trans hchars'
      exact absurd rfl hc
    | long hchars' hwritten' =>
      cases hchars.symm.trans hchars'
      exact hwritten.unique hwritten'

/-- Two dashes say nothing by themselves. -/
lemma not_says_over : ¬Says "--" ss p := by
  intro h
  cases h with
  | short h hc =>
    cases h
    exact hc rfl
  | long h hwritten =>
    cases h
    generalize hcs : ([] : List Char) = cs at hwritten
    cases hwritten with
    | switch hname h =>
      subst hcs
      cases h
    | equals v hname h => simp at hcs
    | bare hname h =>
      subst hcs
      cases h

/-- Arguments set one thing only. -/
theorem Spells.unique (h : Spells arguments ss) (h' : Spells arguments ss') : ss = ss' := by
  induction h generalizing ss' with
  | nil =>
    cases h'
    rfl
  | ended =>
    cases h' with
    | ended => rfl
    | said h _ => exact absurd h not_says_over
  | said h hrest ih =>
    cases h' with
    | ended => exact absurd h not_says_over
    | said h' hrest' => rw [(h.unique h').1, ih hrest']
    | valued h' _ _ => cases (h.unique h').2
  | valued h hvalue hrest ih =>
    cases h' with
    | said h' _ => cases (h.unique h').2
    | valued h' hvalue' hrest' =>
      obtain ⟨rfl, hp⟩ := h.unique h'
      cases hp
      rw [ih hrest']

end

end Overseer.CommandLine
