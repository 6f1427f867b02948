import Mathlib.Data.List.TakeWhile
import Overseer.Proofs.CommandLine.Grammar

/-!
# Reading a command line

Arguments that are read without a fault follow the grammar, and what is read from them is what they
set, one thing after another. A parameter that waits for its value is what the reading still owes.
-/

namespace Overseer.CommandLine

/-- Sets one thing more. -/
def take (c : CommandLine) : Setting → Except UsageFault CommandLine
  | .parameter p value => c.giveOnce p value
  | .switch s => c.turnOn s

namespace Draft

variable {d d' e : Draft} {p : Option Parameter} {s : Switch} {ss : List Setting}
  {cs : List Char} {argument : String} {arguments : List String}

/-- The parameter that waits for its value. -/
def waiting? (d : Draft) : Option Parameter :=
  match d.pending with
  | some ⟨p, none⟩ => some p
  | _ => none

/-- What has been read and not been looked at. -/
def due (d : Draft) : List Setting :=
  match d.pending with
  | some ⟨p, some value⟩ => [.parameter p value]
  | _ => []

lemma due_of_waiting {q : Parameter} (h : d.waiting? = some q) : d.due = [] := by
  unfold waiting? at h
  unfold due
  split at h
  · rename_i hpending
    rw [hpending]
  · cases h

/-- Nothing has been read that has not been looked at, but a parameter may wait for its value. -/
def IsAt (d : Draft) (c : CommandLine) (p : Option Parameter) : Prop :=
  d.given = c ∧ d.pending = p.map (⟨·, none⟩) ∧ d.isOver = false

lemma IsAt.waiting?_eq {c : CommandLine} (h : d.IsAt c p) : d.waiting? = p := by
  rw [waiting?, h.2.1]
  cases p <;> rfl

lemma IsAt.due_eq {c : CommandLine} (h : d.IsAt c p) : d.due = [] := by
  rw [due, h.2.1]
  cases p <;> rfl

/-! ### Options -/

/-- A draft is settled if nothing waits for its value and what is due is in order. -/
lemma settle_eq_ok (h : d.settle = .ok e) :
    d.waiting? = none ∧ d.due.foldlM take d.given = .ok e.given ∧ e.pending = none ∧
      e.isOver = d.isOver := by
  unfold settle at h
  cases hpending : d.pending with
  | none =>
    rw [hpending] at h
    cases h
    rw [waiting?, due, hpending]
    exact ⟨rfl, rfl, rfl, rfl⟩
  | some waiting =>
    obtain ⟨p, value⟩ := waiting
    rw [hpending] at h
    cases value with
    | none => cases h
    | some value =>
      obtain ⟨c, hc, rfl⟩ := Except.exists_of_map h
      rw [waiting?, due, hpending, List.foldlM_cons, take, hc]
      exact ⟨rfl, rfl, rfl, rfl⟩

lemma settle_of_pending (h : d.pending = none) : d.settle = .ok d := by
  rw [settle, h]

/-- A switch is looked at when it is met. -/
lemma turnOn_eq_ok (hover : d.isOver = false) (h : d.turnOn s = .ok d') :
    ∃ e c, d.settle = .ok e ∧ take e.given (.switch s) = .ok c ∧ d'.IsAt c none := by
  obtain ⟨e, he, h⟩ := Except.exists_of_bind h
  obtain ⟨c, hc, h⟩ := Except.exists_of_bind h
  cases h
  obtain ⟨-, -, hpending, hover'⟩ := settle_eq_ok he
  exact ⟨e, c, he, hc, rfl, hpending, hover'.trans hover⟩

/-- A parameter that is met with its value is looked at. -/
lemma meet_some_eq_ok {q : Parameter} {v : String} (hover : d.isOver = false)
    (h : d.meet q (some v) = .ok d') :
    ∃ e c, d.settle = .ok e ∧ take e.given (.parameter q v) = .ok c ∧ d'.IsAt c none := by
  obtain ⟨e, he, h⟩ := Except.exists_of_bind h
  obtain ⟨c, hc, h⟩ := Except.exists_of_bind h
  cases h
  obtain ⟨-, -, hpending, hover'⟩ := settle_eq_ok he
  exact ⟨e, c, he, hc, rfl, hpending, hover'.trans hover⟩

/-- A parameter that is met without its value waits for it. -/
lemma meet_none_eq_ok {q : Parameter} (hover : d.isOver = false) (h : d.meet q none = .ok d') :
    ∃ e, d.settle = .ok e ∧ d'.IsAt e.given (some q) := by
  obtain ⟨e, he, h⟩ := Except.exists_of_bind h
  cases h
  obtain ⟨-, -, -, hover'⟩ := settle_eq_ok he
  exact ⟨e, he, rfl, rfl, hover'.trans hover⟩

/-- The draft was settled, and then all was taken that the option sets. -/
def Takes (d : Draft) (ss : List Setting) (p : Option Parameter) (d' : Draft) : Prop :=
  ∃ e c, d.settle = .ok e ∧ ss.foldlM take e.given = .ok c ∧ d'.IsAt c p

lemma takes_single {setting : Setting}
    (h : ∃ e c, d.settle = .ok e ∧ take e.given setting = .ok c ∧ d'.IsAt c none) :
    d.Takes [setting] none d' := by
  obtain ⟨e, c, he, hc, hat⟩ := h
  exact ⟨e, c, he, by rw [List.foldlM_cons, hc]; rfl, hat⟩

lemma takes_bare {q : Parameter} (h : ∃ e, d.settle = .ok e ∧ d'.IsAt e.given (some q)) :
    d.Takes [] (some q) d' := by
  obtain ⟨e, he, hat⟩ := h
  exact ⟨e, e.given, he, rfl, hat⟩

/-- A parameter among letters takes what is left of them. -/
lemma takes_of_meet_attached {c : Char} {q : Parameter} (hover : d.isOver = false)
    (hc : Flag.ofShort? c = some (.parameter q)) (h : d.meet q (attached cs) = .ok d') :
    ∃ ss p, Letters (c :: cs) ss p ∧ d.Takes ss p d' := by
  cases cs with
  | nil => exact ⟨_, _, .bare hc, takes_bare (meet_none_eq_ok hover h)⟩
  | cons a v =>
    by_cases ha : a = '='
    · subst ha
      exact ⟨_, _, .equals v hc, takes_single (meet_some_eq_ok hover h)⟩
    · have hattached : attached (a :: v) = some (String.ofList (a :: v)) := by
        simp [attached, ha]
      rw [hattached] at h
      exact ⟨_, _, .attached v hc ha, takes_single (meet_some_eq_ok hover h)⟩

/-- One thing that is set goes before what is set after it. -/
lemma Takes.cons {setting : Setting} {next : Draft} {c : CommandLine} (he : d.settle = .ok e)
    (hc : take e.given setting = .ok c) (hat : next.IsAt c none) (h : next.Takes ss p d') :
    d.Takes (setting :: ss) p d' := by
  obtain ⟨next', g, hnext, hg, hat'⟩ := h
  have hsame : next.settle = .ok next := settle_of_pending hat.2.1
  rw [hnext] at hsame
  cases hsame
  refine ⟨e, g, he, ?_, hat'⟩
  rw [List.foldlM_cons, hc, ← hat.1]
  exact hg

/-- The first letter is read, if the letters behind it are read as they are meant. -/
lemma takes_of_readShort_cons {c : Char} (hover : d.isOver = false)
    (hrest : ∀ (next : Draft) g, next.IsAt g none → next.readShort cs = .ok d' →
      ∃ ss p, Letters cs ss p ∧ next.Takes ss p d')
    (h : d.readShort (c :: cs) = .ok d') : ∃ ss p, Letters (c :: cs) ss p ∧ d.Takes ss p d' := by
  rw [readShort] at h
  cases hc : Flag.ofShort? c with
  | none =>
    rw [hc] at h
    cases h
  | some flag =>
    rw [hc] at h
    cases flag with
    | parameter q => exact takes_of_meet_attached hover hc h
    | switch s =>
      obtain ⟨next, hon, h⟩ := Except.exists_of_bind h
      obtain ⟨e, g, he, hg, hat⟩ := turnOn_eq_ok hover hon
      obtain ⟨ss, p, hletters, htakes⟩ := hrest next g hat h
      exact ⟨_, _, .switch hc hletters, .cons he hg hat htakes⟩

lemma takes_of_readShort {g : CommandLine} (hat : d.IsAt g none) (h : d.readShort cs = .ok d') :
    ∃ ss p, Letters cs ss p ∧ d.Takes ss p d' := by
  induction cs generalizing d g with
  | nil =>
    cases h
    exact ⟨[], none, .nil, _, g, settle_of_pending hat.2.1, by rw [hat.1]; rfl, hat⟩
  | cons c cs ih => exact takes_of_readShort_cons hat.2.2 (fun _ _ => ih) h

/-- An option that is written out ends with its name, or has a value behind an equals sign. -/
lemma split_at_equals (cs : List Char) :
    ∃ name, '=' ∉ name ∧ cs.takeWhile (· ≠ '=') = name ∧
      (cs = name ∧ attached (cs.dropWhile (· ≠ '=')) = none ∨
        ∃ v, cs = name ++ '=' :: v ∧
          attached (cs.dropWhile (· ≠ '=')) = some (String.ofList v)) := by
  refine ⟨cs.takeWhile (· ≠ '='), fun hmem => ?_, rfl, ?_⟩
  · simpa using List.mem_takeWhile_imp hmem
  · have hcs : cs.takeWhile (· ≠ '=') ++ cs.dropWhile (· ≠ '=') = cs :=
      List.takeWhile_append_dropWhile
    cases hvalue : cs.dropWhile (· ≠ '=') with
    | nil =>
      rw [hvalue, List.append_nil] at hcs
      exact .inl ⟨hcs.symm, rfl⟩
    | cons a v =>
      have ha : a = '=' := by
        have hhead := List.head?_dropWhile_not (· ≠ '=') cs
        rw [hvalue] at hhead
        simpa using hhead
      subst ha
      rw [hvalue] at hcs
      exact .inr ⟨v, hcs.symm, rfl⟩

lemma takes_of_readLong (hover : d.isOver = false) (h : d.readLong cs = .ok d') :
    ∃ ss p, Written cs ss p ∧ d.Takes ss p d' := by
  obtain ⟨name, hname, htake, hsplit⟩ := split_at_equals cs
  unfold readLong at h
  dsimp only at h
  rw [htake] at h
  cases hflag : Flag.ofLong? (String.ofList name) with
  | none =>
    rw [hflag] at h
    cases h
  | some flag =>
    rw [hflag] at h
    rcases hsplit with ⟨rfl, hvalue⟩ | ⟨v, rfl, hvalue⟩ <;> rw [hvalue] at h
    · cases flag with
      | switch s => exact ⟨_, _, .switch hname hflag, takes_single (turnOn_eq_ok hover h)⟩
      | parameter q => exact ⟨_, _, .bare hname hflag, takes_bare (meet_none_eq_ok hover h)⟩
    · cases flag with
      | switch s => cases h
      | parameter q => exact ⟨_, _, .equals v hname hflag, takes_single (meet_some_eq_ok hover h)⟩

/-! ### Arguments -/

lemma readValue_eq_ok {value : String} (h : d.readValue value = .ok d') :
    ∃ q, d.waiting? = some q ∧ d' = { d with pending := some ⟨q, some value⟩ } := by
  unfold readValue at h
  split at h
  · rename_i q hpending
    cases h
    exact ⟨q, by rw [waiting?, hpending], rfl⟩
  · cases h

/-- What the reading of one argument does. -/
lemma read_cases (hover : d.isOver = false) (h : d.read argument = .ok d') :
    argument = "--" ∧ d' = { d with isOver := true } ∨
    (∃ ss p, Says argument ss p ∧ d.Takes ss p d') ∨
    ∃ q, d.waiting? = some q ∧ IsValue argument ∧
      d' = { d with pending := some ⟨q, some argument⟩ } := by
  rw [read, hover, if_neg Bool.false_ne_true] at h
  split at h
  · rename_i hchars
    cases h
    exact .inl ⟨String.toList_inj.mp hchars, rfl⟩
  · rename_i cs _ hchars
    obtain ⟨ss, p, hwritten, htakes⟩ := takes_of_readLong hover h
    exact .inr (.inl ⟨ss, p, .long hchars hwritten, htakes⟩)
  · rename_i c cs hover' hlong hchars
    obtain ⟨ss, p, hletters, htakes⟩ :=
      takes_of_readShort_cons hover (fun _ _ => takes_of_readShort) h
    refine .inr (.inl ⟨ss, p, .short hchars (fun hc => ?_) hletters, htakes⟩)
    subst hc
    exact hlong rfl
  · rename_i hover' hlong hshort
    obtain ⟨q, hq, hd'⟩ := readValue_eq_ok h
    exact .inr (.inr ⟨q, hq, hshort, hd'⟩)

/-- What arguments set where a parameter may wait for its value at first. -/
def Owes (p : Option Parameter) (arguments : List String) (ss : List Setting) : Prop :=
  match p with
  | none => Spells arguments ss
  | some q => ∃ value rest ss', arguments = value :: rest ∧ IsValue value ∧
      ss = .parameter q value :: ss' ∧ Spells rest ss'

lemma spells_cons {ss' : List Setting} (h : Says argument ss p) (hrest : Owes p arguments ss') :
    Spells (argument :: arguments) (ss ++ ss') := by
  cases p with
  | none => exact .said h hrest
  | some q =>
    obtain ⟨value, rest, ss', rfl, hvalue, rfl, hrest⟩ := hrest
    exact .valued h hvalue hrest

/-- Where the options are over, nothing more may come. -/
lemma eq_nil_of_isOver (hover : d.isOver = true) (h : arguments.foldlM read d = .ok d') :
    arguments = [] ∧ d' = d := by
  cases arguments with
  | nil =>
    cases h
    exact ⟨rfl, rfl⟩
  | cons argument rest =>
    rw [List.foldlM_cons] at h
    obtain ⟨next, hnext, -⟩ := Except.exists_of_bind h
    rw [read, hover, if_pos rfl] at hnext
    cases hnext

/-- Arguments that are read without a fault follow the grammar, and are read as what they set. -/
lemma exists_of_readAll (hover : d.isOver = false) (h : arguments.foldlM read d = .ok d')
    (hsettle : d'.settle = .ok e) :
    ∃ ss, Owes d.waiting? arguments ss ∧ (d.due ++ ss).foldlM take d.given = .ok e.given := by
  induction arguments generalizing d with
  | nil =>
    cases h
    obtain ⟨hwaiting, hdue, -, -⟩ := settle_eq_ok hsettle
    refine ⟨[], ?_, by rwa [List.append_nil]⟩
    rw [hwaiting]
    exact .nil
  | cons argument rest ih =>
    rw [List.foldlM_cons] at h
    obtain ⟨next, hnext, h⟩ := Except.exists_of_bind h
    rcases read_cases hover hnext with ⟨rfl, rfl⟩ | ⟨ss, p, hsays, e₁, c, he₁, hc, hat⟩ |
      ⟨q, hq, hvalue, rfl⟩
    · obtain ⟨rfl, rfl⟩ := eq_nil_of_isOver rfl h
      obtain ⟨hwaiting, hdue, -, -⟩ := settle_eq_ok hsettle
      have hwaiting : d.waiting? = none := hwaiting
      refine ⟨[], ?_, by rwa [List.append_nil]⟩
      rw [hwaiting]
      exact .ended
    · obtain ⟨ss', howes, hss'⟩ := ih hat.2.2 h
      rw [hat.waiting?_eq] at howes
      rw [hat.due_eq, List.nil_append, hat.1] at hss'
      obtain ⟨hwaiting, hdue, -, -⟩ := settle_eq_ok he₁
      refine ⟨ss ++ ss', ?_, ?_⟩
      · rw [hwaiting]
        exact spells_cons hsays howes
      · rw [List.foldlM_append, hdue]
        change (ss ++ ss').foldlM take e₁.given = .ok e.given
        rw [List.foldlM_append, hc]
        exact hss'
    · obtain ⟨ss', howes, hss'⟩ := ih (d := { d with pending := some ⟨q, some argument⟩ }) hover h
      refine ⟨.parameter q argument :: ss', ?_, ?_⟩
      · rw [hq]
        exact ⟨argument, rest, ss', rfl, hvalue, rfl, howes⟩
      · rw [due_of_waiting hq]
        exact hss'

end Draft

end Overseer.CommandLine
