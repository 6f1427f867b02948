import Overseer.Proofs.Worker.Calls

/-!
# The table and the end of the manager

The table is kept in ascending order. Who takes the manager away is alone with it, so that nothing
is in the table and nobody in a call when the manager has gone.
-/

namespace Overseer

/-- Whether the client takes the manager away and has emptied the table for good. -/
def ClientAt.hasCleared : ClientAt → Bool
  | cancellingAll _ _ dropping => dropping
  | joiningAll _ _ _ dropping => dropping
  | _ => false

lemma ClientAt.isDropping_of_hasCleared {c : ClientAt} (h : c.hasCleared = true) :
    c.isDropping = true := by
  cases c with
  | cancellingAll | joiningAll => exact h
  | _ => cases h

/-! ### The order of the table -/

lemma mem_insertTask {id x : TaskId} {l : List TaskId} :
    x ∈ insertTask id l ↔ x = id ∨ x ∈ l := by
  induction l with
  | nil => simp [insertTask]
  | cons y l ih =>
    rw [insertTask]
    split_ifs with hlt heq
    · rw [List.mem_cons]
    · subst heq
      simp
    · rw [List.mem_cons, ih, List.mem_cons]
      tauto

lemma pairwise_insertTask {id : TaskId} {l : List TaskId} (h : l.Pairwise (· < ·)) :
    (insertTask id l).Pairwise (· < ·) := by
  induction l with
  | nil => exact List.pairwise_singleton _ _
  | cons y l ih =>
    have hall := List.pairwise_cons.mp h
    rw [insertTask]
    split_ifs with hlt heq
    · refine List.pairwise_cons.mpr ⟨fun z hz => ?_, h⟩
      rcases List.mem_cons.mp hz with rfl | hz
      · exact hlt
      · exact Nat.lt_trans hlt (hall.1 z hz)
    · exact h
    · refine List.pairwise_cons.mpr ⟨fun z hz => ?_, ih hall.2⟩
      rcases mem_insertTask.mp hz with rfl | hz
      · exact Nat.lt_of_le_of_ne (Nat.not_lt.mp hlt) (Ne.symm heq)
      · exact hall.1 z hz

namespace Manager

variable {m m' : Manager} {a : ManagerAction}

/-- The table stays ascending. -/
lemma Turn.sorted (t : m.Turn a m') (h : m.table.Pairwise (· < ·)) :
    m'.table.Pairwise (· < ·) := by
  cases t with
  | list => exact pairwise_insertTask h
  | remove => exact h.sublist List.erase_sublist
  | takeNone | joinedAll =>
    rw [finishAll_table]
    exact h
  | takeAll => exact .nil
  | _ => exact h

/-! ### Taking the manager away -/

/-- Who takes the manager away is alone with it, and leaves nothing in the table. -/
structure Closing (m : Manager) : Prop where
  alone : ∀ who other, (m.standing who).isDropping = true → other ≠ who →
    m.standing other = .outside
  cleared : ∀ who, (m.standing who).hasCleared = true → m.table = []
  gone : m.isAlive = false → m.table = [] ∧ ∀ who, m.standing who = .outside

/-- While a client takes the manager away, nobody else is in a call. -/
lemma Closing.eq_of_isDropping (h : m.Closing) {who other : Nat} {c : ClientAt}
    (hc : m.clients[who]? = some c) (hin : c ≠ .outside)
    (hdropping : (m.standing other).isDropping = true) : other = who := by
  by_contra hne
  have hwho := h.alone other who hdropping (Ne.symm hne)
  rw [standing_of_getElem? hc] at hwho
  exact hin hwho

lemma Closing.move (h : m.Closing) {who : Nat} {c c' : ClientAt}
    (hc : m.clients[who]? = some c) (hin : c ≠ .outside)
    (hclients : m'.clients = m.clients.set who c') (halive : m'.isAlive = m.isAlive)
    (hdropping : c'.isDropping = true → c.isDropping = true)
    (hcleared : c'.hasCleared = true → m'.table = []) : m'.Closing where
  alone := by
    intro i other hi hne
    rw [standing_place hc hclients] at hi ⊢
    have hwho : i = who := by
      split_ifs at hi with heq
      · exact heq
      · exact h.eq_of_isDropping hc hin hi
    subst hwho
    rw [if_pos rfl] at hi
    rw [if_neg hne]
    refine h.alone i other ?_ hne
    rw [standing_of_getElem? hc]
    exact hdropping hi
  cleared := by
    intro i hi
    rw [standing_place hc hclients] at hi
    split_ifs at hi with heq
    · exact hcleared hi
    · exact absurd (h.eq_of_isDropping hc hin (ClientAt.isDropping_of_hasCleared hi)) heq
  gone := by
    intro hgone
    rw [halive] at hgone
    have hwho := (h.gone hgone).2 who
    rw [standing_of_getElem? hc] at hwho
    exact absurd hwho hin

/-- A client goes on in its call, and the table stays. -/
lemma Closing.goOn (h : m.Closing) {who : Nat} {c c' : ClientAt}
    (hc : m.clients[who]? = some c) (hin : c ≠ .outside)
    (hclients : m'.clients = m.clients.set who c') (halive : m'.isAlive = m.isAlive)
    (htable : m'.table = m.table) (hdropping : c'.isDropping = c.isDropping)
    (hcleared : c'.hasCleared = c.hasCleared) : m'.Closing := by
  refine h.move hc hin hclients halive hdropping.symm.trans fun h' => ?_
  rw [htable]
  refine h.cleared who ?_
  rw [standing_of_getElem? hc, ← hcleared]
  exact h'

lemma Closing.keep (h : m.Closing) (hclients : m'.clients = m.clients)
    (htable : m'.table = m.table) (halive : m'.isAlive = m.isAlive) : m'.Closing := by
  have hstanding : m'.standing = m.standing := funext fun i => by rw [standing, hclients, standing]
  obtain ⟨halone, hcleared, hgone⟩ := h
  rw [← hstanding] at halone hcleared hgone
  rw [← htable] at hcleared hgone
  rw [← halive] at hgone
  exact ⟨halone, hcleared, hgone⟩

/-- The end of a call that stops all workers. -/
lemma Closing.finishAll (h : m.Closing) {who : Nat} {c : ClientAt}
    (hc : m.clients[who]? = some c) (hin : c ≠ .outside) (r : Except WorkerFailure Unit)
    {dropping : Bool} (hdropping : dropping = c.isDropping)
    (hnone : dropping = true → m.table = []) : (m.finishAll who r dropping).Closing := by
  cases dropping with
  | false =>
    exact h.move hc hin rfl rfl (fun h => by cases h) fun h => by cases h
  | true =>
    have hall (i : Nat) : (m.finishAll who r true).standing i = .outside := by
      rw [standing_place hc (finishAll_clients ..)]
      split_ifs with hi
      · rfl
      · refine h.alone who i ?_ hi
        rw [standing_of_getElem? hc, ← hdropping]
    refine ⟨fun i _ hi => ?_, fun i hi => ?_, fun _ => ⟨?_, hall⟩⟩
    · rw [hall i] at hi
      cases hi
    · rw [hall i] at hi
      cases hi
    · rw [finishAll_table, hnone rfl]

lemma standing_of_isOutside (h : m.isOutside = true) (who : Nat) : m.standing who = .outside := by
  rw [standing]
  cases hc : m.clients[who]? with
  | none => rfl
  | some c =>
    have houtside := List.all_eq_true.mp h c (List.mem_of_getElem? hc)
    cases c with
    | outside => rfl
    | _ => cases houtside

lemma isDropping_of_isOpen (h : m.isOpen = true) (who : Nat) :
    (m.standing who).isDropping = false := by
  rw [standing]
  cases hc : m.clients[who]? with
  | none => rfl
  | some c =>
    have hall := (Bool.and_eq_true_iff.mp h).2
    simpa using List.all_eq_true.mp hall c (List.mem_of_getElem? hc)

lemma closing_begin {who : Nat} {op : ClientOp} (hc : m.clients[who]? = some .outside)
    (hopen : m.isOpen = true) (hdrop : op = .drop → m.isOutside = true) :
    (m.place who op.entry).Closing where
  alone := by
    intro i other hi hne
    rw [standing_place hc rfl] at hi ⊢
    split_ifs at hi with heq
    · subst heq
      have hop : op = .drop := by
        cases op with
        | drop => rfl
        | _ => cases hi
      rw [if_neg hne]
      exact standing_of_isOutside (hdrop hop) other
    · rw [isDropping_of_isOpen hopen] at hi
      cases hi
  cleared := by
    intro i hi
    have hdropping := ClientAt.isDropping_of_hasCleared hi
    rw [standing_place hc rfl] at hi hdropping
    split_ifs at hi hdropping with heq
    · cases op <;> cases hi
    · rw [isDropping_of_isOpen hopen] at hdropping
      cases hdropping
  gone := by
    intro hgone
    have halive : m.isAlive = true := (Bool.and_eq_true_iff.mp hopen).1
    exact absurd hgone (by simp [place, halive])

/-- Every turn keeps to the way the manager is taken away. -/
lemma Turn.closing (t : m.Turn a m') (h : m.Closing) : m'.Closing := by
  cases t with
  | begin who op hc hopen hdrop => exact closing_begin hc hopen hdrop
  | lock who c c' hc hadmitted =>
    cases c with
    | wantsStart | wantsStop | wantsAll =>
      cases hadmitted
      exact h.move hc nofun rfl rfl id nofun
    | _ => cases hadmitted
  | takeNone who dropping hc hnone =>
    have hkeep : (m.record (.removed who [])).release.Closing := h.keep rfl rfl rfl
    exact hkeep.finishAll hc nofun (.ok ()) rfl fun _ => hnone
  | takeAll who dropping hc => exact h.move hc nofun rfl rfl id fun _ => rfl
  | cancelNext _ _ _ _ _ hc | cancelledAll _ _ _ hc | joinNext _ _ _ _ _ _ _ _ hc
  | joinNextFailed _ _ _ _ _ _ _ _ _ _ hc =>
    exact h.goOn hc nofun rfl rfl rfl rfl rfl
  | joinedAll who batch failure dropping r hc =>
    have hkeep : (m.record (.logged r)).Closing := h.keep rfl rfl rfl
    refine hkeep.finishAll hc nofun _ rfl fun hdropping => h.cleared who ?_
    rw [standing_of_getElem? hc]
    exact hdropping
  | finish | look | cancelSelf => exact h.keep rfl rfl rfl
  | draw _ _ _ hc | fail _ _ _ _ _ hc | spawn _ _ _ _ hc | list _ _ _ _ hc | remove _ _ hc
  | unknown _ _ _ hc | cancel _ _ hc | join _ _ _ _ _ hc | joinFailed _ _ _ _ _ hc =>
    exact h.move hc nofun rfl rfl nofun nofun

lemma closing_start (n : Nat) : (start n).Closing := by
  refine ⟨fun who _ h => ?_, fun who h => ?_, nofun⟩
  · rw [standing_start] at h
    cases h
  · rw [standing_start] at h
    cases h

end Manager

end Overseer
