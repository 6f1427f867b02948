import Overseer.Proofs.Worker.Workshop

/-!
# What workers see

A handle finds the table while somebody holds it: the manager, or a worker in the middle of a
question. Whatever a worker is told is what its handle says at that moment. Until it is removed a
worker finds itself listed, and once its number has left the table nobody finds it there again. A
manager that is taken away stays in sight of its workers until the last of them has ended.
-/

namespace Overseer

/-- What a handle says that finds no table. -/
def Question.inVain : Question → Reply
  | .isAlive => .isAlive false
  | .count => .count 0
  | .contains _ => .contains false

/-- The workers that the client has taken from the table all at once. -/
def ClientAt.batch : ClientAt → List TaskId
  | cancellingAll batch _ _ => batch
  | joiningAll batch _ _ _ => batch
  | _ => []

namespace Manager

variable {m m' : Manager} {a : ManagerAction} {id : TaskId}

/-! ### Removed workers -/

lemma done_pos {d : Deed} : 0 < m.done d id ↔ ∃ e ∈ m.history, id ∈ e.about d := by
  rw [done, List.count_pos_iff, List.mem_flatMap]

lemma removed_pos_iff :
    0 < m.done .removed id ↔ ∃ who ids, .removed who ids ∈ m.history ∧ id ∈ ids := by
  rw [done_pos]
  constructor
  · rintro ⟨e, he, hid⟩
    cases e with
    | removed who ids => exact ⟨who, ids, he, hid⟩
    | started _ _ r => cases r <;> cases hid
    | stopped _ _ r =>
      rcases r with _ | b
      · cases hid
      · cases b <;> cases hid
    | _ => cases hid
  · rintro ⟨who, ids, he, hid⟩
    exact ⟨_, he, hid⟩

/-- A number that was removed is not listed. -/
lemma Books.not_mem_of_removed (h : m.Books) (hid : 0 < m.done .removed id) : id ∉ m.table := by
  have hone := h.named_le_one id
  obtain ⟨-, hnamed, hhanded, -, -, -, -⟩ := h.balanced id
  rw [← List.count_pos_iff]
  omega

/-- Every worker with a cancelled token was cancelled by a client. -/
def Cancels (m : Manager) : Prop :=
  ∀ v ∈ m.workers, v.cancelled = true → 0 < m.done .cancelled v.id

/-- A worker changes and keeps its token as it is. -/
lemma Cancels.update (h : m.Cancels) {i : TaskId} {f : Worker → Worker}
    (hf : ∀ v, (f v).id = v.id ∧ (f v).cancelled = v.cancelled)
    (hworkers : m'.workers = (m.update i f).workers)
    (hdone : ∀ id, m.done .cancelled id ≤ m'.done .cancelled id) : m'.Cancels := by
  intro v hv hcancelled
  rw [hworkers] at hv
  obtain ⟨u, hu, rfl⟩ := List.mem_map.mp hv
  have hkeep : (if u.id = i then f u else u).id = u.id ∧
      (if u.id = i then f u else u).cancelled = u.cancelled := by
    split
    · exact hf u
    · exact ⟨rfl, rfl⟩
  rw [hkeep.2] at hcancelled
  rw [hkeep.1]
  exact Nat.lt_of_lt_of_le (h u hu hcancelled) (hdone u.id)

/-- A client cancels a worker. -/
lemma Cancels.cancel (h : m.Cancels) (who i : Nat)
    (hworkers : m'.workers = (m.cancel who i).workers)
    (hhistory : m'.history = .cancelled who i :: m.history) : m'.Cancels := by
  have hdone (id : TaskId) : m'.done .cancelled id = [i].count id + m.done .cancelled id :=
    done_append (show m'.history = [.cancelled who i] ++ m.history from hhistory) .cancelled id
  intro v hv hcancelled
  rw [hworkers] at hv
  obtain ⟨u, hu, rfl⟩ := List.mem_map.mp hv
  by_cases hid : u.id = i
  · have hone : [i].count i = 1 := by simp
    rw [if_pos hid, hid, hdone, hone]
    exact Nat.lt_of_lt_of_le Nat.zero_lt_one (Nat.le_add_right ..)
  · rw [if_neg hid] at hcancelled ⊢
    rw [hdone]
    exact Nat.lt_of_lt_of_le (h u hu hcancelled) (Nat.le_add_left ..)

/-- A manager that has gone does not come back. -/
lemma Turn.gone (t : m.Turn a m') (h : m.isAlive = false) : m'.isAlive = false := by
  cases t with
  | takeNone _ dropping | joinedAll _ _ _ dropping =>
    cases dropping with
    | true => rfl
    | false => exact h
  | _ => exact h

end Manager

namespace Workshop

variable {w w' : Workshop} {a : WorkshopAction} {id : TaskId} {q : Question} {r : Reply}

/-! ### Questions and replies -/

/-- The next step can tell the worker this. -/
def Tells (w : Workshop) (id : TaskId) (q : Question) (r : Reply) : Prop :=
  ∃ a w', w.step a = some w' ∧ w'.answers = (id, q, r) :: w.answers

/-- Whether the table is still there. Who is in the middle of a question holds it too. -/
def IsHeld (w : Workshop) : Prop := w.manager.isAlive = true ∨ ∃ id, w.askers id ≠ .working

/-- What every handle says now. -/
inductive Says (w : Workshop) : Question → Reply → Prop where
  | alive (h : w.IsHeld) : Says w .isAlive (.isAlive true)
  | count (h : w.IsHeld) : Says w .count (.count w.manager.table.length)
  | contains (id : TaskId) (h : w.IsHeld) :
      Says w (.contains id) (.contains (w.manager.table.contains id))
  | inVain (q : Question) (h : ¬ w.IsHeld) : Says w q q.inVain

/-- What a worker is told it asked without the lock or reads with the lock. -/
lemma Tells.eq_inform_or_read (h : w.Tells id q r) :
    (w.manager.isRunning id = true ∧ (q = .isAlive ∨ w.manager.isAlive = false) ∧
      r = w.manager.inform q) ∨ (w.askers id = .reading q ∧ r = w.manager.read q) := by
  obtain ⟨a, w', hstep, hanswers⟩ := h
  cases a with
  | manage a =>
    cases turn_of_step hstep
    exact absurd hanswers.symm (List.cons_ne_self _ _)
  | ask i q' =>
    simp only [step] at hstep
    split at hstep
    · rename_i hasks
      split at hstep <;> cases hstep
      · rename_i hdirect
        cases hanswers
        left
        exact ⟨(Bool.and_eq_true_iff.mp hasks).1, by simpa using hdirect, rfl⟩
      · exact absurd hanswers.symm (List.cons_ne_self _ _)
    · cases hstep
  | lock i =>
    cases turn_of_step hstep
    exact absurd hanswers.symm (List.cons_ne_self _ _)
  | answer i =>
    cases turn_of_step hstep with
    | answer _ q' hreading =>
      cases hanswers
      exact .inr ⟨hreading, rfl⟩

section Run

variable {n : Nat} {as bs : List WorkshopAction}

/-- Who is told something runs, so that the manager is there, and has read what the table says. To
know more than that, it holds the lock. -/
lemma Tells.eq_read (h : w.Tells id q r) (hrun : (start n).run as = some w) :
    w.manager.isRunning id = true ∧ w.manager.isAlive = true ∧ r = w.manager.read q ∧
      (q = .isAlive ∨ w.reader = some id) := by
  rcases h.eq_inform_or_read with ⟨hrunning, hdirect, rfl⟩ | ⟨hreading, rfl⟩
  · have halive := isAlive_of_isRunning hrun hrunning
    have hq : q = .isAlive := hdirect.resolve_right (by simp [halive])
    subst hq
    exact ⟨hrunning, halive, rfl, .inl rfl⟩
  · have hw := sound_of_run hrun
    have hrunning := hw.asking id (by rw [hreading]; nofun)
    have hread := (hw.reader id).mpr ⟨q, hreading⟩
    exact ⟨hrunning, isAlive_of_isRunning hrun hrunning, rfl, .inr hread⟩

lemma Tells.isAlive (h : w.Tells id .isAlive r) (hrun : (start n).run as = some w) :
    r = .isAlive true := by
  obtain ⟨-, halive, rfl, -⟩ := h.eq_read hrun
  rw [Manager.read, halive]

end Run

end Workshop

end Overseer
