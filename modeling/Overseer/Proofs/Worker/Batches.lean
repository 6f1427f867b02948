import Overseer.Proofs.Worker.Custody

/-!
# Stopping all workers

A call that stops all workers takes what is in the table and waits for that. What an earlier call
has taken from the table is that call's to wait for: when the later one comes back, every worker
that was started before it has ended or is still waited for by the earlier one.
-/

namespace Overseer

/-- Whether the client is about to take the whole table. -/
def ClientAt.isTaking : ClientAt → Bool
  | wantsAll _ | taking _ => true
  | _ => false

namespace Manager

variable {m m' : Manager} {a : ManagerAction} {id : TaskId}

lemma standing_finishAll {u : Manager} {who : Nat} {c : ClientAt} {dropping : Bool}
    {r : Except WorkerFailure Unit} (h : m.clients[who]? = some c) (hu : u.clients = m.clients)
    (i : Nat) : (u.finishAll who r dropping).standing i =
      if i = who then .outside else m.standing i :=
  standing_place h (by rw [finishAll_clients, hu]) i

/-- A client stays where it is while others act. -/
lemma Turn.standing_eq {who : Nat} (t : m.Turn a m') (hbegin : ∀ op, a ≠ .begin who op)
    (hproceed : a ≠ .proceed who) : m'.standing who = m.standing who := by
  cases t with
  | begin i op hc =>
    rw [standing_place hc rfl, if_neg]
    rintro rfl
    exact hbegin op rfl
  | draw i _ _ hc | lock i _ _ hc | fail i _ _ _ _ hc | spawn i _ _ _ hc | list i _ _ _ hc
  | remove i _ hc | unknown i _ _ hc | cancel i _ hc | join i _ _ _ _ hc
  | joinFailed i _ _ _ _ hc | takeAll i _ hc | cancelNext i _ _ _ _ hc | cancelledAll i _ _ hc
  | joinNext i _ _ _ _ _ _ _ hc | joinNextFailed i _ _ _ _ _ _ _ _ _ hc =>
    rw [standing_place hc rfl, if_neg]
    rintro rfl
    exact hproceed rfl
  | takeNone i _ hc | joinedAll i _ _ _ _ hc =>
    refine (standing_finishAll hc ?_ who).trans (if_neg ?_)
    · rfl
    · rintro rfl
      exact hproceed rfl
  | finish | look | cancelSelf => rfl

/-- A client that is about to take the table goes on to take it, and leaves it empty. -/
lemma Turn.takes {who : Nat} (t : m.Turn a m') (hbegin : ∀ op, a ≠ .begin who op)
    (h : (m.standing who).isTaking = true) :
    (m'.standing who).isTaking = true ∨ m'.table = [] := by
  by_cases hproceed : a = .proceed who
  · subst hproceed
    cases t with
    | lock _ c c' hc hadmitted =>
      rw [standing_of_getElem? hc] at h
      rw [standing_place hc rfl, if_pos rfl]
      cases c with
      | wantsAll =>
        cases hadmitted
        exact .inl rfl
      | taking => cases hadmitted
      | _ => cases h
    | takeNone _ _ _ hnone =>
      rw [finishAll_table]
      exact .inr hnone
    | takeAll => exact .inr rfl
    | draw _ _ _ hc | fail _ _ _ _ _ hc | spawn _ _ _ _ hc | list _ _ _ _ hc | remove _ _ hc
    | unknown _ _ _ hc | cancel _ _ hc | join _ _ _ _ _ hc | joinFailed _ _ _ _ _ hc
    | cancelNext _ _ _ _ _ hc | cancelledAll _ _ _ hc | joinNext _ _ _ _ _ _ _ _ hc
    | joinNextFailed _ _ _ _ _ _ _ _ _ _ hc | joinedAll _ _ _ _ _ hc =>
      rw [standing_of_getElem? hc] at h
      cases h
  · rw [t.standing_eq hbegin hproceed]
    exact .inl h

/-- What was done stays done. -/
lemma Turn.done_le (t : m.Turn a m') (d : Deed) (id : TaskId) : m.done d id ≤ m'.done d id := by
  obtain ⟨es, hhistory, -⟩ := t.shows
  rw [done_append hhistory]
  exact Nat.le_add_left ..

/-- A worker that was started and is not in the table any more was removed. -/
lemma Books.removed_pos (h : m.Books) (hid : 0 < m.done .handedOut id) (htable : m.table = []) :
    0 < m.done .removed id := by
  have hhanded := (h.balanced id).handedOut
  rw [htable, List.count_nil] at hhanded
  omega

/-- While a client is in a call that stops all workers, each that was started before stays in its
reach or was removed. -/
lemma Turn.sweeps {who : Nat} (t : m.Turn a m') (hbegin : ∀ op, a ≠ .begin who op)
    (hbooks : m.Books) (hid : 0 < m.done .handedOut id)
    (h : (m.standing who).isTaking = true ∨ 0 < m.done .removed id) :
    (m'.standing who).isTaking = true ∨ 0 < m'.done .removed id := by
  rcases h with htaking | hremoved
  · refine (t.takes hbegin htaking).imp_right fun htable => ?_
    have hid' : 0 < m'.done .handedOut id := Nat.lt_of_lt_of_le hid (t.done_le ..)
    exact (t.books hbooks).removed_pos hid' htable
  · exact .inr (Nat.lt_of_lt_of_le hremoved (t.done_le ..))

lemma Books.exists_worker (h : m.Books) (hid : 0 < m.done .handedOut id) :
    ∃ w, m.worker? id = some w ∧ w ∈ m.workers ∧ w.id = id := by
  have hnamed : 0 < m.named id := by
    have := (h.balanced id).named
    omega
  obtain ⟨w, hw, hwid⟩ := List.countP_pos_iff.mp hnamed
  obtain ⟨v, hv⟩ : ∃ v, m.worker? id = some v :=
    Option.isSome_iff_exists.mp (List.find?_isSome.mpr ⟨w, hw, hwid⟩)
  exact ⟨v, hv, List.mem_of_find?_eq_some hv, worker?_id hv⟩

/-- A worker that was removed has been joined, or some client waits for it. -/
lemma Books.joined_or_awaited (h : m.Books) (hremoved : 0 < m.done .removed id) :
    m.unjoined id = 0 ∨ ∃ who, id ∈ (m.standing who).owes .join := by
  have hone := h.named_le_one id
  obtain ⟨-, hnamed, hhanded, -, -, hunjoined, -⟩ := h.balanced id
  by_cases hdue : m.due .join id = 0
  · left
    omega
  · right
    obtain ⟨who, c, hc, hid⟩ := due_pos.mp (Nat.pos_of_ne_zero hdue)
    refine ⟨who, ?_⟩
    rwa [standing_of_getElem? hc]

lemma phase_ne_running {w : Worker} (h : w.isJoined = true) : w.phase ≠ .running := by
  intro hrunning
  rw [Worker.isJoined, hrunning] at h
  cases h

/-- When a call that stops all workers comes back, every worker whose start had come back before
it has ended, unless another call that took it from the table still waits for it. -/
theorem ended_or_awaited {n who : Nat} {as₁ as₂ : List ManagerAction} {m₁ : Manager}
    (h₁ : (start n).run as₁ = some m₁) (h : m₁.run (.begin who .stopAll :: as₂) = some m)
    (halone : ∀ op, .begin who op ∉ as₂) (hback : m.standing who = .outside)
    (hid : 0 < m₁.done .handedOut id) :
    ∃ w, m.worker? id = some w ∧
      (w.phase ≠ .running ∨ ∃ other ≠ who, id ∈ (m.standing other).owes .join) := by
  obtain ⟨m₂, hstep, hrun⟩ := Option.bind_eq_some_iff.mp h
  have hbegin := turn_of_step hstep
  have htaking : (m₂.standing who).isTaking = true := by
    cases hbegin with
    | begin _ _ hc =>
      rw [standing_place hc rfl, if_pos rfl]
      rfl
  -- the invariant of the call: the worker was started, and the call takes it or it was removed
  have hkept : m.Books ∧ 0 < m.done .handedOut id ∧
      ((m.standing who).isTaking = true ∨ 0 < m.done .removed id) := by
    refine run_induction (P := fun u => u.Books ∧ 0 < u.done .handedOut id ∧
      ((u.standing who).isTaking = true ∨ 0 < u.done .removed id)) ?_ ?_ hrun
    · exact ⟨hbegin.books (books_of_run h₁), Nat.lt_of_lt_of_le hid (hbegin.done_le ..),
        .inl htaking⟩
    · rintro a ha u u' ⟨hbooks, hu, hsweep⟩ t
      have hnot (op : ClientOp) : a ≠ .begin who op := by
        rintro rfl
        exact halone op ha
      exact ⟨t.books hbooks, Nat.lt_of_lt_of_le hu (t.done_le ..), t.sweeps hnot hbooks hu hsweep⟩
  obtain ⟨hbooks, hstarted, hsweep⟩ := hkept
  rw [hback] at hsweep
  have hremoved : 0 < m.done .removed id := hsweep.resolve_left nofun
  obtain ⟨w, hw, hmem, rfl⟩ := hbooks.exists_worker hstarted
  refine ⟨w, hw, (hbooks.joined_or_awaited hremoved).imp (fun hunjoined => ?_) ?_⟩
  · exact phase_ne_running (isJoined_of_unjoined hmem hunjoined)
  · rintro ⟨other, hother⟩
    refine ⟨other, ?_, hother⟩
    rintro rfl
    rw [hback] at hother
    cases hother

/-- Two workers run, and the first client is about to wait for the first. -/
def overlapping : List ManagerAction := List.flatten [
  .begin 0 (.start "a" none) :: List.replicate 4 (.proceed 0),
  .begin 0 (.start "b" none) :: List.replicate 4 (.proceed 0),
  .begin 0 (.stop 0) :: List.replicate 3 (.proceed 0)]

/-- The second client stops all workers; the second worker ends. -/
def sweeping : List ManagerAction :=
  List.replicate 4 (.proceed 1) ++ [.finish 1 (.value ()), .proceed 1, .proceed 1]

theorem ended_or_awaited_overlapping : ∃ m₁ m, (start 2).run overlapping = some m₁ ∧
    m₁.run (.begin 1 .stopAll :: sweeping) = some m ∧
    (∃ w, m.worker? 0 = some w ∧
      (w.phase ≠ .running ∨ ∃ other ≠ 1, 0 ∈ (m.standing other).owes .join)) ∧
    ∃ w, m.worker? 1 = some w ∧
      (w.phase ≠ .running ∨ ∃ other ≠ 1, 1 ∈ (m.standing other).owes .join) := by
  obtain ⟨m₁, m, h₁, h, hback, hfirst, hsecond⟩ : ∃ m₁ m, (start 2).run overlapping = some m₁ ∧
    m₁.run (.begin 1 .stopAll :: sweeping) = some m ∧ m.standing 1 = .outside ∧
    m₁.done .handedOut 0 = 1 ∧ m₁.done .handedOut 1 = 1 := ⟨_, _, rfl, rfl, rfl, rfl, rfl⟩
  have halone (op : ClientOp) : .begin 1 op ∉ sweeping := by simp [sweeping]
  exact ⟨m₁, m, h₁, h, ended_or_awaited h₁ h halone hback (by omega),
    ended_or_awaited h₁ h halone hback (by omega)⟩

/-- A call that stops all workers comes back while a worker that was started before it runs. -/
theorem stopAll_overtakes : ∃ m₁ m, (start 2).run overlapping = some m₁ ∧
    m₁.done .handedOut 0 = 1 ∧ m₁.run (.begin 1 .stopAll :: sweeping) = some m ∧
    m.history.head? = some (.stoppedAll 1 (.ok ())) ∧
    (m.worker? 0).map Worker.phase = some .running :=
  ⟨_, _, rfl, rfl, rfl, rfl, rfl⟩

end Manager

end Overseer
