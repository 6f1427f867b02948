import Overseer.Proofs.Worker.Closing

/-!
# Custody of workers

Every worker is started once, is in the table until one call removes it, and is cancelled and
joined by that call alone. When the manager has gone, all its workers were joined.
-/

namespace Overseer

namespace Manager

variable {m m' : Manager} {a : ManagerAction}

/-! ### What a step changes -/

/-- What a step changes in the table and in the workers shows in the events it adds, unless a
worker acts itself. -/
def Shows (m : Manager) (a : ManagerAction) (m' : Manager) : Prop :=
  ∃ es, m'.history = es ++ m.history ∧
    (m'.table ≠ m.table →
      (∃ who id, .started who id (.ok id) ∈ es) ∨ ∃ who ids, .removed who ids ∈ es) ∧
    ∀ w ∈ m.workers, w ∈ m'.workers ∨
      (∃ who, .cancelled who w.id ∈ es ∨ .joined who w.id ∈ es) ∨
      a = .cancelSelf w.id ∨ ∃ v, a = .finish w.id v

lemma Shows.of_same (es : List ManagerEvent) (hhistory : m'.history = es ++ m.history)
    (htable : m'.table = m.table) (hworkers : m'.workers = m.workers) : m.Shows a m' :=
  ⟨es, hhistory, fun h => absurd htable h, fun w hw => .inl (by rwa [hworkers])⟩

/-- Only one worker changes, and that shows. -/
lemma Shows.of_update (es : List ManagerEvent) {id : TaskId} {f : Worker → Worker}
    (hhistory : m'.history = es ++ m.history) (htable : m'.table = m.table)
    (hworkers : m'.workers = (m.update id f).workers)
    (hid : (∃ who, .cancelled who id ∈ es ∨ .joined who id ∈ es) ∨ a = .cancelSelf id ∨
      ∃ v, a = .finish id v) : m.Shows a m' := by
  refine ⟨es, hhistory, fun h => absurd htable h, fun w hw => ?_⟩
  by_cases hw' : w.id = id
  · rw [hw']
    exact .inr hid
  · rw [hworkers]
    exact .inl (List.mem_map.mpr ⟨w, hw, if_neg hw'⟩)

lemma Turn.shows (t : m.Turn a m') : m.Shows a m' := by
  cases t with
  | begin | lock | cancelledAll => exact .of_same [] rfl rfl rfl
  | draw | fail | look => exact .of_same [_] rfl rfl rfl
  | unknown => exact .of_same [_, _] rfl rfl rfl
  | takeNone who dropping =>
    exact .of_same _ (finishAll_history_cons who (.ok ()) dropping rfl) (finishAll_table ..)
      (finishAll_workers ..)
  | joinedAll who batch failure dropping =>
    exact .of_same _ (finishAll_history_cons who (batchResult failure) dropping rfl)
      (finishAll_table ..) (finishAll_workers ..)
  | spawn =>
    exact ⟨[_], rfl, fun h => absurd rfl h, fun w hw => .inl (List.mem_append_left _ hw)⟩
  | list who id =>
    exact ⟨[_, _, _], rfl, fun _ => .inl ⟨who, id, List.mem_cons_self⟩, fun w hw => .inl hw⟩
  | remove who id =>
    exact ⟨[_], rfl, fun _ => .inr ⟨who, [id], List.mem_cons_self⟩, fun w hw => .inl hw⟩
  | takeAll who =>
    exact ⟨[_], rfl, fun _ => .inr ⟨who, m.table, List.mem_cons_self⟩, fun w hw => .inl hw⟩
  | cancel who id | cancelNext who _ id =>
    exact .of_update [_] rfl rfl rfl (.inl ⟨who, .inl List.mem_cons_self⟩)
  | joinNext who _ id => exact .of_update [_] rfl rfl rfl (.inl ⟨who, .inr List.mem_cons_self⟩)
  | joinFailed who id | joinNextFailed who _ id =>
    exact .of_update [_, _] rfl rfl rfl (.inl ⟨who, .inr (by simp)⟩)
  | join who id => exact .of_update [_, _, _] rfl rfl rfl (.inl ⟨who, .inr (by simp)⟩)
  | finish id v => exact .of_update [_] rfl rfl rfl (.inr (.inr ⟨v, rfl⟩))
  | cancelSelf id => exact .of_update [] rfl rfl rfl (.inr (.inl rfl))

end Manager

/-! ### Who cancels and joins -/

/-- A call cancels and joins only what it removed. -/
lemma IsCall.removed {who id : Nat} {call : List ManagerEvent} (h : IsCall who call)
    (hid : .cancelled who id ∈ call ∨ .joined who id ∈ call) :
    ∃ ids, .removed who ids ∈ call ∧ id ∈ ids := by
  cases h with
  | started | failed | unknown => simp at hid
  | stopped i => exact ⟨[i], by simp, by simpa using hid⟩
  | stoppedAll ids | dropped ids => exact ⟨ids, by simp, by simpa using hid⟩

lemma IsUnderway.removed {who id : Nat} {c : ClientAt} {current : List ManagerEvent}
    (h : IsUnderway who c current)
    (hid : .cancelled who id ∈ current ∨ .joined who id ∈ current) :
    ∃ ids, .removed who ids ∈ current ∧ id ∈ ids := by
  cases h with
  | joining i => exact ⟨[i], by simp, by simpa using hid⟩
  | cancellingAll done todo =>
    refine ⟨done ++ todo, by simp, List.mem_append_left _ ?_⟩
    simpa using hid
  | joiningAll done todo =>
    refine ⟨done ++ todo, by simp, ?_⟩
    simp at hid
    rcases hid with (hid | hid) | hid
    · exact List.mem_append_left _ hid
    · exact List.mem_append_right _ hid
    · exact List.mem_append_left _ hid
  | _ => simp at hid

namespace Manager

variable {m : Manager}

lemma mem_own {who : Nat} {e : ManagerEvent} :
    e ∈ m.own who ↔ e ∈ m.history ∧ e.isBy who = true := by
  rw [own, List.mem_reverse, List.mem_filter]

lemma Calls.removed (h : m.Calls) {who id : Nat}
    (hid : .cancelled who id ∈ m.history ∨ .joined who id ∈ m.history) :
    ∃ ids, .removed who ids ∈ m.history ∧ id ∈ ids := by
  obtain ⟨calls, current, hcalls, hcurrent, hown⟩ := h who
  have hmine : .cancelled who id ∈ m.own who ∨ .joined who id ∈ m.own who :=
    hid.imp (fun h => mem_own.mpr ⟨h, by simp [ManagerEvent.isBy]⟩)
      fun h => mem_own.mpr ⟨h, by simp [ManagerEvent.isBy]⟩
  suffices ∃ ids, .removed who ids ∈ m.own who ∧ id ∈ ids by
    obtain ⟨ids, hids, hid⟩ := this
    exact ⟨ids, (mem_own.mp hids).1, hid⟩
  rw [hown] at hmine ⊢
  simp only [List.mem_append, List.mem_flatten] at hmine ⊢
  by_cases hnow : .cancelled who id ∈ current ∨ .joined who id ∈ current
  · obtain ⟨ids, hids, hid⟩ := hcurrent.removed hnow
    exact ⟨ids, .inr hids, hid⟩
  · obtain ⟨call, hcall, hid⟩ : ∃ call ∈ calls,
        .cancelled who id ∈ call ∨ .joined who id ∈ call := by
      rcases hmine with (⟨call, hcall, hid⟩ | hid) | ⟨call, hcall, hid⟩ | hid
      · exact ⟨call, hcall, .inl hid⟩
      · exact absurd (.inl hid) hnow
      · exact ⟨call, hcall, .inr hid⟩
      · exact absurd (.inr hid) hnow
    obtain ⟨ids, hids, hid⟩ := (hcalls call hcall).removed hid
    exact ⟨ids, .inl ⟨call, hcall, hids⟩, hid⟩

/-! ### Custody -/

/-- What becomes of the workers of a manager. -/
structure Custody (m : Manager) : Prop where
  /-- Numbers are drawn in order. -/
  drawn : m.drawn = List.range m.nextId
  /-- Of the numbers that were drawn, each is given to one caller or lost, at most once. -/
  settled : ∀ id, m.done .handedOut id + m.done .lost id ≤ m.drawn.count id
  drawnOnce : ∀ id, m.drawn.count id ≤ 1
  /-- The table lists what was started and not removed, in ascending order. -/
  sorted : m.table.Pairwise (· < ·)
  listed : ∀ id, id ∈ m.table ↔ m.done .handedOut id = 1 ∧ m.done .removed id = 0
  removedOnce : ∀ id, m.done .removed id ≤ m.done .handedOut id
  /-- Who cancels or joins a worker has removed it, and does so once. -/
  calls : m.Calls
  remover : ∀ who id, .cancelled who id ∈ m.history ∨ .joined who id ∈ m.history →
    ∃ ids, .removed who ids ∈ m.history ∧ id ∈ ids
  cancelledOnce : ∀ id, m.done .cancelled id ≤ m.done .removed id
  joinedOnce : ∀ id, m.done .joined id ≤ m.done .removed id
  joined : ∀ id, m.unjoined id + m.done .joined id = m.named id
  /-- A stop of one worker answers at most once that it stopped it, or how it had failed. -/
  answeredOnce : ∀ id, m.done .answered id ≤ m.done .joined id
  /-- When the manager has gone, all its workers were joined. -/
  gone : m.isAlive = false → ∀ w ∈ m.workers, w.isJoined = true ∧ m.done .joined w.id = 1

lemma count_drawn (id : TaskId) : m.drawn.count id = m.done .drawn id := by
  rw [Manager.drawn, List.count_reverse, done]

lemma Books.drawn_le_one (h : m.Books) (id : TaskId) : m.drawn.count id ≤ 1 := by
  rw [h.drawn]
  exact List.nodup_iff_count.mp List.nodup_range id

/-- Where every client is outside, nothing is due. -/
lemma due_eq_zero (h : ∀ who, m.standing who = .outside) (d : Duty) (id : TaskId) :
    m.due d id = 0 := by
  by_contra hne
  obtain ⟨who, c, hc, hid⟩ := due_pos.mp (Nat.pos_of_ne_zero hne)
  have houtside := h who
  rw [standing_of_getElem? hc] at houtside
  subst houtside
  cases hid

/-- A worker that is not joined counts as such. -/
lemma isJoined_of_unjoined {w : Worker} (hw : w ∈ m.workers) (h : m.unjoined w.id = 0) :
    w.isJoined = true := by
  by_contra hjoined
  exact List.countP_eq_zero.mp h w hw (by simp [hjoined])

lemma named_pos {w : Worker} (hw : w ∈ m.workers) : 0 < m.named w.id :=
  List.countP_pos_iff.mpr ⟨w, hw, by simp⟩

lemma custody_of_books (hbooks : m.Books) (hcalls : m.Calls) (hclosing : m.Closing)
    (hsorted : m.table.Pairwise (· < ·)) : m.Custody where
  drawn := hbooks.drawn
  settled id := by
    rw [count_drawn]
    have hdrawn := (hbooks.balanced id).drawn
    have hnamed := (hbooks.balanced id).named
    omega
  drawnOnce := hbooks.drawn_le_one
  sorted := hsorted
  listed id := by
    have hone := hbooks.named_le_one id
    obtain ⟨-, hnamed, hhanded, -, -, -, -⟩ := hbooks.balanced id
    rw [← List.count_pos_iff]
    omega
  removedOnce id := by
    have := (hbooks.balanced id).handedOut
    omega
  calls := hcalls
  remover _ _ := hcalls.removed
  cancelledOnce id := by
    have := (hbooks.balanced id).cancelled
    omega
  joinedOnce id := by
    have := (hbooks.balanced id).joined
    omega
  joined id := by
    obtain ⟨-, hnamed, hhanded, -, hjoined, hunjoined, -⟩ := hbooks.balanced id
    omega
  answeredOnce id := (hbooks.balanced id).answered
  gone hgone w hw := by
    obtain ⟨htable, houtside⟩ := hclosing.gone hgone
    obtain ⟨-, hnamed, hhanded, -, hjoined, hunjoined, -⟩ := hbooks.balanced w.id
    have hone := hbooks.named_le_one w.id
    have hpos := named_pos hw
    -- nobody is in a call any more, so nothing is due about any worker
    rw [htable, List.count_nil] at hhanded hunjoined
    rw [due_eq_zero houtside] at hnamed hjoined hunjoined
    rw [due_eq_zero houtside] at hunjoined
    exact ⟨isJoined_of_unjoined hw (by omega), by omega⟩

/-- Every worker is started, removed, cancelled and joined at most once and by one call, after
every run and whatever the step that follows. -/
theorem workers_in_custody {n : Nat} {as : List ManagerAction} (h : (start n).run as = some m) :
    m.Custody ∧ ∀ a m', m.step a = some m' → m.Shows a m' := by
  have hclosing : m.Closing :=
    run_induction (closing_start n) (fun _ _ _ _ hclosing t => t.closing hclosing) h
  have hsorted : m.table.Pairwise (· < ·) :=
    run_induction (P := fun m => m.table.Pairwise (· < ·)) .nil
      (fun _ _ _ _ hsorted t => t.sorted hsorted) h
  exact ⟨custody_of_books (books_of_run h) (calls_of_run h) hclosing hsorted,
    fun _ _ hstep => (turn_of_step hstep).shows⟩

/-- Two starts fail, two callers stop one worker, and the manager goes while another runs. -/
def eventful : List ManagerAction := List.flatten [
  .begin 0 (.start "w" none) :: List.replicate 4 (.proceed 0),
  .begin 0 (.start "\x00" none) :: List.replicate 3 (.proceed 0),
  .begin 1 (.start "v" (some "busy")) :: List.replicate 3 (.proceed 1),
  [.begin 0 (.stop 0), .begin 1 (.stop 0), .proceed 0, .proceed 0, .proceed 1, .proceed 1,
    .proceed 0, .finish 0 (.value ()), .proceed 0],
  .begin 1 (.start "x" none) :: List.replicate 4 (.proceed 1),
  .begin 0 .drop :: List.replicate 4 (.proceed 0),
  [.finish 3 (.panicked (.text "late")), .proceed 0, .proceed 0]]

theorem workers_in_custody_eventful : ∃ m, (start 2).run eventful = some m ∧
    m.isAlive = false ∧ m.drawn = [0, 1, 2, 3] ∧ m.Custody := by
  have hends : ((start 2).run eventful).map (fun m => (m.isAlive, m.drawn)) =
      some (false, [0, 1, 2, 3]) := by decide +kernel
  obtain ⟨m, hrun, hm⟩ := Option.map_eq_some_iff.mp hends
  obtain ⟨hgone, hdrawn⟩ := Prod.mk.inj hm
  exact ⟨m, hrun, hgone, hdrawn, (workers_in_custody hrun).1⟩

end Manager

end Overseer
