import Overseer.Proofs.Worker.Sweep

/-!
# What a stop of one worker tells

A call that stops one worker tells how the body of the worker has ended, and comes back with
nothing stopped only where another call has taken the worker, or no start has handed it out yet.
-/

namespace Overseer

/-- A stop of one worker comes back. -/
def ManagerEvent.isStop : ManagerEvent → Bool
  | stopped _ _ _ => true
  | _ => false

namespace Manager

variable {m m' : Manager} {a : ManagerAction} {id : TaskId}

/-! ### How bodies end -/

/-- What the worker with a number has ended with, if it has ended. -/
def verdict? (m : Manager) (id : TaskId) : Option (Verdict Unit) :=
  (m.worker? id).bind Worker.verdict?

lemma not_isRunning_of_verdict? {v : Verdict Unit} (h : m.verdict? id = some v) :
    m.isRunning id = false := by
  obtain ⟨w, hw, hv⟩ := Option.bind_eq_some_iff.mp h
  rw [← Bool.not_eq_true, isRunning_iff]
  rintro ⟨u, hu, hrunning⟩
  cases hw.symm.trans hu
  rw [Worker.verdict?, hrunning] at hv
  cases hv

lemma isOver_iff : m.IsOver id ↔ ∃ v, m.verdict? id = some v := by
  constructor
  · rintro ⟨w, v, hw, hv⟩
    exact ⟨v, Option.bind_eq_some_iff.mpr ⟨w, hw, hv⟩⟩
  · rintro ⟨v, hv⟩
    obtain ⟨w, hw, hv⟩ := Option.bind_eq_some_iff.mp hv
    exact ⟨w, v, hw, hv⟩

/-- A worker that is there runs or has ended. -/
lemma isRunning_or_verdict? {w : Worker} (hw : m.worker? id = some w) :
    m.isRunning id = true ∨ ∃ v, m.verdict? id = some v := by
  rw [verdict?, hw, Option.bind_some, isRunning_iff, Worker.verdict?]
  cases hphase : w.phase with
  | running => exact .inl ⟨w, hw, hphase⟩
  | ended v | joined v => exact .inr ⟨v, rfl⟩

lemma Grows.verdict? (h : m.Grows m') {v : Verdict Unit} (hv : m.verdict? id = some v) :
    m'.verdict? id = some v ∧ m'.nameOf id = m.nameOf id := by
  obtain ⟨w, hw, hv⟩ := Option.bind_eq_some_iff.mp hv
  obtain ⟨w', hw', hgrows⟩ := h id w hw
  constructor
  · rw [Manager.verdict?, hw', Option.bind_some, hgrows.verdict v hv]
  · simp only [nameOf, hw, hw', Option.map_some, Option.getD_some, hgrows.name]

/-- A worker that was there and runs has run before. -/
lemma Grows.isRunning (h : m.Grows m') {w : Worker} (hw : m.worker? id = some w)
    (hrunning : m'.isRunning id = true) : m.isRunning id = true := by
  refine (isRunning_or_verdict? hw).resolve_right ?_
  rintro ⟨v, hv⟩
  rw [not_isRunning_of_verdict? (h.verdict? hv).1] at hrunning
  cases hrunning

/-- The body that ends has ended like that. -/
lemma verdict?_of_finish {v : Verdict Unit} (h : m.step (.finish id v) = some m') :
    m'.verdict? id = some v := by
  cases turn_of_step h with
  | finish _ _ w hw =>
    have hw' := worker?_update_self (f := fun w => { w with phase := .ended v }) (fun _ => rfl) hw
    exact Option.bind_eq_some_iff.mpr ⟨_, hw', rfl⟩

/-- A worker that was not there runs when it is there. -/
lemma Turn.spawned (t : m.Turn a m') (h : m.worker? id = none) {w : Worker}
    (hw : m'.worker? id = some w) : w.phase = .running := by
  have hsame (hworkers : m'.workers = m.workers) : w.phase = .running := by
    rw [worker?_congr hworkers, h] at hw
    cases hw
  have hupdate {i : TaskId} {f : Worker → Worker} (hf : ∀ w, (f w).id = w.id)
      (hworkers : m'.workers = (m.update i f).workers) : w.phase = .running := by
    rw [worker?_congr hworkers, worker?_update hf, h] at hw
    cases hw
  cases t with
  | spawn who i name r =>
    rw [worker?] at h
    simp only [worker?, place_workers, record_workers, List.find?_append, h, Option.none_or] at hw
    rw [List.mem_singleton.mp (List.mem_of_find?_eq_some hw)]
  | cancel _ i | cancelNext _ _ i | cancelSelf i =>
    exact hupdate (i := i) (f := fun w => { w with cancelled := true }) (fun _ => rfl) rfl
  | join _ i _ v | joinFailed _ i _ v | joinNext _ _ i _ _ _ _ v | joinNextFailed _ _ i _ _ _ _ v =>
    exact hupdate (i := i) (f := fun w => { w with phase := .joined v }) (fun _ => rfl) rfl
  | finish i v =>
    exact hupdate (i := i) (f := fun w => { w with phase := .ended v }) (fun _ => rfl) rfl
  | takeNone | joinedAll => exact hsame (finishAll_workers ..)
  | _ => exact hsame rfl

/-- A body ends by a step of its own. -/
lemma Turn.verdict? (t : m.Turn a m') {v : Verdict Unit} (ha : ∀ u, a ≠ .finish id u)
    (hv : m'.verdict? id = some v) : m.verdict? id = some v := by
  obtain ⟨w', hw', hv'⟩ := Option.bind_eq_some_iff.mp hv
  cases hw : m.worker? id with
  | none =>
    rw [Worker.verdict?, t.spawned hw hw'] at hv'
    cases hv'
  | some w =>
    rcases isRunning_or_verdict? hw with hrunning | ⟨u, hu⟩
    · have hrunning' := t.isRunning hrunning ha
      rw [not_isRunning_of_verdict? hv] at hrunning'
      cases hrunning'
    · rw [hu, ← (t.grows.verdict? hu).1, hv]

/-! ### What the callers are told -/

/-- What a stop tells of a worker that it has waited for. -/
def IsAnswer (m : Manager) (id : TaskId) (r : Except WorkerFailure Bool) : Prop :=
  ∃ v, m.verdict? id = some v ∧ r = (v.result (m.nameOf id)).map fun _ => true

lemma Grows.isAnswer (h : m.Grows m') {r : Except WorkerFailure Bool} (hr : m.IsAnswer id r) :
    m'.IsAnswer id r := by
  obtain ⟨v, hv, hr⟩ := hr
  obtain ⟨hv', hname⟩ := h.verdict? hv
  exact ⟨v, hv', by rw [hname, hr]⟩

/-- The worker that is joined has ended with what the joiner makes of it. -/
lemma isAnswer_takeIn (who : Nat) {w : Worker} {v : Verdict Unit}
    {x : Except WorkerFailure Unit} (hw : m.worker? id = some w)
    (hworkers : m'.workers = (m.takeIn who id v).workers) (hx : v.result w.name = x) :
    m'.IsAnswer id (x.map fun _ => true) := by
  have hw' : m'.worker? id = some { w with phase := .joined v } := by
    rw [worker?_congr hworkers]
    exact worker?_update_self (f := fun w => { w with phase := .joined v }) (fun _ => rfl) hw
  refine ⟨v, by rw [Manager.verdict?, hw', Option.bind_some]; rfl, ?_⟩
  simp only [nameOf, hw', Option.map_some, Option.getD_some, hx]

lemma closing_isStop (who : Nat) (r : Except WorkerFailure Unit) (dropping : Bool) :
    ∀ e ∈ closing who r dropping, e.isStop = false := by
  unfold closing
  split
  · cases r <;> simp [ManagerEvent.isStop]
  · simp [ManagerEvent.isStop]

/-- At most one stop comes back in a turn, and it tells how the worker has ended, or that it is not
listed. -/
lemma Turn.stops (t : m.Turn a m') :
    (∃ es, m'.history = es ++ m.history ∧ ∀ e ∈ es, e.isStop = false) ∨
      ∃ who id r es, m'.history = .stopped who id r :: (es ++ m.history) ∧
        (∀ e ∈ es, e.isStop = false) ∧
        (r = .ok false ∧ id ∉ m.table ∧ (∃ x, es = [.logged x]) ∨ m'.IsAnswer id r) := by
  cases t with
  | begin | lock | cancelledAll | cancelSelf => exact .inl ⟨[], rfl, nofun⟩
  | draw | fail | spawn | remove | takeAll | cancel | cancelNext | joinNext | finish | look =>
    exact .inl ⟨[_], rfl, by simp [ManagerEvent.isStop]⟩
  | joinNextFailed => exact .inl ⟨[_, _], rfl, by simp [ManagerEvent.isStop]⟩
  | list => exact .inl ⟨[_, _, _], rfl, by simp [ManagerEvent.isStop]⟩
  | takeNone who dropping =>
    refine .inl ⟨_, finishAll_history_cons who (.ok ()) dropping rfl, ?_⟩
    exact List.forall_mem_append.mpr ⟨closing_isStop who _ _, by simp [ManagerEvent.isStop]⟩
  | joinedAll who batch failure dropping =>
    refine .inl ⟨_, finishAll_history_cons who (batchResult failure) dropping rfl, ?_⟩
    exact List.forall_mem_append.mpr ⟨closing_isStop who _ _, by simp [ManagerEvent.isStop]⟩
  | unknown who id r hc hid =>
    exact .inr ⟨who, id, _, [.logged r], rfl, by simp [ManagerEvent.isStop],
      .inl ⟨rfl, hid, r, rfl⟩⟩
  | join who id w v r hc hw hv hresult =>
    exact .inr ⟨who, id, _, [.logged r, .joined who id], rfl, by simp [ManagerEvent.isStop],
      .inr (isAnswer_takeIn who hw rfl hresult)⟩
  | joinFailed who id w v e hc hw hv hresult =>
    exact .inr ⟨who, id, _, [.joined who id], rfl, by simp [ManagerEvent.isStop],
      .inr (isAnswer_takeIn who hw rfl hresult)⟩

/-- Who asks for a worker to be stopped is told what its body ended with, unless nothing was
stopped. -/
def Answers (m : Manager) : Prop :=
  ∀ who id r, .stopped who id r ∈ m.history → r = .ok false ∨ m.IsAnswer id r

/-- Nothing is stopped only where no start had handed the worker out, or another call had taken
it. -/
def Denials (m : Manager) : Prop :=
  ∀ since who id earlier, m.history = since ++ .stopped who id (.ok false) :: earlier →
    (∃ starter, .started starter id (.ok id) ∈ earlier) →
    ∃ taker ids, .removed taker ids ∈ earlier ∧ id ∈ ids

lemma Turn.answers (t : m.Turn a m') (h : m.Answers) : m'.Answers := by
  have hbefore {who id : Nat} {r : Except WorkerFailure Bool}
      (hr : .stopped who id r ∈ m.history) : r = .ok false ∨ m'.IsAnswer id r :=
    (h who id r hr).imp_right t.grows.isAnswer
  intro who id r hr
  rcases t.stops with ⟨es, hhistory, hes⟩ | ⟨who', id', r', es, hhistory, hes, htold⟩
  · rw [hhistory, List.mem_append] at hr
    rcases hr with hr | hr
    · cases hes _ hr
    · exact hbefore hr
  · rw [hhistory, List.mem_cons, List.mem_append] at hr
    rcases hr with hr | hr | hr
    · cases hr
      exact htold.imp_left And.left
    · cases hes _ hr
    · exact hbefore hr

/-- What was handed out and is not listed was removed. -/
lemma Books.removed_of_not_mem (h : m.Books) (hid : id ∉ m.table)
    (hstarted : ∃ starter, .started starter id (.ok id) ∈ m.history) :
    ∃ taker ids, .removed taker ids ∈ m.history ∧ id ∈ ids := by
  obtain ⟨starter, hstarted⟩ := hstarted
  have hhanded : 0 < m.done .handedOut id :=
    done_pos.mpr ⟨_, hstarted, List.mem_singleton_self id⟩
  have hbalance := (h.balanced id).handedOut
  rw [List.count_eq_zero.mpr hid] at hbalance
  exact removed_pos_iff.mp (by omega)

lemma Turn.denials (t : m.Turn a m') (hbooks : m.Books) (h : m.Denials) : m'.Denials := by
  -- a denial that is not the latest event of all was there before
  have hbefore {es since earlier : List ManagerEvent} {who id : Nat}
      (hsplit : es ++ m.history = since ++ .stopped who id (.ok false) :: earlier)
      (hes : ∀ e ∈ es, e.isStop = false) :
      (∃ starter, .started starter id (.ok id) ∈ earlier) →
      ∃ taker ids, .removed taker ids ∈ earlier ∧ id ∈ ids := by
    rcases List.append_eq_append_iff.mp hsplit with ⟨front, -, hm⟩ | ⟨rest, rfl, hrest⟩
    · exact h front who id earlier hm
    · cases rest with
      | nil => exact h [] who id earlier hrest.symm
      | cons e rest =>
        cases hrest
        cases hes (.stopped who id (.ok false)) (by simp)
  intro since who id earlier hsplit
  rcases t.stops with ⟨es, hhistory, hes⟩ | ⟨who', id', r', es, hhistory, hes, htold⟩
  · rw [hhistory] at hsplit
    exact hbefore hsplit hes
  · rw [hhistory] at hsplit
    cases since with
    | cons e since => exact hbefore (List.cons.inj hsplit).2 hes
    | nil =>
      cases hsplit
      rintro ⟨starter, hstarted⟩
      rcases htold with ⟨-, hid, x, rfl⟩ | ⟨v, -, hr⟩
      · have hstarted' : .started starter id (.ok id) ∈ m.history := by simpa using hstarted
        obtain ⟨taker, ids, hremoved, hmem⟩ :=
          hbooks.removed_of_not_mem hid ⟨starter, hstarted'⟩
        exact ⟨taker, ids, List.mem_append_right _ hremoved, hmem⟩
      · cases v <;> cases hr

/-- Who waits for a worker that has ended can go on. -/
lemma Books.joinable (h : m.Books) {who : Nat} (hover : m.isRunning id = false)
    (hjoining : m.standing who = .joining id) : ∃ m', m.step (.proceed who) = some m' := by
  have hc : m.clients[who]? = some (.joining id) := by
    rw [standing] at hjoining
    cases hc : m.clients[who]? with
    | none => simp [hc] at hjoining
    | some c => rw [← hjoining, hc, Option.getD_some]
  have hend : m.endAwaited? who = none := by
    rw [endAwaited?, awaited?, hc, h.displaced?_eq_none]
    simp [hover]
  exact h.proceeds hc (by simp) (by simp [ClientAt.wantsLock]) hend

/-- After every run, callers that stopped one worker were told what its body ended with, and those
that stopped nothing came too early or too late. -/
theorem stops_tell_ends {n : Nat} {as : List ManagerAction} (h : (start n).run as = some m) :
    m.Answers ∧ m.Denials := by
  have hkept : m.Books ∧ m.Answers ∧ m.Denials := by
    refine run_induction (P := fun m => m.Books ∧ m.Answers ∧ m.Denials) ?_ ?_ h
    · refine ⟨books_start n, nofun, fun since who id earlier hsplit => ?_⟩
      cases since <;> cases hsplit
    · rintro a - u u' ⟨hbooks, hanswers, hdenials⟩ t
      exact ⟨t.books hbooks, t.answers hanswers, t.denials hbooks hdenials⟩
  exact hkept.2

end Manager

end Overseer
