import Overseer.Proofs.Worker.Dismissal
import Overseer.Proofs.Worker.Handles

/-!
# What a stop of all workers does and reports

A call that stops all workers takes what is listed, tells every one of them to stop, and only then
waits for the first. It waits for all of them, in ascending order, whatever they end with and in
whatever order they do, and reports the panic of the first in this order. What others do meanwhile
does not matter.
-/

namespace Overseer

/-- How many steps the client takes until it is back from a stop of all workers. -/
def ClientAt.remaining : ClientAt → Nat
  | cancellingAll batch todo _ => todo.length + batch.length + 2
  | joiningAll _ todo _ _ => todo.length + 1
  | _ => 0

/-- The action is a step of this client. -/
def ManagerAction.isStepOf (who : Nat) : ManagerAction → Bool
  | proceed w => w = who
  | _ => false

/-- Nothing that a worker was told or has ended with is taken back. -/
structure Worker.Grows (w w' : Worker) : Prop where
  name : w'.name = w.name
  cancelled : w.cancelled = true → w'.cancelled = true
  verdict : ∀ v, w.verdict? = some v → w'.verdict? = some v

lemma Worker.Grows.refl (w : Worker) : w.Grows w := ⟨rfl, fun h => h, fun _ h => h⟩

namespace Manager

variable {m m' : Manager} {a : ManagerAction} {who id : Nat} {before : List ManagerEvent}
  {batch : List TaskId}

/-! ### Workers keep what they were told and ended with -/

/-- The workers of the one are those of the other, or more. -/
def Grows (m m' : Manager) : Prop :=
  ∀ id w, m.worker? id = some w → ∃ w', m'.worker? id = some w' ∧ w.Grows w'

lemma grows_of_eq (h : m'.workers = m.workers) : m.Grows m' := by
  intro id w hw
  exact ⟨w, by rwa [worker?_congr h], .refl w⟩

lemma grows_update {i : TaskId} {f : Worker → Worker} (hf : ∀ w, (f w).id = w.id)
    (hworkers : m'.workers = (m.update i f).workers)
    (hgrows : ∀ w, m.worker? i = some w → w.Grows (f w)) : m.Grows m' := by
  intro id w hw
  refine ⟨if w.id = i then f w else w, ?_, ?_⟩
  · rw [worker?_congr hworkers, worker?_update hf, hw, Option.map_some]
  · split
    · rename_i hi
      rw [worker?_id hw] at hi
      exact hgrows w (by rwa [← hi])
    · exact .refl w

lemma grows_takeIn (who : Nat) {i : TaskId} {w : Worker} {v : Verdict Unit}
    (hworkers : m'.workers = (m.takeIn who i v).workers) (hw : m.worker? i = some w)
    (hv : w.phase = .ended v) : m.Grows m' := by
  refine grows_update (f := fun w => { w with phase := .joined v }) (fun _ => rfl) hworkers ?_
  rintro w' hw'
  obtain rfl : w = w' := Option.some.inj (hw.symm.trans hw')
  refine ⟨rfl, id, fun u hu => ?_⟩
  rwa [Worker.verdict?, hv] at hu

lemma Turn.grows (t : m.Turn a m') : m.Grows m' := by
  cases t with
  | spawn =>
    intro id w hw
    refine ⟨w, ?_, .refl w⟩
    rw [worker?] at hw
    simp [worker?, hw]
  | cancel _ i | cancelNext _ _ i | cancelSelf i =>
    exact grows_update (i := i) (f := fun w => { w with cancelled := true }) (fun _ => rfl) rfl
      fun w _ => ⟨rfl, fun _ => rfl, fun _ => id⟩
  | join who i w v r _ hw hv | joinFailed who i w v e _ hw hv
  | joinNext who _ i _ _ _ w v _ hw hv | joinNextFailed who _ i _ _ _ w v _ _ _ hw hv =>
    exact grows_takeIn who rfl hw hv
  | finish i v w hw hrunning =>
    refine grows_update (i := i) (f := fun w => { w with phase := .ended v }) (fun _ => rfl) rfl ?_
    intro w' hw'
    obtain rfl : w = w' := Option.some.inj (hw.symm.trans hw')
    refine ⟨rfl, id, fun u hu => ?_⟩
    rw [Worker.verdict?, hrunning] at hu
    cases hu
  | takeNone | joinedAll => exact grows_of_eq (finishAll_workers ..)
  | _ => exact grows_of_eq rfl

/-- The worker was told to stop. -/
def IsTold (m : Manager) (id : TaskId) : Prop :=
  ∃ w, m.worker? id = some w ∧ w.cancelled = true

/-- The body of the worker has ended. -/
def IsOver (m : Manager) (id : TaskId) : Prop :=
  ∃ w v, m.worker? id = some w ∧ w.verdict? = some v

/-- The panic of the worker with a number, as it is reported. -/
def failure? (m : Manager) (id : TaskId) : Option WorkerFailure :=
  (m.worker? id).bind Worker.failure?

lemma Grows.isTold (h : m.Grows m') (hid : m.IsTold id) : m'.IsTold id := by
  obtain ⟨w, hw, hcancelled⟩ := hid
  obtain ⟨w', hw', hgrows⟩ := h id w hw
  exact ⟨w', hw', hgrows.cancelled hcancelled⟩

lemma Grows.isOver (h : m.Grows m') (hid : m.IsOver id) : m'.IsOver id := by
  obtain ⟨w, v, hw, hv⟩ := hid
  obtain ⟨w', hw', hgrows⟩ := h id w hw
  exact ⟨w', v, hw', hgrows.verdict v hv⟩

/-- How a worker has ended is settled. -/
lemma Grows.failure?_eq (h : m.Grows m') (hid : m.IsOver id) : m'.failure? id = m.failure? id := by
  obtain ⟨w, v, hw, hv⟩ := hid
  obtain ⟨w', hw', hgrows⟩ := h id w hw
  rw [failure?, failure?, hw, hw', Option.bind_some, Option.bind_some, Worker.failure?,
    Worker.failure?, hv, hgrows.verdict v hv, hgrows.name]

lemma Grows.findSome?_eq (h : m.Grows m') {ids : List TaskId} (hids : ∀ id ∈ ids, m.IsOver id) :
    ids.findSome? m'.failure? = ids.findSome? m.failure? := by
  induction ids with
  | nil => rfl
  | cons id ids ih =>
    rw [List.forall_mem_cons] at hids
    rw [List.findSome?_cons, List.findSome?_cons, h.failure?_eq hids.1, ih hids.2]

/-! ### Steps of others -/

/-- What others do is none of a client's acts. -/
lemma Turn.own_eq (t : m.Turn a m') (hproceed : a ≠ .proceed who) : m'.own who = m.own who := by
  have hnot {i : Nat} (hi : ManagerAction.proceed i ≠ .proceed who) : i ≠ who := by
    rintro rfl
    exact hi rfl
  have hothers (es : List ManagerEvent) (hhistory : m'.history = es ++ m.history)
      (hes : es.filter (·.isBy who) = []) : m'.own who = m.own who := by
    rw [own_append hhistory, hes, List.reverse_nil, List.append_nil]
  cases t with
  | begin | lock | cancelledAll | cancelSelf => rfl
  | draw i => exact hothers [_] rfl (by simp [ManagerEvent.isBy, hnot hproceed])
  | fail i | remove i | takeAll i | cancel i | cancelNext i | joinNext i =>
    exact hothers [_] rfl (by simp [ManagerEvent.isBy, hnot hproceed])
  | spawn | finish | look => exact hothers [_] rfl rfl
  | unknown i | joinFailed i | joinNextFailed i =>
    exact hothers [_, _] rfl (by simp [ManagerEvent.isBy, hnot hproceed])
  | list i | join i => exact hothers [_, _, _] rfl (by simp [ManagerEvent.isBy, hnot hproceed])
  | takeNone i dropping =>
    refine hothers _ (finishAll_history_cons i (.ok ()) dropping rfl) ?_
    rw [List.filter_append, closing_others i _ _ (hnot hproceed).symm]
    simp [ManagerEvent.isBy, hnot hproceed]
  | joinedAll i batch failure dropping =>
    refine hothers _ (finishAll_history_cons i (batchResult failure) dropping rfl) ?_
    rw [List.filter_append, closing_others i _ _ (hnot hproceed).symm]
    simp [ManagerEvent.isBy]

/-- What is listed after a turn was listed before, or the turn lists it. -/
lemma Turn.lists (t : m.Turn a m') : ∃ es, m'.history = es ++ m.history ∧
    ∀ id ∈ m'.table, id ∈ m.table ∨ .listed id ∈ es := by
  cases t with
  | begin | lock | cancelledAll | cancelSelf => exact ⟨[], rfl, fun _ => .inl⟩
  | draw | fail | spawn | cancel | cancelNext | joinNext | finish | look =>
    exact ⟨[_], rfl, fun _ => .inl⟩
  | unknown | joinFailed | joinNextFailed => exact ⟨[_, _], rfl, fun _ => .inl⟩
  | join => exact ⟨[_, _, _], rfl, fun _ => .inl⟩
  | list who id name r =>
    refine ⟨[_, _, _], rfl, fun i hi => ?_⟩
    rcases mem_insertTask.mp hi with rfl | hi
    · exact .inr (by simp)
    · exact .inl hi
  | remove => exact ⟨[_], rfl, fun _ hi => .inl (List.mem_of_mem_erase hi)⟩
  | takeAll => exact ⟨[_], rfl, nofun⟩
  | takeNone who dropping =>
    refine ⟨_, finishAll_history_cons who (.ok ()) dropping rfl, fun i hi => .inl ?_⟩
    rwa [finishAll_table] at hi
  | joinedAll who batch failure dropping =>
    refine ⟨_, finishAll_history_cons who (batchResult failure) dropping rfl, fun i hi => .inl ?_⟩
    rwa [finishAll_table] at hi

/-! ### The course of a call -/

/-- How far a call that stops all workers has got since it took `batch` from the table. The acts of
the client before it are `before`. -/
inductive Sweep (m : Manager) (who : Nat) (before : List ManagerEvent) (batch : List TaskId) :
    ClientAt → Prop where
  | telling (told : List TaskId) {todo : List TaskId} (hbatch : batch = told ++ todo)
      (hown : m.own who = before ++ .removed who batch :: told.map (.cancelled who))
      (htold : ∀ id ∈ told, m.IsTold id) :
      Sweep m who before batch (.cancellingAll batch todo false)
  | waiting (joined : List TaskId) {todo : List TaskId} {failure : Option WorkerFailure}
      (hbatch : batch = joined ++ todo)
      (hown : m.own who = before ++ (.removed who batch :: batch.map (.cancelled who) ++
        joined.map (.joined who)))
      (htold : ∀ id ∈ batch, m.IsTold id) (hover : ∀ id ∈ joined, m.IsOver id)
      (hfailure : failure = joined.findSome? m.failure?) :
      Sweep m who before batch (.joiningAll batch todo failure false)
  | back (hown : m.own who = before ++ (.removed who batch :: batch.map (.cancelled who) ++
        batch.map (.joined who) ++ [.stoppedAll who (batchResult (batch.findSome? m.failure?))]))
      (htold : ∀ id ∈ batch, m.IsTold id) (hover : ∀ id ∈ batch, m.IsOver id) :
      Sweep m who before batch .outside

/-- The steps of others do not matter to the call. -/
lemma Sweep.others {c : ClientAt} (h : m.Sweep who before batch c) (hgrows : m.Grows m')
    (hown : m'.own who = m.own who) : m'.Sweep who before batch c := by
  cases h with
  | telling told hbatch hacts htold =>
    exact .telling told hbatch (hown.trans hacts) fun id hid => hgrows.isTold (htold id hid)
  | waiting joined hbatch hacts htold hover hfailure =>
    refine .waiting joined hbatch (hown.trans hacts) (fun id hid => hgrows.isTold (htold id hid))
      (fun id hid => hgrows.isOver (hover id hid)) ?_
    rw [hgrows.findSome?_eq hover, hfailure]
  | back hacts htold hover =>
    refine .back ?_ (fun id hid => hgrows.isTold (htold id hid))
      (fun id hid => hgrows.isOver (hover id hid))
    rw [hgrows.findSome?_eq hover, hown, hacts]

lemma own_cons {e : ManagerEvent} (h : m'.history = e :: m.history) (he : e.isBy who = true) :
    m'.own who = m.own who ++ [e] := by
  have hhistory : m'.history = [e] ++ m.history := h
  rw [own_append hhistory, List.filter_cons_of_pos he]
  rfl

lemma own_finishAll {u : Manager} {e : ManagerEvent} (h : m.history = e :: u.history)
    (r : Except WorkerFailure Unit) :
    (m.finishAll who r false).own who =
      u.own who ++ ([e].filter (·.isBy who)).reverse ++ [.stoppedAll who r] := by
  rw [own_append (finishAll_history_cons who r false h), List.filter_append, List.reverse_append,
    closing_own, if_neg Bool.false_ne_true, List.append_assoc]

lemma standing_self {c c' : ClientAt} (h : m.clients[who]? = some c)
    (hclients : m'.clients = m.clients.set who c') : m'.standing who = c' := by
  rw [standing_place h hclients, if_pos rfl]

/-- The call takes what is listed, or comes back at once. -/
lemma Turn.sweep_begin (t : m.Turn (.proceed who) m')
    (h : m.standing who = .taking false) (hown : m.own who = before) :
    m'.table = [] ∧ m'.Sweep who before m.table (m'.standing who) ∧
      (m'.standing who).remaining ≤ 2 * m.table.length + 2 := by
  cases t with
  | takeNone _ dropping hc hnone =>
    rw [standing_of_getElem? hc] at h
    cases h
    have hback : ((m.record (.removed who [])).release.finishAll who (.ok ()) false).own who =
        m.own who ++ [.removed who []] ++ [.stoppedAll who (.ok ())] := by
      rw [own_finishAll (u := m) rfl]
      simp [ManagerEvent.isBy]
    have houtside : ((m.record (.removed who [])).release.finishAll who (.ok ()) false).standing
        who = .outside :=
      standing_self hc (finishAll_clients ..)
    rw [finishAll_table, houtside, hnone]
    refine ⟨hnone, .back ?_ (by simp) (by simp), Nat.zero_le _⟩
    rw [hback, hown, List.append_assoc]
    rfl
  | takeAll _ dropping hc =>
    rw [standing_of_getElem? hc] at h
    cases h
    rw [standing_self hc rfl]
    refine ⟨rfl, .telling [] rfl ?_ (by simp), by simp only [ClientAt.remaining]; omega⟩
    rw [own_cons (m := m) (e := .removed who m.table) rfl (by simp [ManagerEvent.isBy]), hown]
    rfl
  | lock _ c c' hc hadmitted =>
    rw [standing_of_getElem? hc] at h
    subst h
    cases hadmitted
  | draw _ _ _ hc | fail _ _ _ _ _ hc | spawn _ _ _ _ hc | list _ _ _ _ hc | remove _ _ hc
  | unknown _ _ _ hc | cancel _ _ hc | join _ _ _ _ _ hc | joinFailed _ _ _ _ _ hc
  | cancelNext _ _ _ _ _ hc | cancelledAll _ _ _ hc | joinNext _ _ _ _ _ _ _ _ hc
  | joinNextFailed _ _ _ _ _ _ _ _ _ _ hc | joinedAll _ _ _ _ _ hc =>
    rw [standing_of_getElem? hc] at h
    cases h

/-- The call waits for the lock of the table, and gets it. -/
lemma Turn.sweep_lock (t : m.Turn (.proceed who) m') (h : m.standing who = .wantsAll false) :
    m'.standing who = .taking false ∧ m'.own who = m.own who := by
  cases t with
  | lock _ c c' hc hadmitted =>
    rw [standing_of_getElem? hc] at h
    subst h
    cases hadmitted
    exact ⟨standing_self hc rfl, rfl⟩
  | draw _ _ _ hc | fail _ _ _ _ _ hc | spawn _ _ _ _ hc | list _ _ _ _ hc | remove _ _ hc
  | unknown _ _ _ hc | cancel _ _ hc | join _ _ _ _ _ hc | joinFailed _ _ _ _ _ hc
  | takeNone _ _ hc | takeAll _ _ hc | cancelNext _ _ _ _ _ hc | cancelledAll _ _ _ hc
  | joinNext _ _ _ _ _ _ _ _ hc | joinNextFailed _ _ _ _ _ _ _ _ _ _ hc
  | joinedAll _ _ _ _ _ hc =>
    rw [standing_of_getElem? hc] at h
    cases h

/-- A worker is told to stop. -/
lemma isTold_cancel (who : Nat) (hid : 0 < m.named id)
    (hworkers : m'.workers = (m.cancel who id).workers) : m'.IsTold id := by
  obtain ⟨w, hw⟩ : ∃ w, m.worker? id = some w := by
    obtain ⟨w, hw, hwid⟩ := List.countP_pos_iff.mp hid
    exact Option.isSome_iff_exists.mp (List.find?_isSome.mpr ⟨w, hw, hwid⟩)
  have hself : m'.worker? id = some { w with cancelled := true } := by
    rw [worker?_congr hworkers]
    exact worker?_update_self (f := fun w => { w with cancelled := true }) (fun _ => rfl) hw
  exact ⟨_, hself, rfl⟩

/-- A worker is waited for, and how it has ended is known. -/
lemma failure?_of_result {w : Worker} {v : Verdict Unit} (hw : m.worker? id = some w)
    (hv : w.phase = .ended v) :
    m.IsOver id ∧ batchResult (m.failure? id) = v.result w.name := by
  have hverdict : w.verdict? = some v := by rw [Worker.verdict?, hv]
  refine ⟨⟨w, v, hw, hverdict⟩, ?_⟩
  rw [failure?, hw, Option.bind_some, Worker.failure?, hverdict]
  cases v <;> rfl

lemma failure?_of_batchResult {e : Option WorkerFailure}
    (h : batchResult (m.failure? id) = batchResult e) : m.failure? id = e := by
  cases hfailed : m.failure? id <;> rw [hfailed] at h <;> cases e <;> cases h <;> rfl

lemma Sweep.of_joiningAll {taken todo : List TaskId} {failure : Option WorkerFailure}
    {dropping : Bool} (h : m.Sweep who before batch (.joiningAll taken todo failure dropping)) :
    taken = batch ∧ dropping = false := by
  cases h
  exact ⟨rfl, rfl⟩

/-- The next worker was waited for, and has failed or not. -/
lemma Sweep.join {rest : List TaskId} {failure : Option WorkerFailure}
    (h : m.Sweep who before batch (.joiningAll batch (id :: rest) failure false))
    (hgrows : m.Grows m') {w : Worker} {v : Verdict Unit} (hw : m.worker? id = some w)
    (hv : w.phase = .ended v) (hown : m'.own who = m.own who ++ [.joined who id]) :
    m'.Sweep who before batch (.joiningAll batch rest (failure <|> m.failure? id) false) := by
  obtain ⟨hover', -⟩ := failure?_of_result hw hv
  cases h with
  | waiting joined hbatch hacts htold hover hfailure =>
    have hovers : ∀ i ∈ joined ++ [id], m.IsOver i :=
      List.forall_mem_append.mpr ⟨hover, List.forall_mem_singleton.mpr hover'⟩
    refine .waiting (joined ++ [id]) (by rw [hbatch]; simp) ?_
      (fun i hi => hgrows.isTold (htold i hi)) (fun i hi => hgrows.isOver (hovers i hi)) ?_
    · rw [hown, hacts]
      simp
    · rw [hgrows.findSome?_eq hovers, List.findSome?_append, ← hfailure, List.findSome?_cons,
        List.findSome?_nil]
      cases failure <;> cases m.failure? id <;> rfl

/-- The call goes on with the next worker, or comes back. -/
lemma Turn.sweep_proceed (t : m.Turn (.proceed who) m')
    (h : m.Sweep who before batch (m.standing who)) (hknown : ∀ id ∈ batch, 0 < m.named id) :
    m'.Sweep who before batch (m'.standing who) ∧
      (m'.standing who).remaining + 1 ≤ (m.standing who).remaining := by
  have hgrows := t.grows
  cases t with
  | lock _ c c' hc hadmitted =>
    rw [standing_of_getElem? hc] at h
    cases h <;> cases hadmitted
  | draw _ _ _ hc | fail _ _ _ _ _ hc | spawn _ _ _ _ hc | list _ _ _ _ hc | remove _ _ hc
  | unknown _ _ _ hc | cancel _ _ hc | join _ _ _ _ _ hc | joinFailed _ _ _ _ _ hc
  | takeNone _ _ hc | takeAll _ _ hc =>
    rw [standing_of_getElem? hc] at h
    cases h
  | cancelNext _ _ id rest dropping hc =>
    rw [standing_of_getElem? hc] at h ⊢
    rw [standing_self hc rfl]
    cases h with
    | telling told hbatch hacts htold =>
      have hid : id ∈ batch := by rw [hbatch]; simp
      refine ⟨?_, by simp only [ClientAt.remaining, List.length_cons]; omega⟩
      refine .telling (told ++ [id]) (by rw [hbatch]; simp) ?_ ?_
      · rw [own_cons (m := m) (e := .cancelled who id) rfl (by simp [ManagerEvent.isBy]), hacts]
        simp
      · exact List.forall_mem_append.mpr ⟨fun i hi => hgrows.isTold (htold i hi),
          List.forall_mem_singleton.mpr (isTold_cancel who (hknown id hid) rfl)⟩
  | cancelledAll _ _ dropping hc =>
    rw [standing_of_getElem? hc] at h ⊢
    rw [standing_self hc rfl]
    cases h with
    | telling told hbatch hacts htold =>
      rw [List.append_nil] at hbatch
      subst hbatch
      refine ⟨?_, by simp only [ClientAt.remaining, List.length_nil]; omega⟩
      refine .waiting [] rfl ?_ (fun i hi => hgrows.isTold (htold i hi)) (by simp) rfl
      have hsame : (m.place who (.joiningAll batch batch none false)).own who = m.own who := rfl
      rw [hsame, hacts]
      simp
  | joinNext _ taken id rest failure dropping w v hc hw hv hresult =>
    rw [standing_of_getElem? hc] at h ⊢
    rw [standing_self hc rfl]
    obtain ⟨rfl, rfl⟩ := h.of_joiningAll
    have hfailure : m.failure? id = none :=
      failure?_of_batchResult ((failure?_of_result hw hv).2.trans hresult)
    have hjoined : (m.takeIn who id v).own who = m.own who ++ [.joined who id] :=
      own_cons rfl (by simp [ManagerEvent.isBy])
    have hnext := h.join hgrows hw hv hjoined
    have hsame : (failure <|> none) = failure := by cases failure <;> rfl
    rw [hfailure, hsame] at hnext
    exact ⟨hnext, by simp only [ClientAt.remaining, List.length_cons]; omega⟩
  | joinNextFailed _ taken id rest failure dropping w v e r hc hw hv hresult =>
    rw [standing_of_getElem? hc] at h ⊢
    rw [standing_self hc rfl]
    obtain ⟨rfl, rfl⟩ := h.of_joiningAll
    have hfailure : m.failure? id = some e :=
      failure?_of_batchResult (e := some e) ((failure?_of_result hw hv).2.trans hresult)
    have hjoined : (m.takeIn who id v).own who = m.own who ++ [.joined who id] :=
      own_cons rfl (by simp [ManagerEvent.isBy])
    rw [← hfailure]
    exact ⟨h.join hgrows hw hv hjoined, by simp only [ClientAt.remaining, List.length_cons]; omega⟩
  | joinedAll _ _ failure dropping r hc =>
    rw [standing_of_getElem? hc] at h ⊢
    cases h with
    | waiting joined hbatch hacts htold hover hfailure =>
      rw [List.append_nil] at hbatch
      subst hbatch
      have hback : ((m.record (.logged r)).finishAll who (batchResult failure) false).own who =
          m.own who ++ [] ++ [.stoppedAll who (batchResult failure)] :=
        own_finishAll (u := m) (e := .logged r) rfl _
      have houtside : ((m.record (.logged r)).finishAll who (batchResult failure) false).standing
          who = .outside :=
        standing_self hc (finishAll_clients ..)
      rw [houtside]
      refine ⟨?_, by simp [ClientAt.remaining]⟩
      refine .back ?_ (fun i hi => hgrows.isTold (htold i hi))
        fun i hi => hgrows.isOver (hover i hi)
      rw [hback, hacts, hgrows.findSome?_eq hover, hfailure]
      simp

lemma Turn.clients_length (t : m.Turn a m') : m'.clients.length = m.clients.length := by
  cases t with
  | finish | look | cancelSelf => rfl
  | takeNone | joinedAll =>
    rw [finishAll_clients, List.length_set]
    rfl
  | _ => exact List.length_set ..

/-! ### The whole call -/

lemma runs : Runs step run := ⟨fun _ => rfl, fun _ _ _ => rfl⟩

/-- What a call that stops all workers has done in `steps` steps since it took `batch` from the
table. The acts of the client before the call are `before`, and `earlier` is what had happened when
it took the batch. -/
structure Swept (m : Manager) (who : Nat) (before earlier : List ManagerEvent)
    (batch : List TaskId) (steps : Nat) : Prop where
  /-- All are told to stop, and then they are waited for in order. -/
  course : m.Sweep who before batch (m.standing who)
  ascending : batch.Pairwise (· < ·)
  /-- The table was emptied: what is in it was listed since. -/
  table : ∃ since, m.history = since ++ earlier ∧ ∀ id ∈ m.table, .listed id ∈ since
  gone : ∀ id ∈ batch, id ∉ m.table
  /-- The call can go on, unless it waits for a worker that runs while all were told to stop. -/
  progress : m.standing who ≠ .outside → (∃ m', m.step (.proceed who) = some m') ∨
    (∀ id ∈ batch, m.IsTold id) ∧ ∃ id ∈ batch, m.awaited? who = some id ∧ m.isRunning id = true
  /-- The call takes no more steps than this. -/
  pace : steps + (m.standing who).remaining ≤ 2 * batch.length + 2
  /-- The answer is the panic of the first worker that has panicked, if there is one. -/
  answer : m.standing who = .outside → ∃ r, (m.own who).getLast? = some (.stoppedAll who r) ∧
    (r = .ok () ↔ ∀ id ∈ batch, m.failure? id = none) ∧
    ∀ e, r = .error e ↔
      ∃ id ∈ batch, m.failure? id = some e ∧ ∀ i ∈ batch, i < id → m.failure? i = none
  /-- Another such call finds nothing to do. -/
  again : m.standing who = .outside → m.table = [] → m.holder = none → m.isOpen = true →
    m.run [.begin who .stopAll, .proceed who, .proceed who] =
      some { m with history := .stoppedAll who (.ok ()) :: .removed who [] :: m.history }

lemma Sweep.removed_mem {c : ClientAt} (h : m.Sweep who before batch c) :
    .removed who batch ∈ m.own who := by
  cases h with
  | telling _ _ hown | waiting _ _ hown | back hown =>
    rw [hown]
    simp

/-- The workers of the batch are out of the table for good. -/
lemma Sweep.removed {c : ClientAt} (h : m.Sweep who before batch c) (hbooks : m.Books)
    (hid : id ∈ batch) : id ∉ m.table ∧ 0 < m.named id := by
  have hremoved : 0 < m.done .removed id :=
    removed_pos_iff.mpr ⟨who, batch, (mem_own.mp h.removed_mem).1, hid⟩
  refine ⟨hbooks.not_mem_of_removed hremoved, ?_⟩
  obtain ⟨-, hnamed, hhanded, -, -, -, -⟩ := hbooks.balanced id
  omega

/-- Of ascending numbers, the first with a property is the smallest. -/
lemma findSome?_ascending {ids : List TaskId} (h : ids.Pairwise (· < ·))
    (f : TaskId → Option WorkerFailure) (e : WorkerFailure) :
    ids.findSome? f = some e ↔ ∃ id ∈ ids, f id = some e ∧ ∀ i ∈ ids, i < id → f i = none := by
  rw [List.findSome?_eq_some_iff]
  constructor
  · rintro ⟨front, id, rest, rfl, hid, hfront⟩
    refine ⟨id, by simp, hid, fun i hi hlt => ?_⟩
    rw [List.pairwise_append, List.pairwise_cons] at h
    rcases List.mem_append.mp hi with hi | hi
    · exact hfront i hi
    · rcases List.mem_cons.mp hi with rfl | hi
      · exact absurd hlt (Nat.lt_irrefl i)
      · exact absurd hlt (Nat.lt_asymm (h.2.1.1 i hi))
  · rintro ⟨id, hmem, hid, hsmaller⟩
    obtain ⟨front, rest, rfl⟩ := List.append_of_mem hmem
    refine ⟨front, id, rest, rfl, hid, fun i hi => hsmaller i (List.mem_append_left _ hi) ?_⟩
    exact (List.pairwise_append.mp h).2.2 i hi id List.mem_cons_self

/-- A call that finds an empty table comes back and leaves everything as it is. -/
lemma run_stopAll_of_empty (hc : m.clients[who]? = some .outside) (htable : m.table = [])
    (hfree : m.holder = none) (hopen : m.isOpen = true) :
    m.run [.begin who .stopAll, .proceed who, .proceed who] =
      some { m with history := .stoppedAll who (.ok ()) :: .removed who [] :: m.history } := by
  have hlt : who < m.clients.length := (List.getElem?_eq_some_iff.mp hc).1
  have hback : m.clients.set who .outside = m.clients := by
    rw [← (List.getElem?_eq_some_iff.mp hc).2, List.set_getElem_self]
  have hbegin : m.step (.begin who .stopAll) = some (m.place who (.wantsAll false)) := by
    rw [step, begin, hopen, hc]
  obtain ⟨nextId, table, workers, holder, clients, isAlive, history⟩ := m
  obtain rfl : table = [] := htable
  obtain rfl : holder = none := hfree
  rw [run, hbegin, Option.bind_some]
  simp only [run, step, proceed, acquire, place, record, release, finishAll, Option.isNone_none,
    List.getElem?_set_self hlt, Option.bind_some, if_true, List.set_set, List.isEmpty_nil, hback,
    Bool.false_eq_true, if_false]

/-- Who is waited for is one of the batch, and all of it was told to stop. -/
lemma Sweep.of_awaited {c : ClientAt} (h : m.Sweep who before batch c)
    (hc : m.clients[who]? = some c) (hawaited : m.awaited? who = some id) :
    (∀ i ∈ batch, m.IsTold i) ∧ id ∈ batch := by
  rw [awaited?, hc] at hawaited
  cases h with
  | telling | back => cases hawaited
  | @waiting joined todo _ hbatch _ htold =>
    cases todo with
    | nil => cases hawaited
    | cons i rest =>
      cases hawaited
      exact ⟨htold, by rw [hbatch]; simp⟩

/-- What a call has done is known from how far it has got. -/
lemma swept_of_course {earlier : List ManagerEvent} {steps : Nat} (hbooks : m.Books)
    (hin : who < m.clients.length) (hcourse : m.Sweep who before batch (m.standing who))
    (hascending : batch.Pairwise (· < ·))
    (htable : ∃ since, m.history = since ++ earlier ∧ ∀ id ∈ m.table, .listed id ∈ since)
    (hpace : steps + (m.standing who).remaining ≤ 2 * batch.length + 2) :
    m.Swept who before earlier batch steps := by
  have hc : m.clients[who]? = some (m.standing who) := by
    rw [standing, List.getElem?_eq_getElem hin, Option.getD_some]
  refine ⟨hcourse, hascending, htable, fun id hid => (hcourse.removed hbooks hid).1, fun hout => ?_,
    hpace, fun hout => ?_, fun hout => ?_⟩
  · by_cases hend : m.endAwaited? who = none
    · refine .inl (hbooks.proceeds hc hout (fun hwants => ?_) hend)
      generalize m.standing who = c at hcourse hwants
      cases hcourse <;> cases hwants
    · right
      obtain ⟨id, hid⟩ := Option.ne_none_iff_exists'.mp hend
      have hnone : (m.awaited? who <|> none) = m.awaited? who := by
        cases m.awaited? who <;> rfl
      rw [endAwaited?, hbooks.displaced?_eq_none, hnone, Option.filter_eq_some_iff] at hid
      obtain ⟨hawaited, hrunning⟩ := hid
      obtain ⟨htold, hmem⟩ := hcourse.of_awaited hc hawaited
      exact ⟨htold, id, hmem, hawaited, hrunning⟩
  · rw [hout] at hcourse
    cases hcourse with
    | back hown htold hover =>
      refine ⟨_, by rw [hown, ← List.append_assoc, List.getLast?_concat], ?_, fun e => ?_⟩
      · rw [← List.findSome?_eq_none_iff]
        cases batch.findSome? m.failure? <;> simp [batchResult]
      · rw [← findSome?_ascending hascending]
        cases batch.findSome? m.failure? <;> simp [batchResult]
  · exact run_stopAll_of_empty (by rw [hc, hout])

/-- The call goes on, or others do. -/
lemma Swept.step {earlier : List ManagerEvent} {steps : Nat}
    (h : m.Swept who before earlier batch steps) (hbooks : m.Books)
    (hin : who < m.clients.length) (t : m.Turn a m') (hbegin : ∀ op, a ≠ .begin who op) :
    m'.Swept who before earlier batch (steps + if a.isStepOf who then 1 else 0) := by
  have hin' : who < m'.clients.length := by rwa [t.clients_length]
  have htable : ∃ since, m'.history = since ++ earlier ∧ ∀ id ∈ m'.table, .listed id ∈ since := by
    obtain ⟨since, hsince, hlisted⟩ := h.table
    obtain ⟨es, hhistory, hes⟩ := t.lists
    refine ⟨es ++ since, by rw [hhistory, hsince, List.append_assoc], fun id hid => ?_⟩
    rcases hes id hid with hid | hid
    · exact List.mem_append_right _ (hlisted id hid)
    · exact List.mem_append_left _ hid
  have hpace := h.pace
  by_cases ha : a = .proceed who
  · subst ha
    obtain ⟨hcourse, hremaining⟩ :=
      t.sweep_proceed h.course fun id hid => (h.course.removed hbooks hid).2
    have hstep : (if (ManagerAction.proceed who).isStepOf who then 1 else 0) = 1 := by
      simp [ManagerAction.isStepOf]
    refine swept_of_course (t.books hbooks) hin' hcourse h.ascending htable ?_
    rw [hstep]
    omega
  · have hstanding := t.standing_eq hbegin ha
    have hstep : a.isStepOf who = false := by
      cases a with
      | proceed w =>
        have hw : w ≠ who := by
          rintro rfl
          exact ha rfl
        simp [ManagerAction.isStepOf, hw]
      | _ => rfl
    rw [hstep]
    refine swept_of_course (t.books hbooks) hin' ?_ h.ascending htable (by rwa [hstanding])
    rw [hstanding]
    exact h.course.others t.grows (t.own_eq ha)

/-- A call that was begun in `s` has not taken anything from the table yet. -/
def Queues (m : Manager) (who : Nat) (before : List ManagerEvent) : Prop :=
  (m.standing who = .wantsAll false ∨ m.standing who = .taking false) ∧ m.own who = before

/-- Some step of the client took what was listed in `u` and left the table empty in `v`. The rest of
the actions followed. -/
def SweptSince (m s : Manager) (who : Nat) (before : List ManagerEvent)
    (as : List ManagerAction) : Prop :=
  ∃ front rest u v, as = front ++ .proceed who :: rest ∧ s.run front = some u ∧
    u.step (.proceed who) = some v ∧ v.run rest = some m ∧ v.table = [] ∧
    m.Swept who before v.history u.table (rest.countP (·.isStepOf who))

/-- A call that waits for the lock goes on to wait, or gets the table. -/
lemma Queues.step (h : m.Queues who before) (hbooks : m.Books) (hsorted : m.table.Pairwise (· < ·))
    (hin : who < m.clients.length) (hstep : m.step a = some m')
    (hbegin : ∀ op, a ≠ .begin who op) :
    m'.Queues who before ∨ a = .proceed who ∧ m'.table = [] ∧
      m'.Swept who before m'.history m.table 0 := by
  have t := turn_of_step hstep
  obtain ⟨hwhere, hown⟩ := h
  by_cases ha : a = .proceed who
  · subst ha
    rcases hwhere with hwants | htaking
    · obtain ⟨htaking, hown'⟩ := t.sweep_lock hwants
      exact .inl ⟨.inr htaking, hown'.trans hown⟩
    · obtain ⟨hempty, hcourse, hpace⟩ := t.sweep_begin htaking hown
      refine .inr ⟨rfl, hempty, swept_of_course (t.books hbooks) (by rwa [t.clients_length])
        hcourse hsorted ⟨[], rfl, ?_⟩ (by rwa [Nat.zero_add])⟩
      rw [hempty]
      nofun
  · left
    rw [Queues, t.standing_eq hbegin ha, t.own_eq ha]
    exact ⟨hwhere, hown⟩

lemma sweptSince_of_run {s : Manager} {as : List ManagerAction} (hbooks : s.Books)
    (hsorted : s.table.Pairwise (· < ·)) (hin : who < s.clients.length)
    (hqueues : s.Queues who before) (h : s.run as = some m)
    (halone : ∀ op, .begin who op ∉ as) :
    m.Queues who before ∨ m.SweptSince s who before as := by
  have hkept : (∀ op, .begin who op ∉ as) → m.Books ∧ m.table.Pairwise (· < ·) ∧
      who < m.clients.length ∧ (m.Queues who before ∨ m.SweptSince s who before as) := by
    refine runs.invariant (P := fun as m => (∀ op, .begin who op ∉ as) → m.Books ∧
      m.table.Pairwise (· < ·) ∧ who < m.clients.length ∧
        (m.Queues who before ∨ m.SweptSince s who before as)) ?_ ?_ h
    · exact fun _ => ⟨hbooks, hsorted, hin, .inl hqueues⟩
    · intro bs b u u' hrun hu hstep hbs
      have hnot (op : ClientOp) : b ≠ .begin who op := by
        rintro rfl
        exact hbs op (by simp)
      obtain ⟨hbooks, hsorted, hin, hcall⟩ := hu fun op hop => hbs op (List.mem_append_left _ hop)
      have t := turn_of_step hstep
      refine ⟨t.books hbooks, t.sorted hsorted, by rwa [t.clients_length], ?_⟩
      rcases hcall with hqueues | ⟨front, rest, v, v', rfl, hfront, htake, hrest, hempty, hswept⟩
      · rcases hqueues.step hbooks hsorted hin hstep hnot with hqueues' | ⟨rfl, hempty, hswept⟩
        · exact .inl hqueues'
        · exact .inr ⟨bs, [], u, u', rfl, hrun, hstep, rfl, hempty, hswept⟩
      · refine .inr ⟨front, rest ++ [b], v, v', by simp, hfront, htake, ?_, hempty, ?_⟩
        · rw [runs.concat, hrest, Option.bind_some, hstep]
        · rw [List.countP_append, List.countP_singleton]
          exact hswept.step hbooks hin t hnot
  exact (hkept halone).2.2.2

/-- A call that stops all workers, however it meets with other calls, with workers that end or
panic in any order and with workers that wait for each other to be told to stop. As long as it has
not got the lock, it has done nothing. Then it empties the table and tells all workers of the batch
to stop before it waits for the first. It waits for all of them in ascending order, whatever they
end with, and reports the panic of the smallest number. -/
theorem stopAll_sweeps {n who : Nat} {as₁ as₂ : List ManagerAction} {m₁ m : Manager}
    (h₁ : (start n).run as₁ = some m₁) (h : m₁.run (.begin who .stopAll :: as₂) = some m)
    (halone : ∀ op, .begin who op ∉ as₂) :
    m.Queues who (m₁.own who) ∨
      ∃ s, m₁.step (.begin who .stopAll) = some s ∧ m.SweptSince s who (m₁.own who) as₂ := by
  obtain ⟨s, hstep, hrun⟩ := Option.bind_eq_some_iff.mp h
  have t := turn_of_step hstep
  have hsorted : m₁.table.Pairwise (· < ·) :=
    run_induction (P := fun m => m.table.Pairwise (· < ·)) .nil
      (fun _ _ _ _ hsorted t => t.sorted hsorted) h₁
  have hbegun : who < m₁.clients.length ∧ s.Queues who (m₁.own who) := by
    cases t with
    | begin _ _ hc =>
      exact ⟨(List.getElem?_eq_some_iff.mp hc).1, .inl (standing_self hc rfl), rfl⟩
  obtain ⟨hin, hqueues⟩ := hbegun
  refine (sweptSince_of_run (t.books (books_of_run h₁)) (t.sorted hsorted)
    (by rwa [t.clients_length]) hqueues hrun halone).imp_right fun hswept => ?_
  exact ⟨s, hstep, hswept⟩

/-- Three workers run, and the second has panicked. -/
def troubled : List ManagerAction := List.flatten [
  .begin 0 (.start "a" none) :: List.replicate 4 (.proceed 0),
  .begin 0 (.start "b" none) :: List.replicate 4 (.proceed 0),
  .begin 0 (.start "c" none) :: List.replicate 4 (.proceed 0),
  [.finish 1 (.panicked (.text "early"))]]

/-- The first worker panics once the last was told to stop and has ended. -/
def interdependent : List ManagerAction := List.flatten [
  List.replicate 6 (.proceed 0),
  [.finish 2 (.value ()), .finish 0 (.panicked (.text "late"))],
  List.replicate 4 (.proceed 0)]

/-- The call reports the later panic, which is that of the smaller number. -/
theorem stopAll_sweeps_interdependent : ∃ m₁ m, (start 1).run troubled = some m₁ ∧
    m₁.run (.begin 0 .stopAll :: interdependent) = some m ∧
    (∃ s, m₁.step (.begin 0 .stopAll) = some s ∧
      m.SweptSince s 0 (m₁.own 0) interdependent) ∧
    m.history.head? = some (.stoppedAll 0 (.error (.panicked "a" "late"))) := by
  obtain ⟨m₁, m, h₁, h, hback, hanswer⟩ : ∃ m₁ m, (start 1).run troubled = some m₁ ∧
    m₁.run (.begin 0 .stopAll :: interdependent) = some m ∧ m.standing 0 = .outside ∧
    m.history.head? = some (.stoppedAll 0 (.error (.panicked "a" "late"))) :=
      ⟨_, _, rfl, rfl, rfl, rfl⟩
  have halone (op : ClientOp) : .begin 0 op ∉ interdependent := by simp [interdependent]
  refine ⟨m₁, m, h₁, h, (stopAll_sweeps h₁ h halone).resolve_left ?_, hanswer⟩
  rintro ⟨hwants | htaking, -⟩
  · rw [hback] at hwants
    cases hwants
  · rw [hback] at htaking
    cases htaking

end Manager

end Overseer
