import Overseer.Proofs.Worker.Books

/-!
# Stopping a whole crew

While nobody else is in a call, a stop of all workers comes back with everybody joined, whatever the
bodies that still run end with, and reports the first worker that has panicked.
-/

namespace Overseer

/-- How the body of a worker has ended, if the event tells of it. -/
def ManagerEvent.ending? : ManagerEvent → Option (TaskId × Verdict Unit)
  | workerEnded id v => some (id, v)
  | _ => none

/-- How the body of a worker ends. `last` is what it ends with if it is still running. -/
def WorkerAt.verdict (last : Verdict Unit) : WorkerAt → Verdict Unit
  | running => last
  | ended v | joined v => v

namespace Worker

/-- How the body of the worker has ended, if it has. -/
def verdict? (w : Worker) : Option (Verdict Unit) :=
  match w.phase with
  | .running => none
  | .ended v | .joined v => some v

/-- The panic of the worker, as it is reported. -/
def failure? (w : Worker) : Option WorkerFailure :=
  match w.verdict? with
  | some (.panicked payload) => some (.panicked w.name payload.message)
  | _ => none

/-- The worker once it was told to stop. -/
def told (w : Worker) : Worker := { w with cancelled := true }

/-- The worker once it was waited for. `last` is what its body ends with if it still runs. -/
def collected (last : TaskId → Verdict Unit) (w : Worker) : Worker :=
  { w with phase := .joined (w.phase.verdict (last w.id)) }

/-- The worker once it has been stopped. -/
def dismissed (last : TaskId → Verdict Unit) (w : Worker) : Worker := w.told.collected last

/-- How the body ends while the worker is waited for, if it still runs. -/
def parting (last : TaskId → Verdict Unit) (w : Worker) : List (TaskId × Verdict Unit) :=
  match w.phase with
  | .running => [(w.id, last w.id)]
  | _ => []

end Worker

namespace Manager

variable {m : Manager} {w : Worker} {ws done rest : List Worker} {id : TaskId} {v : Verdict Unit}
  {failure : Option WorkerFailure} {es : List ManagerEvent} {last : TaskId → Verdict Unit}

/-- The manager with these workers listed. -/
def listing (ws : List Worker) : Manager where
  nextId := ws.length
  table := ws.map Worker.id
  workers := ws

/-- The manager of workers that were all stopped. -/
def dismissing (ws : List Worker) : Manager where
  nextId := ws.length
  workers := ws

/-- The workers in `rest` are still to be told to stop. -/
def telling (batch : List TaskId) (done rest : List Worker) (es : List ManagerEvent) : Manager where
  nextId := (done ++ rest).length
  workers := done ++ rest
  clients := [.cancellingAll batch (rest.map Worker.id) false]
  history := es

/-- The workers in `rest` are still to be joined. -/
def collecting (batch : List TaskId) (done rest : List Worker) (failure : Option WorkerFailure)
    (es : List ManagerEvent) : Manager where
  nextId := (done ++ rest).length
  workers := done ++ rest
  clients := [.joiningAll batch (rest.map Worker.id) failure false]
  history := es

/-- A worker that is waited for ends. -/
def ending (last : TaskId → Verdict Unit) (id : TaskId) : List ManagerAction :=
  [.finish id (last id)]

/-! ### One worker among others -/

lemma worker?_middle (hworkers : m.workers = done ++ w :: rest) (hdone : ∀ u ∈ done, u.id ≠ w.id) :
    m.worker? w.id = some w := by
  have hnone : done.find? (·.id = w.id) = none :=
    List.find?_eq_none.mpr fun u hu => by simpa using hdone u hu
  rw [worker?, hworkers, List.find?_append, hnone, Option.none_or]
  exact List.find?_cons_of_pos (by simp)

lemma workers_update_middle (f : Worker → Worker) (hworkers : m.workers = done ++ w :: rest)
    (hdone : ∀ u ∈ done, u.id ≠ w.id) (hrest : ∀ u ∈ rest, u.id ≠ w.id) :
    (m.update w.id f).workers = done ++ f w :: rest := by
  have hkeep {l : List Worker} (hl : ∀ u ∈ l, u.id ≠ w.id) :
      (l.map fun u => if u.id = w.id then f u else u) = l := by
    conv_rhs => rw [← List.map_id l]
    exact List.map_congr_left fun u hu => if_neg (hl u hu)
  rw [update, hworkers, List.map_append, List.map_cons, if_pos rfl, hkeep hdone, hkeep hrest]

lemma ne_of_nodup (h : ((done ++ w :: rest).map Worker.id).Nodup) :
    (∀ u ∈ done, u.id ≠ w.id) ∧ ∀ u ∈ rest, u.id ≠ w.id := by
  rw [List.map_append, List.map_cons, List.nodup_append] at h
  obtain ⟨-, hrest, hdisjoint⟩ := h
  constructor
  · intro u hu
    exact hdisjoint _ (List.mem_map_of_mem hu) _ List.mem_cons_self
  · intro u hu heq
    refine (List.nodup_cons.mp hrest).1 ?_
    rw [← heq]
    exact List.mem_map_of_mem hu

/-! ### Telling the workers to stop -/

lemma complete_outside (h : m.clients = [.outside]) (react : TaskId → List ManagerAction)
    (n : Nat) : m.complete 0 react n = m := by
  cases n with
  | zero => rfl
  | succ n =>
    have hstep : m.step (.proceed 0) = none := by rw [step, h]; rfl
    have hawaited : m.awaited? 0 = none := by rw [awaited?, h]; rfl
    rw [complete, hstep, hawaited]

lemma complete_of_step {m' : Manager} (h : m.step (.proceed 0) = some m')
    (react : TaskId → List ManagerAction) (n : Nat) :
    m.complete 0 react (n + 1) = m'.complete 0 react n := by
  rw [complete, h]

lemma step_telling (batch : List TaskId) (es : List ManagerEvent)
    (hids : ((done ++ w :: rest).map Worker.id).Nodup) :
    (telling batch done (w :: rest) es).step (.proceed 0) =
      some (telling batch (done ++ [w.told]) rest (.cancelled 0 w.id :: es)) := by
  obtain ⟨hdone, hrest⟩ := ne_of_nodup hids
  have hworkers := workers_update_middle (m := telling batch done (w :: rest) es)
    (fun w => { w with cancelled := true }) rfl hdone hrest
  have htold : done ++ [w.told] ++ rest = done ++ w.told :: rest := by simp
  have hlength : (done ++ w.told :: rest).length = (done ++ w :: rest).length := by simp
  simp only [telling, htold, hlength]
  simp only [telling, update] at hworkers
  simp [step, proceed, cancel, update, record, place, hworkers, Worker.told]

/-- Every worker is told to stop, and then they are waited for. -/
lemma complete_telling (done rest : List Worker) (es : List ManagerEvent)
    (react : TaskId → List ManagerAction) (n : Nat) {batch : List TaskId}
    (hids : ((done ++ rest).map Worker.id).Nodup)
    (hbatch : batch = (done ++ rest).map Worker.id) :
    ∃ es', (telling batch done rest es).complete 0 react (rest.length + (n + 1)) =
        (collecting batch [] (done ++ rest.map Worker.told) none es').complete 0 react n ∧
      es'.filterMap ManagerEvent.ending? = es.filterMap ManagerEvent.ending? := by
  induction rest generalizing done es with
  | nil =>
    refine ⟨es, ?_, rfl⟩
    rw [List.length_nil, Nat.zero_add, List.map_nil]
    refine complete_of_step ?_ react n
    simp [telling, collecting, step, proceed, place, hbatch]
  | cons w rest ih =>
    have hids' : ((done ++ [w.told] ++ rest).map Worker.id).Nodup := by
      simpa [Worker.told] using hids
    have hbatch' : batch = (done ++ [w.told] ++ rest).map Worker.id := by
      simpa [Worker.told] using hbatch
    obtain ⟨es', hrest, hes'⟩ := ih _ (.cancelled 0 w.id :: es) hids' hbatch'
    refine ⟨es', ?_, hes'⟩
    rw [List.length_cons, Nat.add_right_comm, complete_of_step (step_telling batch es hids), hrest,
      List.map_cons, List.append_assoc, List.singleton_append]

/-! ### Joining the workers -/

/-- What is known of the events `es'` that come of waiting for the workers in `rest` after `es`. -/
structure Collects (last : TaskId → Verdict Unit) (rest : List Worker)
    (es es' : List ManagerEvent) : Prop where
  endings : es'.filterMap ManagerEvent.ending? =
    (rest.flatMap (Worker.parting last)).reverse ++ es.filterMap ManagerEvent.ending?
  joined : ∀ w ∈ rest, .joined 0 w.id ∈ es'
  kept : es ⊆ es'

lemma Collects.cons {es' es'' : List ManagerEvent} (h : Collects last [w] es es')
    (h' : Collects last rest es' es'') : Collects last (w :: rest) es es'' where
  endings := by
    rw [h'.endings, h.endings]
    simp
  joined := by
    intro u hu
    rcases List.mem_cons.mp hu with rfl | hu
    · exact h'.kept (h.joined u (List.mem_singleton_self u))
    · exact h'.joined u hu
  kept := List.Subset.trans h.kept h'.kept

lemma joinWorker_eq_takeIn (who : Nat) (hw : m.worker? id = some w) (hv : w.phase = .ended v) :
    m.joinWorker who id = some (v.result w.name, m.takeIn who id v) := by
  obtain ⟨i, name, cancelled, phase⟩ := w
  cases hv
  rw [joinWorker, hw]
  rfl

/-- A worker whose body has ended is joined. -/
lemma step_collecting (batch : List TaskId) (failure : Option WorkerFailure)
    (es : List ManagerEvent) (hids : ((done ++ w :: rest).map Worker.id).Nodup)
    (hv : w.phase = .ended v) :
    ∃ es', (collecting batch done (w :: rest) failure es).step (.proceed 0) =
        some (collecting batch (done ++ [{ w with phase := .joined v }]) rest
          (failure <|> ({ w with phase := .joined v } : Worker).failure?) es') ∧
      es'.filterMap ManagerEvent.ending? = es.filterMap ManagerEvent.ending? ∧
      .joined 0 w.id ∈ es' ∧ es ⊆ es' := by
  obtain ⟨hdone, hrest⟩ := ne_of_nodup hids
  set m := collecting batch done (w :: rest) failure es with hm
  have hjoin := joinWorker_eq_takeIn 0 (worker?_middle (m := m) rfl hdone) hv
  have hworkers :
      (m.takeIn 0 w.id v).workers = done ++ [{ w with phase := .joined v }] ++ rest := by
    rw [List.append_assoc, List.singleton_append]
    exact workers_update_middle (m := m) (fun w => { w with phase := .joined v }) rfl hdone hrest
  have hlength : (done ++ [{ w with phase := .joined v }] ++ rest).length =
      (done ++ w :: rest).length := by simp
  have hstep : m.step (.proceed 0) =
      m.proceed 0 (.joiningAll batch (w.id :: rest.map Worker.id) failure false) := rfl
  rw [hstep, proceed, hjoin]
  cases v with
  | value =>
    refine ⟨.joined 0 w.id :: es, ?_, rfl, List.mem_cons_self, List.subset_cons_self ..⟩
    rw [collecting, hlength, ← hworkers]
    cases failure <;> rfl
  | panicked payload =>
    set said : Record := ⟨.error, .manager,
      "Worker " ++ (m.takeIn 0 w.id (.panicked payload)).mention w.id ++ " failed: " ++
        (WorkerFailure.panicked w.name payload.message).message⟩
    refine ⟨.logged said :: .joined 0 w.id :: es, ?_, rfl, by simp, by simp⟩
    rw [collecting, hlength, ← hworkers]
    rfl

/-- A worker that still runs while it is waited for ends. -/
lemma complete_collecting_running (batch : List TaskId) (failure : Option WorkerFailure)
    (es : List ManagerEvent) (n : Nat) (hids : ((done ++ w :: rest).map Worker.id).Nodup)
    (hrunning : w.phase = .running) :
    (collecting batch done (w :: rest) failure es).complete 0 (ending last) (n + 1) =
      (collecting batch done ({ w with phase := .ended (last w.id) } :: rest) failure
        (.workerEnded w.id (last w.id) :: es)).complete 0 (ending last) n := by
  obtain ⟨hdone, hrest⟩ := ne_of_nodup hids
  set m := collecting batch done (w :: rest) failure es with hm
  have hworker : m.worker? w.id = some w := worker?_middle rfl hdone
  have hworkers : (m.update w.id fun u => { u with phase := .ended (last w.id) }).workers =
      done ++ { w with phase := .ended (last w.id) } :: rest :=
    workers_update_middle (m := m) (fun u => { u with phase := .ended (last w.id) }) rfl hdone hrest
  have hwaits : m.step (.proceed 0) = none := by
    have hjoin : m.joinWorker 0 w.id = none := by
      obtain ⟨i, name, cancelled, phase⟩ := w
      cases hrunning
      rw [joinWorker, hworker]
    have hstep : m.step (.proceed 0) =
        m.proceed 0 (.joiningAll batch (w.id :: rest.map Worker.id) failure false) := rfl
    rw [hstep, proceed, hjoin]
    rfl
  have hends : m.attempt (ending last w.id) =
      collecting batch done ({ w with phase := .ended (last w.id) } :: rest) failure
        (.workerEnded w.id (last w.id) :: es) := by
    have hstep : m.step (.finish w.id (last w.id)) =
        some ((m.update w.id fun u => { u with phase := .ended (last w.id) }).record
          (.workerEnded w.id (last w.id))) := by
      obtain ⟨i, name, cancelled, phase⟩ := w
      cases hrunning
      rw [step, hworker]
    have hlength : (done ++ { w with phase := .ended (last w.id) } :: rest).length =
        (done ++ w :: rest).length := by simp
    rw [attempt, ending, List.foldl_cons, List.foldl_nil, hstep, Option.getD_some, collecting,
      hlength, ← hworkers]
    rfl
  have hawaited : m.awaited? 0 = some w.id := rfl
  rw [complete, hwaits, hawaited, ← hends]

/-- A worker that is waited for is joined, once it has ended. -/
lemma complete_collecting_cons (last : TaskId → Verdict Unit) (batch : List TaskId)
    (failure : Option WorkerFailure) (es : List ManagerEvent) (n : Nat)
    (hids : ((done ++ w :: rest).map Worker.id).Nodup) (hunjoined : w.isJoined = false) :
    ∃ k es', (collecting batch done (w :: rest) failure es).complete 0 (ending last) (n + 2) =
        (collecting batch (done ++ [w.collected last]) rest
          (failure <|> (w.collected last).failure?) es').complete 0 (ending last) (n + k) ∧
      Collects last [w] es es' := by
  cases hphase : w.phase with
  | joined v => simp [Worker.isJoined, hphase] at hunjoined
  | ended v =>
    obtain ⟨es', hstep, hendings, hjoined, hkept⟩ := step_collecting batch failure es hids hphase
    have hcollected : w.collected last = { w with phase := .joined v } := by
      rw [Worker.collected, hphase, WorkerAt.verdict]
    refine ⟨1, es', ?_, ?_, ?_, hkept⟩
    · rw [hcollected]
      exact complete_of_step hstep (ending last) (n + 1)
    · simpa [Worker.parting, hphase] using hendings
    · simpa using hjoined
  | running =>
    set u : Worker := { w with phase := .ended (last w.id) } with hu
    have hids' : ((done ++ u :: rest).map Worker.id).Nodup := by simpa [hu] using hids
    obtain ⟨es', hstep, hendings, hjoined, hkept⟩ :=
      step_collecting batch failure (.workerEnded w.id (last w.id) :: es) hids' rfl
    have hcollected : w.collected last = { u with phase := .joined (last w.id) } := by
      rw [Worker.collected, hphase, WorkerAt.verdict]
    refine ⟨0, es', ?_, ?_, ?_, ?_⟩
    · rw [complete_collecting_running batch failure es (n + 1) hids hphase, hcollected]
      exact complete_of_step hstep (ending last) n
    · rw [hendings]
      simp [Worker.parting, hphase, ManagerEvent.ending?]
    · simpa [hu] using hjoined
    · exact List.Subset.trans (List.subset_cons_self ..) hkept

/-- Once all were joined, the call comes back. -/
lemma complete_collecting_nil (last : TaskId → Verdict Unit) (done : List Worker)
    (batch : List TaskId) (failure : Option WorkerFailure) (es : List ManagerEvent)
    (react : TaskId → List ManagerAction) (n : Nat) :
    ∃ es', (collecting batch done [] failure es).complete 0 react (n + 1) =
        { dismissing done with history := .stoppedAll 0 (batchResult failure) :: es' } ∧
      Collects last [] es es' := by
  set said : Record := ⟨.info, .manager, "Stopped all " ++ toString batch.length ++ " workers"⟩
  refine ⟨.logged said :: es, ?_, ⟨rfl, by simp, by simp⟩⟩
  have hstep : (collecting batch done [] failure es).step (.proceed 0) =
      some { dismissing done with
        history := .stoppedAll 0 (batchResult failure) :: .logged said :: es } := by
    have hworkers : done ++ [] = done := List.append_nil done
    rw [collecting, hworkers]
    cases failure <;> rfl
  rw [complete_of_step hstep, complete_outside rfl]

/-- All workers are waited for, one after another. -/
lemma complete_collecting (last : TaskId → Verdict Unit) (done rest : List Worker)
    (batch : List TaskId) (failure : Option WorkerFailure) (es : List ManagerEvent) (n : Nat)
    (hids : ((done ++ rest).map Worker.id).Nodup)
    (hunjoined : ∀ w ∈ rest, w.isJoined = false) (hn : 2 * rest.length < n) :
    ∃ es', (collecting batch done rest failure es).complete 0 (ending last) n =
        { dismissing (done ++ rest.map (Worker.collected last)) with
          history := .stoppedAll 0 (batchResult
            (failure <|> (rest.map (Worker.collected last)).findSome? Worker.failure?)) :: es' } ∧
      Collects last rest es es' := by
  induction rest generalizing done failure es n with
  | nil =>
    obtain ⟨k, rfl⟩ := Nat.exists_eq_succ_of_ne_zero (Nat.ne_of_gt (Nat.zero_lt_of_lt hn))
    obtain ⟨es', hback, hes'⟩ := complete_collecting_nil last done batch failure es (ending last) k
    refine ⟨es', ?_, hes'⟩
    have hsame : (failure <|> none) = failure := by cases failure <;> rfl
    rw [hback, List.map_nil, List.append_nil, List.findSome?_nil, hsame]
  | cons w rest ih =>
    obtain ⟨k, rfl⟩ : ∃ k, n = k + 2 := ⟨n - 2, by rw [List.length_cons] at hn; omega⟩
    obtain ⟨i, es', hfirst, hes'⟩ := complete_collecting_cons last batch failure es k hids
      (hunjoined w List.mem_cons_self)
    have hids' : ((done ++ [w.collected last] ++ rest).map Worker.id).Nodup := by
      simpa [Worker.collected] using hids
    have hn' : 2 * rest.length < k + i := by rw [List.length_cons] at hn; omega
    obtain ⟨es'', hrest, hes''⟩ := ih _ (failure <|> (w.collected last).failure?) es' _ hids'
      (fun u hu => hunjoined u (List.mem_cons_of_mem _ hu)) hn'
    refine ⟨es'', ?_, hes'.cons hes''⟩
    have hfailure : ((failure <|> (w.collected last).failure?) <|>
        (rest.map (Worker.collected last)).findSome? Worker.failure?) =
        (failure <|> ((w :: rest).map (Worker.collected last)).findSome? Worker.failure?) := by
      rw [List.map_cons, List.findSome?_cons]
      cases failure <;> cases (w.collected last).failure? <;> rfl
    rw [hfirst, hrest, hfailure, List.map_cons, List.append_assoc, List.singleton_append]

/-! ### Whole operations -/

/-- All workers are told to stop, end and are joined. -/
theorem perform_stopAll_listing (last : TaskId → Verdict Unit)
    (hids : (ws.map Worker.id).Nodup) (hunjoined : ∀ w ∈ ws, w.isJoined = false) :
    ∃ es, (listing ws).perform .stopAll (ending last) =
        { dismissing (ws.map (Worker.dismissed last)) with
          history := .stoppedAll 0 (batchResult
            ((ws.map (Worker.dismissed last)).findSome? Worker.failure?)) :: es } ∧
      Collects last ws [] es := by
  cases ws with
  | nil => exact ⟨[.removed 0 []], rfl, rfl, by simp, by simp⟩
  | cons w ws =>
    have hids' : (([] ++ (w :: ws).map Worker.told).map Worker.id).Nodup := by
      rw [List.nil_append, List.map_map]
      exact hids
    set batch := (w :: ws).map Worker.id with hbatch
    have hbegin : (listing (w :: ws)).perform .stopAll (ending last) =
        (telling batch [] (w :: ws) [.removed 0 batch]).complete 0 (ending last)
          (4 * (w :: ws).length + 6) := rfl
    obtain ⟨es, htold, hes⟩ := complete_telling [] (w :: ws) [.removed 0 batch] (ending last)
      (3 * (w :: ws).length + 5) hids hbatch
    obtain ⟨es', hback, hendings, hjoined, -⟩ := complete_collecting last []
      ((w :: ws).map Worker.told) batch none es (3 * (w :: ws).length + 5) hids'
      (by simpa [Worker.told, Worker.isJoined] using hunjoined) (by rw [List.length_map]; omega)
    have hfuel : 4 * (w :: ws).length + 6 = (w :: ws).length + (3 * (w :: ws).length + 5 + 1) := by
      omega
    refine ⟨es', ?_, ?_, ?_, List.nil_subset _⟩
    · rw [hbegin, hfuel, htold, List.nil_append, hback, List.map_map, List.nil_append]
      rfl
    · rw [hendings, hes, List.flatMap_map]
      rfl
    · simpa [Worker.told] using hjoined

/-- With everybody joined already, the manager goes without a complaint. -/
lemma perform_drop_dismissing (ws : List Worker) (react : TaskId → List ManagerAction) :
    (dismissing ws).perform .drop react = { dismissing ws with
      isAlive := false
      history := [.dropped 0, .stoppedAll 0 (.ok ()), .removed 0 []] } := by
  rfl

lemma insertTask_of_lt {l : List TaskId} (h : ∀ x ∈ l, x < id) : insertTask id l = l ++ [id] := by
  induction l with
  | nil => rfl
  | cons x l ih =>
    have hx : x < id := h x List.mem_cons_self
    rw [insertTask, if_neg (Nat.lt_asymm hx), if_neg (Nat.ne_of_gt hx),
      ih fun y hy => h y (List.mem_cons_of_mem _ hy), List.cons_append]

/-- A worker is started while nobody else is in a call. -/
lemma perform_start_listing (name : String) (hname : nameFault? name = none)
    (hids : ws.map Worker.id = List.range ws.length) (react : TaskId → List ManagerAction) :
    ∃ es, (listing ws).perform (.start name none) react =
        { listing (ws ++ [{ id := ws.length, name := name }]) with
          history := .started 0 ws.length (.ok ws.length) :: es } ∧
      es.filterMap ManagerEvent.ending? = [] := by
  have htable : insertTask ws.length (ws.map Worker.id) = ws.map Worker.id ++ [ws.length] :=
    insertTask_of_lt fun x hx => by rwa [hids, List.mem_range] at hx
  set w : Worker := { id := ws.length, name := name }
  have hlength : (ws ++ [w]).length = ws.length + 1 := by simp
  -- the client draws a number, takes the lock, spawns the thread and lists the worker
  set m₁ : Manager := { listing ws with
    nextId := ws.length + 1
    clients := [.wantsStart ws.length name none]
    history := [.drew 0 ws.length] }
  set m₂ : Manager := { m₁ with holder := some 0, clients := [.spawning ws.length name none] }
  set m₃ : Manager := { m₂ with
    workers := ws ++ [w]
    clients := [.listing ws.length name]
    history := [.logged ⟨.debug, .thread, "Spawned scoped thread '" ++ name ++ "'"⟩,
      .drew 0 ws.length] }
  have hspawn : m₂.step (.proceed 0) = some m₃ := by
    have hstep : m₂.step (.proceed 0) = m₂.proceed 0 (.spawning ws.length name none) := rfl
    simp only [hstep, proceed, hname]
    rfl
  set es : List ManagerEvent := [.logged ⟨.info, .manager,
      "Started worker " ++ TaskId.label ws.length ++ " '" ++ name ++ "'"⟩, .listed ws.length,
    .logged ⟨.debug, .thread, "Spawned scoped thread '" ++ name ++ "'"⟩, .drew 0 ws.length]
  have hlist : m₃.step (.proceed 0) =
      some { listing (ws ++ [w]) with
        history := .started 0 ws.length (.ok ws.length) :: es } := by
    rw [listing, hlength, List.map_append, List.map_cons, List.map_nil, ← htable]
    rfl
  have hbegin : (listing ws).perform (.start name none) react =
      m₂.complete 0 react (4 * ws.length + 4 + 2) := rfl
  refine ⟨es, ?_, rfl⟩
  rw [hbegin, complete_of_step hspawn, complete_of_step hlist, complete_outside rfl]

/-- The end of a body makes a difference at a worker that runs only. -/
lemma attempt_finish (m : Manager) (id : TaskId) (v : Verdict Unit) :
    m.attempt [.finish id v] = m ∨ ∃ w, m.worker? id = some w ∧ w.phase = .running ∧
      m.attempt [.finish id v] =
        (m.update id fun w => { w with phase := .ended v }).record (.workerEnded id v) := by
  cases hstep : m.step (.finish id v) with
  | none =>
    left
    rw [attempt, List.foldl_cons, List.foldl_nil, hstep, Option.getD_none]
  | some m' =>
    right
    rw [attempt, List.foldl_cons, List.foldl_nil, hstep, Option.getD_some]
    cases turn_of_step hstep with
    | finish _ _ w hw hrunning => exact ⟨w, hw, hrunning, rfl⟩

end Manager

end Overseer
