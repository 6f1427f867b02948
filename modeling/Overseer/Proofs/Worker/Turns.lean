import Mathlib.Data.List.Induction
import Mathlib.Tactic.Common
import Overseer.Worker.Manager

/-!
# Turns of clients and workers

`Manager.Turn` says once what a step can do: where a client stands before and after it, what it
does to the table and to the workers, and what it adds to the history. Every invariant of the
manager is a case analysis over it, and `Manager.run_induction` carries it to all runs.
-/

namespace Overseer

/-- Where a client stands that begins an operation. -/
def ClientOp.entry : ClientOp → ClientAt
  | start name refusal => .drawing name refusal
  | stop id => .wantsStop id
  | stopAll => .wantsAll false
  | drop => .wantsAll true

/-- Where a client that waits for the lock stands once it has got it. -/
def ClientAt.admitted? : ClientAt → Option ClientAt
  | wantsStart id name refusal => some (.spawning id name refusal)
  | wantsStop id => some (.removing id)
  | wantsAll dropping => some (.taking dropping)
  | _ => none

/-- What a call that stops all workers comes to. -/
def batchResult : Option WorkerFailure → Except WorkerFailure Unit
  | some e => .error e
  | none => .ok ()

namespace Manager

variable {m m' : Manager} {a : ManagerAction}

/-- The manager after a worker whose body ended with `v` was joined. -/
def takeIn (m : Manager) (who : Nat) (id : TaskId) (v : Verdict Unit) : Manager :=
  (m.update id fun w => { w with phase := .joined v }).record (.joined who id)

/-- What the steps can do. -/
inductive Turn (m : Manager) : ManagerAction → Manager → Prop where
  | begin (who op) (h : m.clients[who]? = some .outside) (hopen : m.isOpen = true)
      (hdrop : op = .drop → m.isOutside = true) : Turn m (.begin who op) (m.place who op.entry)
  | draw (who name refusal) (h : m.clients[who]? = some (.drawing name refusal)) :
      Turn m (.proceed who) (({ m with nextId := m.nextId + 1 }.record (.drew who m.nextId)).place
        who (.wantsStart m.nextId name refusal))
  | lock (who c c') (h : m.clients[who]? = some c) (hc : c.admitted? = some c')
      (hfree : m.holder = none) : Turn m (.proceed who) ({ m with holder := some who }.place who c')
  | fail (who id name refusal result) (h : m.clients[who]? = some (.spawning id name refusal))
      (hresult : ∀ i, result ≠ .ok i) :
      Turn m (.proceed who) ((m.release.record (.started who id result)).place who .outside)
  | spawn (who id name r) (h : m.clients[who]? = some (.spawning id name none))
      (hname : nameFault? name = none) :
      Turn m (.proceed who)
        (({ m with workers := m.workers ++ [(⟨id, name, false, .running⟩ : Worker)] }.record
          (.logged r)).place who (.listing id name))
  | list (who id name r) (h : m.clients[who]? = some (.listing id name)) :
      Turn m (.proceed who) (((({ m with table := insertTask id m.table }.record
        (.listed id)).release.record (.logged r)).record (.started who id (.ok id))).place who
          .outside)
  | remove (who id) (h : m.clients[who]? = some (.removing id)) (hid : id ∈ m.table) :
      Turn m (.proceed who) ((({ m with table := m.table.erase id }.record
        (.removed who [id])).release).place who (.cancelling id))
  | unknown (who id r) (h : m.clients[who]? = some (.removing id)) (hid : id ∉ m.table) :
      Turn m (.proceed who) (((m.release.record (.logged r)).record
        (.stopped who id (.ok false))).place who .outside)
  | cancel (who id) (h : m.clients[who]? = some (.cancelling id)) :
      Turn m (.proceed who) ((m.cancel who id).place who (.joining id))
  | join (who id w v r) (h : m.clients[who]? = some (.joining id)) (hw : m.worker? id = some w)
      (hv : w.phase = .ended v) (hresult : v.result w.name = .ok ()) :
      Turn m (.proceed who) ((((m.takeIn who id v).record (.logged r)).record
        (.stopped who id (.ok true))).place who .outside)
  | joinFailed (who id w v e) (h : m.clients[who]? = some (.joining id))
      (hw : m.worker? id = some w) (hv : w.phase = .ended v)
      (hresult : v.result w.name = .error e) :
      Turn m (.proceed who) (((m.takeIn who id v).record (.stopped who id (.error e))).place who
        .outside)
  | takeNone (who dropping) (h : m.clients[who]? = some (.taking dropping)) (hnone : m.table = []) :
      Turn m (.proceed who) ((m.record (.removed who [])).release.finishAll who (.ok ()) dropping)
  | takeAll (who dropping) (h : m.clients[who]? = some (.taking dropping)) :
      Turn m (.proceed who) (({ m with table := [] }.record (.removed who m.table)).release.place
        who (.cancellingAll m.table m.table dropping))
  | cancelNext (who batch id rest dropping)
      (h : m.clients[who]? = some (.cancellingAll batch (id :: rest) dropping)) :
      Turn m (.proceed who) ((m.cancel who id).place who (.cancellingAll batch rest dropping))
  | cancelledAll (who batch dropping)
      (h : m.clients[who]? = some (.cancellingAll batch [] dropping)) :
      Turn m (.proceed who) (m.place who (.joiningAll batch batch none dropping))
  | joinNext (who batch id rest failure dropping w v)
      (h : m.clients[who]? = some (.joiningAll batch (id :: rest) failure dropping))
      (hw : m.worker? id = some w) (hv : w.phase = .ended v) (hresult : v.result w.name = .ok ()) :
      Turn m (.proceed who) ((m.takeIn who id v).place who
        (.joiningAll batch rest failure dropping))
  | joinNextFailed (who batch id rest failure dropping w v e r)
      (h : m.clients[who]? = some (.joiningAll batch (id :: rest) failure dropping))
      (hw : m.worker? id = some w) (hv : w.phase = .ended v)
      (hresult : v.result w.name = .error e) :
      Turn m (.proceed who) (((m.takeIn who id v).record (.logged r)).place who
        (.joiningAll batch rest (failure <|> some e) dropping))
  | joinedAll (who batch failure dropping r)
      (h : m.clients[who]? = some (.joiningAll batch [] failure dropping)) :
      Turn m (.proceed who) ((m.record (.logged r)).finishAll who (batchResult failure) dropping)
  | finish (id v w) (hw : m.worker? id = some w) (hrunning : w.phase = .running) :
      Turn m (.finish id v) ((m.update id fun w => { w with phase := .ended v }).record
        (.workerEnded id v))
  | look (id view) : Turn m (.look id) (m.record (.looked view))
  | cancelSelf (id) : Turn m (.cancelSelf id) (m.update id fun w => { w with cancelled := true })

lemma acquire_eq_some {who : Nat} {c : ClientAt} (h : m.acquire who c = some m') :
    m.holder = none ∧ m' = { m with holder := some who }.place who c := by
  unfold acquire at h
  split at h
  · cases h
    exact ⟨Option.isNone_iff_eq_none.mp ‹_›, rfl⟩
  · cases h

lemma joinWorker_eq_some {who : Nat} {id : TaskId} {x : Except WorkerFailure Unit × Manager}
    (h : m.joinWorker who id = some x) :
    ∃ w v, m.worker? id = some w ∧ w.phase = .ended v ∧
      x = (v.result w.name, m.takeIn who id v) := by
  unfold joinWorker at h
  split at h
  · cases h
    exact ⟨_, _, ‹_›, rfl, rfl⟩
  · cases h

/-- Where a client can proceed, it takes one of the turns. -/
lemma turn_of_proceed {who : Nat} {c : ClientAt} (hc : m.clients[who]? = some c)
    (h : m.proceed who c = some m') : m.Turn (.proceed who) m' := by
  cases c with
  | outside => cases h
  | drawing name refusal =>
    cases h
    exact .draw who name refusal hc
  | wantsStart | wantsStop | wantsAll =>
    obtain ⟨hfree, rfl⟩ := acquire_eq_some h
    exact .lock who _ _ hc rfl hfree
  | spawning id name refusal =>
    simp only [proceed] at h
    split at h
    · cases h
      exact .fail who id name _ _ hc (by simp)
    · cases h
      exact .fail who id name _ _ hc (by simp)
    · cases h
      exact .spawn who id name _ hc ‹_›
  | listing id name =>
    cases h
    exact .list who id name _ hc
  | removing id =>
    simp only [proceed] at h
    split at h <;> cases h
    · exact .remove who id hc (List.contains_iff_mem.mp ‹_›)
    · exact .unknown who id _ hc fun hid => ‹¬_› (List.contains_iff_mem.mpr hid)
  | cancelling id =>
    cases h
    exact .cancel who id hc
  | joining id =>
    obtain ⟨x, hx, hm⟩ := Option.map_eq_some_iff.mp h
    obtain ⟨w, v, hw, hv, rfl⟩ := joinWorker_eq_some hx
    cases hresult : v.result w.name with
    | ok =>
      rw [hresult] at hm
      subst hm
      exact .join who id w v _ hc hw hv hresult
    | error e =>
      rw [hresult] at hm
      subst hm
      exact .joinFailed who id w v e hc hw hv hresult
  | taking dropping =>
    simp only [proceed] at h
    split at h <;> cases h
    · rename_i hempty
      have hnone : m.table = [] := List.isEmpty_iff.mp hempty
      have hm : ({ m with table := [] } : Manager) = m := by rw [← hnone]
      rw [hm, hnone]
      exact .takeNone who dropping hc hnone
    · exact .takeAll who dropping hc
  | cancellingAll batch todo dropping =>
    cases todo with
    | nil =>
      cases h
      exact .cancelledAll who batch dropping hc
    | cons id rest =>
      cases h
      exact .cancelNext who batch id rest dropping hc
  | joiningAll batch todo failure dropping =>
    cases todo with
    | nil =>
      cases h
      exact .joinedAll who batch failure dropping _ hc
    | cons id rest =>
      obtain ⟨x, hx, hm⟩ := Option.map_eq_some_iff.mp h
      obtain ⟨w, v, hw, hv, rfl⟩ := joinWorker_eq_some hx
      cases hresult : v.result w.name with
      | ok =>
        rw [hresult] at hm
        subst hm
        exact .joinNext who batch id rest failure dropping w v hc hw hv hresult
      | error e =>
        rw [hresult] at hm
        subst hm
        exact .joinNextFailed who batch id rest failure dropping w v e _ hc hw hv hresult

/-- A step that can be taken is one of the turns. -/
lemma turn_of_step (h : m.step a = some m') : m.Turn a m' := by
  cases a with
  | begin who op =>
    simp only [step, begin] at h
    split at h
    · rename_i hopen hwho
      cases op with
      | start | stop | stopAll =>
        cases h
        exact .begin who _ hwho hopen (by simp)
      | drop =>
        simp only at h
        split at h <;> cases h
        exact .begin who .drop hwho hopen fun _ => ‹_›
    · cases h
  | proceed who =>
    obtain ⟨c, hc, hproceed⟩ := Option.bind_eq_some_iff.mp h
    exact turn_of_proceed hc hproceed
  | finish id v =>
    simp only [step] at h
    split at h <;> cases h
    exact .finish id v _ ‹_› rfl
  | look id =>
    simp only [step] at h
    split at h
    · split at h <;> cases h
      exact .look id _
    · cases h
  | cancelSelf id =>
    simp only [step] at h
    split at h <;> cases h
    exact .cancelSelf id

/-! ### Runs -/

/-- What holds in the beginning and is kept by every turn holds after every run. -/
lemma run_induction {P : Manager → Prop} {as : List ManagerAction} (hbegin : P m)
    (hturn : ∀ a ∈ as, ∀ u u', P u → u.Turn a u' → P u') (h : m.run as = some m') : P m' := by
  induction as generalizing m with
  | nil =>
    cases h
    exact hbegin
  | cons a as ih =>
    obtain ⟨u, hstep, hrun⟩ := Option.bind_eq_some_iff.mp h
    have hu : P u := hturn a List.mem_cons_self m u hbegin (turn_of_step hstep)
    exact ih hu (fun b hb => hturn b (List.mem_cons_of_mem _ hb)) hrun

end Manager

end Overseer
