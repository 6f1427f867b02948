import Overseer.Proofs.Worker.Books

/-!
# What a call does

The events of one client, in order, are the events of the calls it has finished and of the one it
is in. A call that stops workers takes them from the table, cancels each and joins each, and
answers; a call that fails to start one only draws a number.
-/

namespace Overseer

/-- Whether an event is an act of this client. -/
def ManagerEvent.isBy (who : Nat) : ManagerEvent → Bool
  | drew w _ | removed w _ | cancelled w _ | joined w _ => w = who
  | started w _ _ | stopped w _ _ | stoppedAll w _ | dropped w => w = who
  | _ => false

/-- The events of a finished call. -/
inductive IsCall (who : Nat) : List ManagerEvent → Prop where
  | started (id : TaskId) : IsCall who [.drew who id, .started who id (.ok id)]
  | failed (id : TaskId) (r : Started) (hr : ∀ i, r ≠ .ok i) :
      IsCall who [.drew who id, .started who id r]
  | unknown (id : TaskId) : IsCall who [.stopped who id (.ok false)]
  | stopped (id : TaskId) (r : Except WorkerFailure Bool) (hr : r ≠ .ok false) :
      IsCall who [.removed who [id], .cancelled who id, .joined who id, .stopped who id r]
  | stoppedAll (ids : List TaskId) (r : Except WorkerFailure Unit) :
      IsCall who (.removed who ids :: ids.map (.cancelled who) ++ ids.map (.joined who) ++
        [.stoppedAll who r])
  | dropped (ids : List TaskId) (r : Except WorkerFailure Unit) :
      IsCall who (.removed who ids :: ids.map (.cancelled who) ++ ids.map (.joined who) ++
        [.stoppedAll who r, .dropped who])

/-- The events so far of a call in which the client stands here. -/
inductive IsUnderway (who : Nat) : ClientAt → List ManagerEvent → Prop where
  | outside : IsUnderway who .outside []
  | drawing (name refusal) : IsUnderway who (.drawing name refusal) []
  | wantsStart (id name refusal) : IsUnderway who (.wantsStart id name refusal) [.drew who id]
  | spawning (id name refusal) : IsUnderway who (.spawning id name refusal) [.drew who id]
  | listing (id name) : IsUnderway who (.listing id name) [.drew who id]
  | wantsStop (id) : IsUnderway who (.wantsStop id) []
  | removing (id) : IsUnderway who (.removing id) []
  | cancelling (id) : IsUnderway who (.cancelling id) [.removed who [id]]
  | joining (id) : IsUnderway who (.joining id) [.removed who [id], .cancelled who id]
  | wantsAll (dropping) : IsUnderway who (.wantsAll dropping) []
  | taking (dropping) : IsUnderway who (.taking dropping) []
  | cancellingAll (done todo dropping) :
      IsUnderway who (.cancellingAll (done ++ todo) todo dropping)
        (.removed who (done ++ todo) :: done.map (.cancelled who))
  | joiningAll (done todo failure dropping) :
      IsUnderway who (.joiningAll (done ++ todo) todo failure dropping)
        (.removed who (done ++ todo) :: (done ++ todo).map (.cancelled who) ++
          done.map (.joined who))

namespace Manager

variable {m m' : Manager} {a : ManagerAction}

/-- Where a client stands. -/
def standing (m : Manager) (who : Nat) : ClientAt := (m.clients[who]?).getD .outside

/-- The acts of a client, in order. -/
def own (m : Manager) (who : Nat) : List ManagerEvent := (m.history.filter (·.isBy who)).reverse

/-- The acts of every client are calls, one after the other, and the beginning of one. -/
def Calls (m : Manager) : Prop :=
  ∀ who, ∃ (calls : List (List ManagerEvent)) (current : List ManagerEvent),
    (∀ call ∈ calls, IsCall who call) ∧ IsUnderway who (m.standing who) current ∧
      m.own who = calls.flatten ++ current

lemma standing_of_getElem? {who : Nat} {c : ClientAt} (h : m.clients[who]? = some c) :
    m.standing who = c := by
  rw [standing, h, Option.getD_some]

lemma standing_place {who : Nat} {c c' : ClientAt} (h : m.clients[who]? = some c)
    (hclients : m'.clients = m.clients.set who c') (i : Nat) :
    m'.standing i = if i = who then c' else m.standing i := by
  have hlt : who < m.clients.length := (List.getElem?_eq_some_iff.mp h).1
  rw [standing, hclients]
  split
  · subst i
    rw [List.getElem?_set_self hlt, Option.getD_some]
  · rw [List.getElem?_set_ne (Ne.symm ‹_›), standing]

lemma own_append {es : List ManagerEvent} (h : m'.history = es ++ m.history) (who : Nat) :
    m'.own who = m.own who ++ (es.filter (·.isBy who)).reverse := by
  rw [own, h, List.filter_append, List.reverse_append, own]

/-- A turn of a client goes on with its call or finishes it. -/
lemma Calls.move (h : m.Calls) {who : Nat} {c c' : ClientAt} (es : List ManagerEvent)
    (hc : m.clients[who]? = some c) (hclients : m'.clients = m.clients.set who c')
    (hhistory : m'.history = es ++ m.history)
    (hothers : ∀ i ≠ who, es.filter (·.isBy i) = [])
    (hmove : ∀ current, IsUnderway who c current →
      IsUnderway who c' (current ++ (es.filter (·.isBy who)).reverse) ∨
        c' = .outside ∧ IsCall who (current ++ (es.filter (·.isBy who)).reverse)) :
    m'.Calls := by
  intro i
  obtain ⟨calls, current, hcalls, hcurrent, hown⟩ := h i
  rw [standing_place hc hclients, own_append hhistory, hown]
  by_cases hi : i = who
  · subst hi
    rw [if_pos rfl]
    rw [standing_of_getElem? hc] at hcurrent
    rcases hmove current hcurrent with hnext | ⟨rfl, hcall⟩
    · exact ⟨calls, _, hcalls, hnext, List.append_assoc ..⟩
    · refine ⟨calls ++ [current ++ (es.filter (·.isBy i)).reverse], [], ?_, .outside, ?_⟩
      · exact List.forall_mem_append.mpr ⟨hcalls, List.forall_mem_singleton.mpr hcall⟩
      · rw [List.flatten_append, List.flatten_singleton, List.append_nil, List.append_assoc]
  · rw [if_neg hi, hothers i hi]
    exact ⟨calls, current, hcalls, hcurrent, List.append_nil _⟩

/-- A worker that acts is in no call. -/
lemma Calls.keep (h : m.Calls) (es : List ManagerEvent) (hclients : m'.clients = m.clients)
    (hhistory : m'.history = es ++ m.history) (hes : ∀ i, es.filter (·.isBy i) = []) :
    m'.Calls := by
  intro i
  rw [standing, hclients, own_append hhistory, hes i, List.reverse_nil, List.append_nil]
  exact h i

lemma closing_others (who : Nat) (r : Except WorkerFailure Unit) (dropping : Bool) {i : Nat}
    (hi : i ≠ who) : (closing who r dropping).filter (·.isBy i) = [] := by
  unfold closing
  split
  · cases r <;> simp [ManagerEvent.isBy, hi.symm]
  · simp [ManagerEvent.isBy, hi.symm]

/-- How a call that stops all workers ends. -/
lemma closing_own (who : Nat) (r : Except WorkerFailure Unit) (dropping : Bool) :
    ((closing who r dropping).filter (·.isBy who)).reverse =
      if dropping then [.stoppedAll who r, .dropped who] else [.stoppedAll who r] := by
  unfold closing
  split
  · cases r <;> simp [ManagerEvent.isBy]
  · simp [ManagerEvent.isBy]

/-- A call that has joined all it took comes back. -/
lemma isCall_closing (who : Nat) (ids : List TaskId) (r : Except WorkerFailure Unit)
    (dropping : Bool) :
    IsCall who (.removed who ids :: ids.map (.cancelled who) ++ ids.map (.joined who) ++
      ((closing who r dropping).filter (·.isBy who)).reverse) := by
  rw [closing_own]
  split
  · exact .dropped ids r
  · exact .stoppedAll ids r

/-- Every turn keeps to the calls. -/
lemma Turn.calls (t : m.Turn a m') (h : m.Calls) : m'.Calls := by
  cases t with
  | begin who op hc =>
    refine h.move [] hc rfl rfl (fun _ _ => rfl) fun current hcurrent => .inl ?_
    cases hcurrent
    cases op <;> constructor
  | draw who name refusal hc =>
    refine h.move [.drew who m.nextId] hc rfl rfl (fun i hi => ?_) fun current hcurrent => .inl ?_
    · simp [ManagerEvent.isBy, hi.symm]
    · cases hcurrent
      simp [ManagerEvent.isBy]
      constructor
  | lock who c c' hc hadmitted =>
    refine h.move [] hc rfl rfl (fun _ _ => rfl) fun current hcurrent => .inl ?_
    cases hcurrent <;> cases hadmitted <;> constructor
  | fail who id name refusal result hc hresult =>
    refine h.move [.started who id result] hc rfl rfl (fun i hi => ?_)
      fun current hcurrent => .inr ⟨rfl, ?_⟩
    · simp [ManagerEvent.isBy, hi.symm]
    · cases hcurrent
      simpa [ManagerEvent.isBy] using IsCall.failed id result hresult
  | spawn who id name r hc =>
    refine h.move [.logged r] hc rfl rfl (fun _ _ => rfl) fun current hcurrent => .inl ?_
    cases hcurrent
    exact .listing id name
  | list who id name r hc =>
    refine h.move [.started who id (.ok id), .logged r, .listed id] hc rfl rfl (fun i hi => ?_)
      fun current hcurrent => .inr ⟨rfl, ?_⟩
    · simp [ManagerEvent.isBy, hi.symm]
    · cases hcurrent
      simpa [ManagerEvent.isBy] using IsCall.started id
  | remove who id hc hid =>
    refine h.move [.removed who [id]] hc rfl rfl (fun i hi => ?_) fun current hcurrent => .inl ?_
    · simp [ManagerEvent.isBy, hi.symm]
    · cases hcurrent
      simpa [ManagerEvent.isBy] using IsUnderway.cancelling id
  | unknown who id r hc hid =>
    refine h.move [.stopped who id (.ok false), .logged r] hc rfl rfl (fun i hi => ?_)
      fun current hcurrent => .inr ⟨rfl, ?_⟩
    · simp [ManagerEvent.isBy, hi.symm]
    · cases hcurrent
      simpa [ManagerEvent.isBy] using IsCall.unknown id
  | cancel who id hc =>
    refine h.move [.cancelled who id] hc rfl rfl (fun i hi => ?_) fun current hcurrent => .inl ?_
    · simp [ManagerEvent.isBy, hi.symm]
    · cases hcurrent
      simpa [ManagerEvent.isBy] using IsUnderway.joining id
  | join who id w v r hc hw hv =>
    refine h.move [.stopped who id (.ok true), .logged r, .joined who id] hc rfl rfl
      (fun i hi => ?_) fun current hcurrent => .inr ⟨rfl, ?_⟩
    · simp [ManagerEvent.isBy, hi.symm]
    · cases hcurrent
      simpa [ManagerEvent.isBy] using IsCall.stopped id (.ok true) (by simp)
  | joinFailed who id w v e hc hw hv =>
    refine h.move [.stopped who id (.error e), .joined who id] hc rfl rfl
      (fun i hi => ?_) fun current hcurrent => .inr ⟨rfl, ?_⟩
    · simp [ManagerEvent.isBy, hi.symm]
    · cases hcurrent
      simpa [ManagerEvent.isBy] using IsCall.stopped id (.error e) (by simp)
  | takeNone who dropping hc hnone =>
    refine h.move _ hc (finishAll_clients ..) (finishAll_history_cons who (.ok ()) dropping rfl)
      (fun i hi => ?_) fun current hcurrent => .inr ⟨rfl, ?_⟩
    · rw [List.filter_append, closing_others who _ _ hi]
      simp [ManagerEvent.isBy, hi.symm]
    · cases hcurrent
      simpa [ManagerEvent.isBy] using isCall_closing who [] (.ok ()) dropping
  | takeAll who dropping hc =>
    refine h.move [.removed who m.table] hc rfl rfl (fun i hi => ?_) fun current hcurrent => .inl ?_
    · simp [ManagerEvent.isBy, hi.symm]
    · cases hcurrent
      simpa [ManagerEvent.isBy] using IsUnderway.cancellingAll [] m.table dropping
  | cancelNext who batch id rest dropping hc =>
    refine h.move [.cancelled who id] hc rfl rfl (fun i hi => ?_) fun current hcurrent => .inl ?_
    · simp [ManagerEvent.isBy, hi.symm]
    · cases hcurrent with
      | cancellingAll done =>
        simpa [ManagerEvent.isBy] using IsUnderway.cancellingAll (done ++ [id]) rest dropping
  | cancelledAll who batch dropping hc =>
    refine h.move [] hc rfl rfl (fun _ _ => rfl) fun current hcurrent => .inl ?_
    cases hcurrent with
    | cancellingAll done =>
      simpa using IsUnderway.joiningAll [] done none dropping
  | joinNext who batch id rest failure dropping w v hc hw hv =>
    refine h.move [.joined who id] hc rfl rfl (fun i hi => ?_) fun current hcurrent => .inl ?_
    · simp [ManagerEvent.isBy, hi.symm]
    · cases hcurrent with
      | joiningAll done =>
        simpa [ManagerEvent.isBy] using IsUnderway.joiningAll (done ++ [id]) rest failure dropping
  | joinNextFailed who batch id rest failure dropping w v e r hc hw hv =>
    refine h.move [.logged r, .joined who id] hc rfl rfl (fun i hi => ?_)
      fun current hcurrent => .inl ?_
    · simp [ManagerEvent.isBy, hi.symm]
    · cases hcurrent with
      | joiningAll done =>
        simpa [ManagerEvent.isBy] using
          IsUnderway.joiningAll (done ++ [id]) rest (failure <|> some e) dropping
  | joinedAll who batch failure dropping r hc =>
    refine h.move _ hc (finishAll_clients ..)
      (finishAll_history_cons who (batchResult failure) dropping rfl)
      (fun i hi => ?_) fun current hcurrent => .inr ⟨rfl, ?_⟩
    · rw [List.filter_append, closing_others who _ _ hi]
      simp [ManagerEvent.isBy]
    · cases hcurrent with
      | joiningAll done =>
        simpa [ManagerEvent.isBy] using isCall_closing who done (batchResult failure) dropping
  | finish id v w hw hv => exact h.keep [.workerEnded id v] rfl rfl fun _ => rfl
  | look id view => exact h.keep [.looked view] rfl rfl fun _ => rfl
  | cancelSelf id => exact h.keep [] rfl rfl fun _ => rfl

lemma standing_start (n who : Nat) : (start n).standing who = .outside := by
  rw [standing, start, List.getElem?_replicate]
  split <;> rfl

lemma calls_start (n : Nat) : (start n).Calls := by
  intro who
  refine ⟨[], [], by simp, ?_, rfl⟩
  rw [standing_start]
  exact .outside

theorem calls_of_run {n : Nat} {as : List ManagerAction} (h : (start n).run as = some m) :
    m.Calls :=
  run_induction (calls_start n) (fun _ _ _ _ hcalls t => t.calls hcalls) h

end Manager

end Overseer
