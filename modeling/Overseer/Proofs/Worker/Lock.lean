import Overseer.Proofs.Runs
import Overseer.Proofs.Worker.Batches
import Overseer.Worker.Workshop

/-!
# The lock of the table

The lock is with the client that stands where it is held, so that a client that is back from its
call has given it back, however the call ended. What a client joins is a worker that nobody has
joined before, and no worker is listed in the place of another one.
-/

namespace Overseer

/-- Whether the client holds the lock. -/
def ClientAt.holdsLock : ClientAt → Bool
  | spawning .. | listing .. | removing _ | taking _ => true
  | _ => false

lemma ClientAt.not_wantsLock_of_holdsLock {c : ClientAt} (h : c.holdsLock = true) :
    c.wantsLock = false := by
  cases c with
  | spawning | listing | removing | taking => rfl
  | _ => cases h

namespace Manager

variable {m m' : Manager} {a : ManagerAction} {id : TaskId}

@[simp] lemma finishAll_holder (who : Nat) (r : Except WorkerFailure Unit) (dropping : Bool) :
    (m.finishAll who r dropping).holder = m.holder := by
  unfold finishAll
  split
  · cases r <;> rfl
  · rfl

/-! ### Who holds the lock -/

/-- The lock is with the client that stands where it is held. -/
def Locked (m : Manager) : Prop :=
  ∀ who, m.holder = some who ↔ (m.standing who).holdsLock = true

/-- A client goes on. It gets the lock where nobody has it, keeps it or gives it back. -/
lemma Locked.move (h : m.Locked) {who : Nat} {c c' : ClientAt} (hc : m.clients[who]? = some c)
    (hclients : m'.clients = m.clients.set who c')
    (hfree : c'.holdsLock = true → c.holdsLock = true ∨ m.holder = none)
    (hholder : m'.holder =
      if c'.holdsLock then some who else if c.holdsLock then none else m.holder) : m'.Locked := by
  have hwho := h who
  rw [standing_of_getElem? hc] at hwho
  intro i
  have hi := h i
  rw [standing_place hc hclients, hholder]
  by_cases heq : i = who
  · subst heq
    rw [if_pos rfl]
    cases hin' : c'.holdsLock with
    | true => simp
    | false =>
      cases hin : c.holdsLock with
      | true => simp
      | false => simpa [hin] using hwho
  · rw [if_neg heq]
    cases hin' : c'.holdsLock with
    | true =>
      have hother : m.holder ≠ some i := by
        rcases hfree hin' with hin | hnone
        · rw [hwho.mpr hin]
          simpa using Ne.symm heq
        · simp [hnone]
      simpa [Ne.symm heq] using fun hstands => hother (hi.mpr hstands)
    | false =>
      cases hin : c.holdsLock with
      | true =>
        have hother : m.holder ≠ some i := by
          rw [hwho.mpr hin]
          simpa using Ne.symm heq
        simpa using fun hstands => hother (hi.mpr hstands)
      | false => simpa using hi

lemma Locked.keep (h : m.Locked) (hclients : m'.clients = m.clients)
    (hholder : m'.holder = m.holder) : m'.Locked := by
  intro who
  rw [hholder, standing, hclients]
  exact h who

/-- Every turn leaves the lock with who stands where it is held. -/
lemma Turn.locked (t : m.Turn a m') (h : m.Locked) : m'.Locked := by
  cases t with
  | begin who op hc => cases op <;> exact h.move hc rfl nofun rfl
  | lock who c c' hc hadmitted hfree =>
    cases c <;> cases hadmitted <;> exact h.move hc rfl (fun _ => .inr hfree) rfl
  | spawn _ _ _ _ hc =>
    refine h.move hc rfl (fun _ => .inl rfl) ?_
    exact (h _).mpr (by rw [standing_of_getElem? hc]; rfl)
  | takeNone who dropping hc => exact h.move hc (finishAll_clients ..) nofun (finishAll_holder ..)
  | joinedAll who batch failure dropping r hc =>
    exact h.move hc (finishAll_clients ..) nofun (finishAll_holder ..)
  | finish | look | cancelSelf => exact h.keep rfl rfl
  | draw _ _ _ hc | fail _ _ _ _ _ hc | list _ _ _ _ hc | remove _ _ hc | unknown _ _ _ hc
  | cancel _ _ hc | join _ _ _ _ _ hc | joinFailed _ _ _ _ _ hc | takeAll _ _ hc
  | cancelNext _ _ _ _ _ hc | cancelledAll _ _ _ hc | joinNext _ _ _ _ _ _ _ _ hc
  | joinNextFailed _ _ _ _ _ _ _ _ _ _ hc =>
    exact h.move hc rfl nofun rfl

lemma locked_start (n : Nat) : (start n).Locked := by
  intro who
  rw [standing_start]
  exact ⟨nofun, nofun⟩

/-- The lock is taken by a client that wants it. -/
lemma Turn.holder_eq_none (t : m.Turn a m') (hfree : m.holder = none)
    (ha : ∀ (who : Nat) (c : ClientAt), a = .proceed who → m.clients[who]? = some c →
      c.wantsLock = false) : m'.holder = none := by
  cases t with
  | lock who c c' hc hadmitted =>
    have hnot := ha who c rfl hc
    cases c <;> cases hadmitted <;> cases hnot
  | takeNone | joinedAll =>
    rw [finishAll_holder]
    first | rfl | exact hfree
  | fail | list | remove | unknown | takeAll => rfl
  | _ => exact hfree

/-- A step with the lock gives it back, unless a worker was spawned that is still to be listed. -/
lemma Turn.releases {who : Nat} (t : m.Turn (.proceed who) m')
    (h : (m.standing who).holdsLock = true) :
    m'.holder = none ∨ (∃ id name refusal, m.standing who = .spawning id name refusal) ∧
      ∃ id name, m'.standing who = .listing id name := by
  cases t with
  | spawn _ id name r hc =>
    right
    rw [standing_of_getElem? hc, standing_place hc rfl, if_pos rfl]
    exact ⟨⟨id, name, none, rfl⟩, id, name, rfl⟩
  | fail | list | remove | unknown | takeAll => exact .inl rfl
  | takeNone =>
    rw [finishAll_holder]
    exact .inl rfl
  | lock _ c _ hc hadmitted =>
    rw [standing_of_getElem? hc] at h
    cases c <;> cases hadmitted <;> cases h
  | draw _ _ _ hc | cancel _ _ hc | join _ _ _ _ _ hc | joinFailed _ _ _ _ _ hc
  | cancelNext _ _ _ _ _ hc | cancelledAll _ _ _ hc | joinNext _ _ _ _ _ _ _ _ hc
  | joinNextFailed _ _ _ _ _ _ _ _ _ _ hc | joinedAll _ _ _ _ _ hc =>
    rw [standing_of_getElem? hc] at h
    cases h

/-! ### Workers that run -/

lemma isRunning_iff : m.isRunning id = true ↔ ∃ w, m.worker? id = some w ∧ w.phase = .running := by
  unfold isRunning
  constructor
  · intro h
    split at h
    · exact ⟨_, ‹_›, rfl⟩
    · cases h
  · rintro ⟨w, hw, hrunning⟩
    rw [hw]
    obtain ⟨i, name, cancelled, phase⟩ := w
    cases hrunning
    rfl

lemma worker?_congr (h : m'.workers = m.workers) : m'.worker? id = m.worker? id := by
  rw [worker?, h, worker?]

lemma worker?_update {i : TaskId} {f : Worker → Worker} (hf : ∀ w, (f w).id = w.id) :
    (m.update i f).worker? id = (m.worker? id).map fun w => if w.id = i then f w else w := by
  have hkeep (w : Worker) : (if w.id = i then f w else w).id = w.id := by
    split
    · exact hf w
    · rfl
  simp only [worker?, update, List.find?_map, Function.comp_def, hkeep]

/-- The worker that was changed is found as the change has left it. -/
lemma worker?_update_self {f : Worker → Worker} (hf : ∀ w, (f w).id = w.id) {w : Worker}
    (hw : m.worker? id = some w) : (m.update id f).worker? id = some (f w) := by
  rw [worker?_update hf, hw, Option.map_some, if_pos (worker?_id hw)]

/-- A worker that runs does so after a change to a worker, if the change is not its end. -/
lemma isRunning_update {i : TaskId} {f : Worker → Worker} (hf : ∀ w, (f w).id = w.id)
    (h : m.isRunning id = true)
    (hkeep : i = id → ∀ w, m.worker? id = some w → w.phase = .running →
      (f w).phase = .running) : (m.update i f).isRunning id = true := by
  obtain ⟨w, hw, hrunning⟩ := isRunning_iff.mp h
  refine isRunning_iff.mpr ⟨_, by rw [worker?_update hf, hw]; rfl, ?_⟩
  have hid := worker?_id hw
  by_cases hi : w.id = i
  · simpa only [hi, if_true] using hkeep (hi.symm.trans hid) w hw hrunning
  · simpa only [hi, if_false] using hrunning

lemma isRunning_congr (h : m'.workers = m.workers) : m'.isRunning id = m.isRunning id := by
  rw [isRunning, worker?_congr h, isRunning]

/-- A worker whose body has ended does not run. -/
lemma not_isRunning_of_ended {w : Worker} {v : Verdict Unit} (hw : m.worker? id = some w)
    (hv : w.phase = .ended v) : m.isRunning id = false := by
  rw [← Bool.not_eq_true, isRunning_iff]
  rintro ⟨u, hu, hrunning⟩
  rw [hw] at hu
  cases hu
  rw [hv] at hrunning
  cases hrunning

lemma isRunning_takeIn (who : Nat) {i : TaskId} {w : Worker} {v : Verdict Unit}
    (hw : m.worker? i = some w) (hv : w.phase = .ended v) (h : m.isRunning id = true) :
    (m.takeIn who i v).isRunning id = true := by
  refine isRunning_update (m := m) (fun _ => rfl) h ?_
  rintro rfl
  rw [not_isRunning_of_ended hw hv] at h
  cases h

/-- A worker runs until its body ends. -/
lemma Turn.isRunning (t : m.Turn a m') (h : m.isRunning id = true)
    (ha : ∀ v, a ≠ .finish id v) : m'.isRunning id = true := by
  cases t with
  | spawn =>
    obtain ⟨w, hw, hrunning⟩ := isRunning_iff.mp h
    refine isRunning_iff.mpr ⟨w, ?_, hrunning⟩
    rw [worker?] at hw
    simp [worker?, hw]
  | cancel _ i | cancelNext _ _ i | cancelSelf i =>
    exact isRunning_update (m := m) (fun _ => rfl) h fun _ _ _ hrunning => hrunning
  | join who i _ _ _ _ hw hv | joinFailed who i _ _ _ _ hw hv
  | joinNext who _ i _ _ _ _ _ _ hw hv | joinNextFailed who _ i _ _ _ _ _ _ _ _ hw hv =>
    exact isRunning_takeIn (m := m) who hw hv h
  | finish i v w hw hv =>
    refine isRunning_update (m := m) (fun _ => rfl) h ?_
    rintro rfl
    exact absurd rfl (ha v)
  | takeNone | joinedAll =>
    rw [isRunning_congr (finishAll_workers ..)]
    exact h
  | _ => exact h

/-! ### Workers that are waited for -/

/-- A worker that is to be joined has not been joined. -/
lemma Books.unjoined_of_due (h : m.Books) {who : Nat} {c : ClientAt}
    (hc : m.clients[who]? = some c) (hid : id ∈ c.owes .join) :
    ∃ w, m.worker? id = some w ∧ w.isJoined = false := by
  have hunjoined : 0 < m.unjoined id := by
    have hdue : 0 < m.due .join id := due_pos.mpr ⟨who, c, hc, hid⟩
    have := (h.balanced id).unjoined
    omega
  obtain ⟨w, hw, hwid⟩ := List.countP_pos_iff.mp hunjoined
  rw [Bool.and_eq_true, decide_eq_true_iff, Bool.not_eq_true'] at hwid
  obtain ⟨u, hu⟩ : ∃ u, m.worker? id = some u :=
    Option.isSome_iff_exists.mp (List.find?_isSome.mpr ⟨w, hw, by simpa using hwid.1⟩)
  -- there is one worker with this number, so it is the one that is not joined
  have hone := h.named_le_one id
  rw [named, List.countP_eq_length_filter] at hone
  have hmem : w ∈ m.workers.filter (·.id = id) := by simp [hw, hwid.1]
  have humem : u ∈ m.workers.filter (·.id = id) := by
    simp [List.mem_of_find?_eq_some hu, worker?_id hu]
  obtain ⟨x, hx⟩ := List.length_eq_one_iff.mp
    (Nat.le_antisymm hone (List.length_pos_of_mem hmem))
  rw [hx, List.mem_singleton] at hmem humem
  subst hmem
  subst humem
  exact ⟨u, hu, hwid.2⟩

/-- No worker is listed in the place of another one. -/
lemma Books.displaced?_eq_none (h : m.Books) (who : Nat) : m.displaced? who = none := by
  unfold displaced?
  split
  · rename_i id name hc
    have hdue : 0 < m.due .list id := due_pos.mpr ⟨who, _, hc, List.mem_singleton_self id⟩
    have hone := h.named_le_one id
    obtain ⟨-, hnamed, hhanded, -, -, -, -⟩ := h.balanced id
    have hfresh : m.table.count id = 0 := by omega
    rw [if_neg]
    rw [List.contains_iff_mem, ← List.count_pos_iff]
    omega
  · rfl

/-! ### Clients that can go on -/

lemma joinWorker_of_ended (who : Nat) {w : Worker} (hw : m.worker? id = some w)
    (hjoined : w.isJoined = false) (hover : m.isRunning id = false) :
    ∃ x, m.joinWorker who id = some x := by
  obtain ⟨i, name, cancelled, phase⟩ := w
  cases phase with
  | running => simp [isRunning, hw] at hover
  | ended v => exact ⟨_, by rw [joinWorker, hw]⟩
  | joined v => cases hjoined

lemma isRunning_of_endAwaited {who : Nat} (hawaited : m.awaited? who = some id)
    (hend : m.endAwaited? who = none) : m.isRunning id = false := by
  rw [endAwaited?, hawaited] at hend
  simpa using hend

/-- A client that waits neither for the lock nor for the end of a worker can take its next step. -/
lemma Books.proceeds (h : m.Books) {who : Nat} {c : ClientAt} (hc : m.clients[who]? = some c)
    (hin : c ≠ .outside) (hfree : c.wantsLock = true → m.holder = none)
    (hend : m.endAwaited? who = none) : ∃ m', m.step (.proceed who) = some m' := by
  rw [step, hc, Option.bind_some]
  cases c with
  | outside => exact absurd rfl hin
  | drawing | listing | cancelling => exact ⟨_, rfl⟩
  | wantsStart | wantsStop | wantsAll => exact ⟨_, by simp [proceed, acquire, hfree rfl]; rfl⟩
  | spawning | removing | taking =>
    simp only [proceed]
    split <;> exact ⟨_, rfl⟩
  | cancellingAll batch todo dropping => cases todo <;> exact ⟨_, rfl⟩
  | joining id =>
    obtain ⟨w, hw, hjoined⟩ := h.unjoined_of_due hc (List.mem_singleton_self id)
    have hawaited : m.awaited? who = some id := by rw [awaited?, hc]
    obtain ⟨x, hx⟩ := joinWorker_of_ended who hw hjoined
      (isRunning_of_endAwaited hawaited hend)
    exact ⟨_, by rw [proceed, hx]; rfl⟩
  | joiningAll batch todo failure dropping =>
    cases todo with
    | nil => exact ⟨_, rfl⟩
    | cons id rest =>
      obtain ⟨w, hw, hjoined⟩ := h.unjoined_of_due hc List.mem_cons_self
      have hawaited : m.awaited? who = some id := by rw [awaited?, hc]
      obtain ⟨x, hx⟩ := joinWorker_of_ended who hw hjoined
        (isRunning_of_endAwaited hawaited hend)
      exact ⟨_, by rw [proceed, hx]; rfl⟩

end Manager

end Overseer
