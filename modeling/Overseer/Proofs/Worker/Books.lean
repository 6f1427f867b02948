import Overseer.Proofs.Worker.Turns

/-!
# Books on workers

Every number that is drawn becomes a worker or is lost, and every worker is in one place: with the
client that lists it, in the table, with the client that stops it, or joined. Seven balances say so
for one number, and every turn keeps them. That no number is drawn twice makes each of these things
happen at most once.
-/

namespace Overseer

/-- What is done about a number, once and for all. -/
inductive Deed where
  | drawn
  /-- A start gave the number to its caller. -/
  | handedOut
  /-- A start that drew the number failed. -/
  | lost
  | removed
  | cancelled
  | joined
  /-- A stop of this one worker answered that it stopped it, or how it had failed. -/
  | answered
deriving DecidableEq

/-- The numbers that an event is such a deed about. -/
def ManagerEvent.about : ManagerEvent → Deed → List TaskId
  | drew _ id, .drawn => [id]
  | started _ _ (.ok id), .handedOut => [id]
  | started _ id (.refused _), .lost => [id]
  | started _ id (.panicked _), .lost => [id]
  | removed _ ids, .removed => ids
  | cancelled _ id, .cancelled => [id]
  | joined _ id, .joined => [id]
  | stopped _ id (.ok true), .answered => [id]
  | stopped _ id (.error _), .answered => [id]
  | _, _ => []

/-- What a client in the middle of a call has still to do. -/
inductive Duty where
  /-- It has drawn a number for which there is no worker yet. -/
  | begin
  | list
  | cancel
  | join
deriving DecidableEq

/-- The numbers that a client has this duty about. -/
def ClientAt.owes : ClientAt → Duty → List TaskId
  | wantsStart id _ _, .begin => [id]
  | spawning id _ _, .begin => [id]
  | listing id _, .list => [id]
  | cancelling id, .cancel => [id]
  | cancelling id, .join => [id]
  | joining id, .join => [id]
  | cancellingAll _ todo _, .cancel => todo
  | cancellingAll batch _ _, .join => batch
  | joiningAll _ todo _ _, .join => todo
  | _, _ => []

def Worker.isJoined (w : Worker) : Bool :=
  match w.phase with
  | .joined _ => true
  | _ => false

namespace Manager

variable {m m' : Manager} {a : ManagerAction} {id : TaskId}

/-- The numbers that were drawn, in order. -/
def drawn (m : Manager) : List TaskId := (m.history.flatMap (·.about .drawn)).reverse

/-- How often this was done about a number. -/
def done (m : Manager) (d : Deed) (id : TaskId) : Nat := (m.history.flatMap (·.about d)).count id

/-- How often this is still to be done about a number. -/
def due (m : Manager) (d : Duty) (id : TaskId) : Nat := (m.clients.flatMap (·.owes d)).count id

/-- How many workers have a number. -/
def named (m : Manager) (id : TaskId) : Nat := m.workers.countP (·.id = id)

/-- How many workers with a number have not been joined. -/
def unjoined (m : Manager) (id : TaskId) : Nat :=
  m.workers.countP fun w => w.id = id && !w.isJoined

/-- What is known of one number. -/
structure Balanced (m : Manager) (id : TaskId) : Prop where
  drawn : m.done .drawn id = m.due .begin id + m.named id + m.done .lost id
  named : m.named id = m.due .list id + m.done .handedOut id
  handedOut : m.done .handedOut id = m.table.count id + m.done .removed id
  cancelled : m.done .removed id = m.due .cancel id + m.done .cancelled id
  joined : m.done .removed id = m.due .join id + m.done .joined id
  unjoined : m.unjoined id = m.due .list id + m.table.count id + m.due .join id
  answered : m.done .answered id ≤ m.done .joined id

/-- The books of a manager: no number is drawn twice, and every number is in balance. -/
structure Books (m : Manager) : Prop where
  drawn : m.drawn = List.range m.nextId
  balanced : ∀ id, m.Balanced id

/-! ### Duties -/

lemma count_flatMap_set {l : List ClientAt} {i : Nat} {c : ClientAt} (h : l[i]? = some c)
    (c' : ClientAt) (d : Duty) (id : TaskId) :
    ((l.set i c').flatMap (·.owes d)).count id + (c.owes d).count id =
      (l.flatMap (·.owes d)).count id + (c'.owes d).count id := by
  induction l generalizing i with
  | nil => cases h
  | cons x l ih =>
    cases i with
    | zero =>
      cases h
      simp only [List.set_cons_zero, List.flatMap_cons, List.count_append]
      omega
    | succ i =>
      have hset := ih h
      simp only [List.set_cons_succ, List.flatMap_cons, List.count_append]
      omega

/-- A client that moves on takes its duties along. -/
lemma due_place {who : Nat} {c : ClientAt} (h : m.clients[who]? = some c) {c' : ClientAt}
    (hclients : m'.clients = m.clients.set who c') (d : Duty) (id : TaskId) :
    m'.due d id + (c.owes d).count id = m.due d id + (c'.owes d).count id := by
  rw [due, hclients]
  exact count_flatMap_set h c' d id

/-- What is due is the duty of some client. -/
lemma due_pos {d : Duty} :
    0 < m.due d id ↔ ∃ (who : Nat) (c : ClientAt), m.clients[who]? = some c ∧ id ∈ c.owes d := by
  rw [due, List.count_pos_iff, List.mem_flatMap]
  constructor
  · rintro ⟨c, hc, hid⟩
    obtain ⟨who, hwho⟩ := List.mem_iff_getElem?.mp hc
    exact ⟨who, c, hwho, hid⟩
  · rintro ⟨who, c, hwho, hid⟩
    exact ⟨c, List.mem_of_getElem? hwho, hid⟩

lemma done_append {es : List ManagerEvent} (h : m'.history = es ++ m.history) (d : Deed)
    (id : TaskId) : m'.done d id = (es.flatMap (·.about d)).count id + m.done d id := by
  rw [done, h, List.flatMap_append, List.count_append, done]

/-! ### Changes to a worker -/

lemma countP_map_of_find? {l : List Worker} {w : Worker} (f : Worker → Worker)
    (hw : l.find? (·.id = id) = some w) (hone : l.countP (·.id = id) ≤ 1) (p : Worker → Bool) :
    (l.map fun w => if w.id = id then f w else w).countP p + (if p w then 1 else 0) =
      l.countP p + (if p (f w) then 1 else 0) := by
  induction l with
  | nil => cases hw
  | cons x l ih =>
    by_cases hx : x.id = id
    · rw [List.find?_cons_of_pos (by simpa using hx)] at hw
      obtain rfl := Option.some.inj hw
      rw [List.countP_cons_of_pos (by simpa using hx)] at hone
      have hnone : ∀ w ∈ l, w.id ≠ id := by
        have hzero : l.countP (·.id = id) = 0 := by omega
        intro w hw
        simpa using List.countP_eq_zero.mp hzero w hw
      have hrest : (l.map fun w => if w.id = id then f w else w) = l := by
        conv_rhs => rw [← List.map_id l]
        exact List.map_congr_left fun w hw => if_neg (hnone w hw)
      rw [List.map_cons, if_pos hx, hrest, List.countP_cons, List.countP_cons]
      omega
    · rw [List.find?_cons_of_neg (by simpa using hx)] at hw
      rw [List.countP_cons_of_neg (by simpa using hx)] at hone
      have hrest := ih hw hone
      rw [List.map_cons, if_neg hx, List.countP_cons, List.countP_cons]
      omega

/-- The one worker with a number is changed, and no other. -/
lemma countP_update {w : Worker} (f : Worker → Worker) (hw : m.worker? id = some w)
    (hone : m.named id ≤ 1) (p : Worker → Bool) :
    (m.update id f).workers.countP p + (if p w then 1 else 0) =
      m.workers.countP p + (if p (f w) then 1 else 0) :=
  countP_map_of_find? f hw hone p

/-- A change that a count does not see. -/
lemma countP_update_of_eq {f : Worker → Worker} {p : Worker → Bool} (h : ∀ w, p (f w) = p w) :
    (m.update id f).workers.countP p = m.workers.countP p := by
  rw [update, List.countP_map]
  refine List.countP_congr fun w _ => ?_
  by_cases hid : w.id = id
  · simp [hid, h]
  · simp [hid]

lemma worker?_id {w : Worker} (hw : m.worker? id = some w) : w.id = id := by
  simpa using List.find?_some hw

lemma named_cancel {who : Nat} (i : TaskId) : (m.cancel who id).named i = m.named i :=
  countP_update_of_eq fun _ => rfl

lemma unjoined_cancel {who : Nat} (i : TaskId) : (m.cancel who id).unjoined i = m.unjoined i :=
  countP_update_of_eq fun _ => rfl

lemma named_takeIn {who : Nat} {v : Verdict Unit} (i : TaskId) :
    (m.takeIn who id v).named i = m.named i :=
  countP_update_of_eq fun _ => rfl

/-- Joining a worker takes it from those that are not joined. -/
lemma unjoined_takeIn (who : Nat) {v : Verdict Unit} {w : Worker} (hw : m.worker? id = some w)
    (hv : w.phase = .ended v) (hone : m.named id ≤ 1) (i : TaskId) :
    (m.takeIn who id v).unjoined i + [id].count i = m.unjoined i := by
  have hcount := countP_update (fun w => { w with phase := .joined v }) hw hone
    fun w => w.id = i && !w.isJoined
  have hid := worker?_id hw
  by_cases hi : id = i
  · simpa [Worker.isJoined, hv, hid, hi, unjoined, takeIn, record] using hcount
  · simpa [Worker.isJoined, hid, hi, unjoined, takeIn, record] using hcount

/-! ### The table -/

lemma count_insertTask {l : List TaskId} (h : l.count id = 0) (i : TaskId) :
    (insertTask id l).count i = l.count i + [id].count i := by
  induction l with
  | nil => simp [insertTask]
  | cons x l ih =>
    have hx : id ≠ x := by
      rintro rfl
      simp at h
    have hl : l.count id = 0 := by
      rw [List.count_cons] at h
      omega
    rw [insertTask, if_neg hx]
    split
    · rw [List.count_cons, List.count_singleton]
    · have hrest := ih hl
      simp only [List.count_cons] at hrest ⊢
      omega

/-! ### The end of a call that stops all workers -/

section FinishAll

variable (who : Nat) (r : Except WorkerFailure Unit) (dropping : Bool)

@[simp] lemma finishAll_clients :
    (m.finishAll who r dropping).clients = m.clients.set who .outside := by
  unfold finishAll
  split
  · cases r <;> rfl
  · rfl

@[simp] lemma finishAll_table : (m.finishAll who r dropping).table = m.table := by
  unfold finishAll
  split
  · cases r <;> rfl
  · rfl

@[simp] lemma finishAll_workers : (m.finishAll who r dropping).workers = m.workers := by
  unfold finishAll
  split
  · cases r <;> rfl
  · rfl

@[simp] lemma finishAll_nextId : (m.finishAll who r dropping).nextId = m.nextId := by
  unfold finishAll
  split
  · cases r <;> rfl
  · rfl

/-- What the end of such a call adds to the history. -/
def closing (who : Nat) (r : Except WorkerFailure Unit) (dropping : Bool) : List ManagerEvent :=
  if dropping then
    match r with
    | .error e => [.dropped who, .logged ⟨.error, .manager,
        "Worker shutdown on drop reported: " ++ e.message⟩, .stoppedAll who r]
    | .ok _ => [.dropped who, .stoppedAll who r]
  else [.stoppedAll who r]

lemma finishAll_history :
    (m.finishAll who r dropping).history = closing who r dropping ++ m.history := by
  unfold finishAll closing
  split
  · cases r <;> rfl
  · rfl

lemma finishAll_history_cons {u : Manager} {e : ManagerEvent} (h : m.history = e :: u.history) :
    (m.finishAll who r dropping).history = (closing who r dropping ++ [e]) ++ u.history := by
  rw [finishAll_history, h, List.append_assoc, List.singleton_append]

lemma closing_about (d : Deed) : (closing who r dropping).flatMap (·.about d) = [] := by
  unfold closing
  split
  · cases r <;> cases d <;> rfl
  · cases d <;> rfl

lemma closing_about_append (e : ManagerEvent) (he : ∀ d, e.about d = []) (d : Deed) :
    (closing who r dropping ++ [e]).flatMap (·.about d) = [] := by
  rw [List.flatMap_append, closing_about, List.nil_append, List.flatMap_singleton, he]

end FinishAll

/-! ### Turns keep the books -/

section Fields

variable (who : Nat) (c : ClientAt) (e : ManagerEvent)

@[simp] lemma place_table : (m.place who c).table = m.table := rfl

@[simp] lemma place_workers : (m.place who c).workers = m.workers := rfl

@[simp] lemma place_named : (m.place who c).named = m.named := rfl

@[simp] lemma place_unjoined : (m.place who c).unjoined = m.unjoined := rfl

@[simp] lemma record_table : (m.record e).table = m.table := rfl

@[simp] lemma record_workers : (m.record e).workers = m.workers := rfl

@[simp] lemma record_named : (m.record e).named = m.named := rfl

@[simp] lemma record_unjoined : (m.record e).unjoined = m.unjoined := rfl

@[simp] lemma release_table : m.release.table = m.table := rfl

@[simp] lemma release_workers : m.release.workers = m.workers := rfl

@[simp] lemma release_named : m.release.named = m.named := rfl

@[simp] lemma release_unjoined : m.release.unjoined = m.unjoined := rfl

@[simp] lemma cancel_table : (m.cancel who id).table = m.table := rfl

@[simp] lemma takeIn_table (v : Verdict Unit) : (m.takeIn who id v).table = m.table := rfl

end Fields

/-- What a client does about a number when it moves on from `c` to `c'` is what it was to do. -/
structure Accounts (m m' : Manager) (c c' : ClientAt) (es : List ManagerEvent) (id : TaskId) :
    Prop where
  drawn : (es.flatMap (·.about .drawn)).count id + (c.owes .begin).count id + m.named id =
    (c'.owes .begin).count id + m'.named id + (es.flatMap (·.about .lost)).count id
  named : m'.named id + (c.owes .list).count id =
    m.named id + (c'.owes .list).count id + (es.flatMap (·.about .handedOut)).count id
  handedOut : (es.flatMap (·.about .handedOut)).count id + m.table.count id =
    m'.table.count id + (es.flatMap (·.about .removed)).count id
  cancelled : (es.flatMap (·.about .removed)).count id + (c.owes .cancel).count id =
    (c'.owes .cancel).count id + (es.flatMap (·.about .cancelled)).count id
  joined : (es.flatMap (·.about .removed)).count id + (c.owes .join).count id =
    (c'.owes .join).count id + (es.flatMap (·.about .joined)).count id
  unjoined : m'.unjoined id + (c.owes .list).count id + m.table.count id +
    (c.owes .join).count id = m.unjoined id + (c'.owes .list).count id + m'.table.count id +
    (c'.owes .join).count id
  answered : (es.flatMap (·.about .answered)).count id ≤
    (es.flatMap (·.about .joined)).count id

lemma Balanced.move (h : m.Balanced id) {who : Nat} {c c' : ClientAt} (es : List ManagerEvent)
    (hc : m.clients[who]? = some c) (hclients : m'.clients = m.clients.set who c')
    (hhistory : m'.history = es ++ m.history) (hmove : m.Accounts m' c c' es id) :
    m'.Balanced id := by
  have hdone (d : Deed) := done_append hhistory d id
  have hdue (d : Duty) := due_place hc hclients d id
  obtain ⟨h₁, h₂, h₃, h₄, h₅, h₆, h₇⟩ := h
  obtain ⟨k₁, k₂, k₃, k₄, k₅, k₆, k₇⟩ := hmove
  constructor
  · have := hdone .drawn; have := hdone .lost; have := hdue .begin
    omega
  · have := hdone .handedOut; have := hdue .list
    omega
  · have := hdone .handedOut; have := hdone .removed
    omega
  · have := hdone .removed; have := hdone .cancelled; have := hdue .cancel
    omega
  · have := hdone .removed; have := hdone .joined; have := hdue .join
    omega
  · have := hdue .list; have := hdue .join
    omega
  · have := hdone .answered; have := hdone .joined
    omega

/-- A worker that acts leaves every number where it is. -/
lemma Balanced.keep (h : m.Balanced id) (es : List ManagerEvent)
    (hclients : m'.clients = m.clients) (hhistory : m'.history = es ++ m.history)
    (habout : ∀ d, es.flatMap (·.about d) = []) (htable : m'.table = m.table)
    (hnamed : m'.named id = m.named id) (hunjoined : m'.unjoined id = m.unjoined id) :
    m'.Balanced id := by
  have hdone (d : Deed) : m'.done d id = m.done d id := by
    rw [done_append hhistory, habout, List.count_nil, Nat.zero_add]
  have hdue (d : Duty) : m'.due d id = m.due d id := by rw [due, hclients, due]
  constructor <;> simp only [hdone, hdue, htable, hnamed, hunjoined]
  exacts [h.drawn, h.named, h.handedOut, h.cancelled, h.joined, h.unjoined, h.answered]

/-- Where no number is drawn twice, every turn keeps every number in balance. -/
lemma Turn.balanced (t : m.Turn a m') (hone : ∀ id, m.named id ≤ 1) (h : ∀ id, m.Balanced id)
    (i : TaskId) : m'.Balanced i := by
  cases t with
  | begin who op hc =>
    refine (h i).move [] hc rfl rfl ?_
    cases op <;> constructor <;> simp [ClientOp.entry, ClientAt.owes]
  | draw who name refusal hc =>
    refine (h i).move [.drew who m.nextId] hc rfl rfl ?_
    constructor <;> simp [ManagerEvent.about, ClientAt.owes, named, unjoined]
  | lock who c c' hc hadmitted =>
    refine (h i).move [] hc rfl rfl ?_
    cases c <;> cases hadmitted <;> constructor <;> simp [ClientAt.owes, named, unjoined]
  | fail who id name refusal result hc hresult =>
    refine (h i).move [.started who id result] hc rfl rfl ?_
    cases result with
    | ok i => exact absurd rfl (hresult i)
    | refused | panicked =>
      constructor <;> simp [ManagerEvent.about, ClientAt.owes]
      omega
  | spawn who id name r hc =>
    refine (h i).move [.logged r] hc rfl rfl ?_
    constructor <;> simp [ManagerEvent.about, ClientAt.owes, named, unjoined, Worker.isJoined,
      List.count_singleton]
    omega
  | list who id name r hc =>
    -- the worker is still to be listed and is the only one with its number
    have hfresh : m.table.count id = 0 := by
      have hdue : 0 < m.due .list id := due_pos.mpr ⟨who, _, hc, List.mem_singleton_self id⟩
      have := hone id
      obtain ⟨-, hnamed, hhanded, -, -, -, -⟩ := h id
      omega
    refine (h i).move [.started who id (.ok id), .logged r, .listed id] hc rfl rfl ?_
    constructor <;>
      simp [ManagerEvent.about, ClientAt.owes, named, unjoined, count_insertTask hfresh]
    all_goals omega
  | remove who id hc hid =>
    have hcount : (m.table.erase id).count i + [id].count i = m.table.count i := by
      have hpos : 0 < m.table.count id := List.count_pos_iff.mpr hid
      rw [List.count_erase, List.count_singleton]
      by_cases hi : id = i
      · subst hi
        simp
        omega
      · simp [hi]
    refine (h i).move [.removed who [id]] hc rfl rfl ?_
    constructor <;> simp [ManagerEvent.about, ClientAt.owes, named, unjoined, hcount]
    all_goals omega
  | unknown who id r hc hid =>
    refine (h i).move [.stopped who id (.ok false), .logged r] hc rfl rfl ?_
    constructor <;> simp [ManagerEvent.about, ClientAt.owes]
  | cancel who id hc =>
    refine (h i).move [.cancelled who id] hc rfl rfl ?_
    constructor <;>
      simp [ManagerEvent.about, ClientAt.owes, named_cancel, unjoined_cancel]
  | join who id w v r hc hw hv =>
    have htakeIn := unjoined_takeIn who hw hv (hone id) i
    refine (h i).move [.stopped who id (.ok true), .logged r, .joined who id] hc rfl rfl ?_
    constructor <;>
      simp [ManagerEvent.about, ClientAt.owes, named_takeIn]
    omega
  | joinFailed who id w v e hc hw hv =>
    have htakeIn := unjoined_takeIn who hw hv (hone id) i
    refine (h i).move [.stopped who id (.error e), .joined who id] hc rfl rfl ?_
    constructor <;>
      simp [ManagerEvent.about, ClientAt.owes, named_takeIn]
    omega
  | takeNone who dropping hc hnone =>
    have habout := closing_about_append who (.ok ()) dropping (.removed who []) fun d => by
      cases d <;> rfl
    refine (h i).move _ hc (by simp; rfl) (finishAll_history_cons who (.ok ()) dropping rfl) ?_
    constructor <;> simp [habout, ClientAt.owes, named, unjoined]
  | takeAll who dropping hc =>
    refine (h i).move [.removed who m.table] hc rfl rfl ?_
    constructor <;> simp [ManagerEvent.about, ClientAt.owes, named, unjoined]
  | cancelNext who batch id rest dropping hc =>
    refine (h i).move [.cancelled who id] hc rfl rfl ?_
    constructor <;> simp [ManagerEvent.about, ClientAt.owes, named_cancel, unjoined_cancel,
      List.count_cons]
  | cancelledAll who batch dropping hc =>
    refine (h i).move [] hc rfl rfl ?_
    constructor <;> simp [ClientAt.owes]
  | joinNext who batch id rest failure dropping w v hc hw hv =>
    have htakeIn := unjoined_takeIn who hw hv (hone id) i
    refine (h i).move [.joined who id] hc rfl rfl ?_
    constructor <;>
      simp [ManagerEvent.about, ClientAt.owes, named_takeIn, List.count_cons] at htakeIn ⊢
    all_goals omega
  | joinNextFailed who batch id rest failure dropping w v e r hc hw hv =>
    have htakeIn := unjoined_takeIn who hw hv (hone id) i
    refine (h i).move [.logged r, .joined who id] hc rfl rfl ?_
    constructor <;>
      simp [ManagerEvent.about, ClientAt.owes, named_takeIn, List.count_cons] at htakeIn ⊢
    all_goals omega
  | joinedAll who batch failure dropping r hc =>
    have habout := closing_about_append who (batchResult failure) dropping (.logged r) fun d => by
      cases d <;> rfl
    refine (h i).move _ hc (by simp; rfl)
      (finishAll_history_cons who (batchResult failure) dropping rfl) ?_
    constructor <;> simp [habout, ClientAt.owes, named, unjoined]
  | finish id v w hw hv =>
    have hid := worker?_id hw
    have hjoined := countP_update (fun w => { w with phase := .ended v }) hw (hone id)
      fun w => w.id = i && !w.isJoined
    refine (h i).keep [.workerEnded id v] rfl rfl (by simp [ManagerEvent.about]) rfl
      (countP_update_of_eq fun _ => rfl) ?_
    simpa [Worker.isJoined, hv, hid, unjoined] using hjoined
  | look id view =>
    exact (h i).keep [.looked view] rfl rfl (by simp [ManagerEvent.about]) rfl rfl rfl
  | cancelSelf id =>
    exact (h i).keep [] rfl rfl (by simp) rfl (countP_update_of_eq fun _ => rfl)
      (countP_update_of_eq fun _ => rfl)

/-- Numbers are drawn in order, each once. -/
lemma Turn.drawn (t : m.Turn a m') (h : m.drawn = List.range m.nextId) :
    m'.drawn = List.range m'.nextId := by
  cases t with
  | draw who name refusal hc =>
    refine List.reverse_cons.trans ?_
    exact (congrArg (· ++ [m.nextId]) h).trans List.range_succ.symm
  | fail who id name refusal result hc hresult =>
    cases result with
    | ok i => exact absurd rfl (hresult i)
    | refused | panicked => exact h
  | takeNone who dropping hc hnone =>
    rw [Manager.drawn, finishAll_history, List.flatMap_append, closing_about, finishAll_nextId]
    exact h
  | joinedAll who batch failure dropping r hc =>
    rw [Manager.drawn, finishAll_history, List.flatMap_append, closing_about, finishAll_nextId]
    exact h
  | _ => exact h

lemma Books.named_le_one (h : m.Books) (id : TaskId) : m.named id ≤ 1 := by
  have hdrawn : m.done .drawn id ≤ 1 := by
    rw [done, ← List.count_reverse, ← Manager.drawn, h.drawn]
    exact List.nodup_iff_count.mp List.nodup_range id
  have := (h.balanced id).drawn
  omega

/-- Every turn keeps the books. -/
lemma Turn.books (t : m.Turn a m') (h : m.Books) : m'.Books :=
  ⟨t.drawn h.drawn, t.balanced h.named_le_one h.balanced⟩

lemma books_start (n : Nat) : (start n).Books := by
  have hdue (d : Duty) (id : TaskId) : (start n).due d id = 0 := by
    refine List.count_eq_zero.mpr fun hid => ?_
    obtain ⟨c, hc, hid⟩ := List.mem_flatMap.mp hid
    rw [List.eq_of_mem_replicate hc] at hid
    cases d <;> cases hid
  exact ⟨rfl, fun id => ⟨by rw [hdue]; rfl, by rw [hdue]; rfl, rfl, by rw [hdue]; rfl,
    by rw [hdue]; rfl, by rw [hdue, hdue]; rfl, Nat.le_refl _⟩⟩

/-- After every run the books are in order. -/
theorem books_of_run {n : Nat} {as : List ManagerAction} (h : (start n).run as = some m) :
    m.Books :=
  run_induction (books_start n) (fun _ _ _ _ hbooks t => t.books hbooks) h

end Manager

end Overseer
