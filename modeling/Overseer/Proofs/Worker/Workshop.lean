import Mathlib.Logic.Relation
import Overseer.Proofs.Worker.Lock

/-!
# The lock is not held while waiting

Clients wait for the lock and for the end of workers, and workers that ask wait for the lock. Who
holds the lock waits for nobody, and a worker never waits for anything but the lock, so waiting
never goes in a circle: two links on from any thread stands one that can take its next step.
-/

namespace Overseer

namespace Workshop

variable {w w' : Workshop} {a : WorkshopAction} {id : TaskId}

/-! ### Who waits for whom -/

def Owns (w : Workshop) : Party → Prop
  | .client who => w.manager.holder = some who
  | .worker id => w.reader = some id

def WantsLock (w : Workshop) : Party → Prop
  | .client who => (w.manager.standing who).wantsLock = true
  | .worker id => ∃ q, w.askers id = .wanting q

/-- Whether a thread is in the middle of a call on the manager or of a question. -/
def InCall (w : Workshop) : Party → Prop
  | .client who => w.manager.standing who ≠ .outside
  | .worker id => w.askers id ≠ .working

/-- Whether a thread has something to do. -/
def IsBusy (w : Workshop) : Party → Prop
  | .client who => w.manager.standing who ≠ .outside
  | .worker id => w.manager.isRunning id = true

inductive Waits (w : Workshop) : Party → Party → Prop where
  | lock (t t' : Party) (h : w.WantsLock t) (h' : w.Owns t') : Waits w t t'
  | ending (who : Nat) (id : TaskId) (h : w.manager.endAwaited? who = some id) :
      Waits w (.client who) (.worker id)

/-- The state of the lock and of who waits. -/
structure Untangled (w : Workshop) : Prop where
  owner_unique : ∀ t t', w.Owns t → w.Owns t' → t = t'
  /-- Who holds the lock waits for nobody, least of all for the end of a worker. -/
  owner_waits_not : ∀ t, w.Owns t → ∀ t', ¬ w.Waits t t'
  /-- By its own next steps, at most two, the owner gives the lock back. -/
  owner_releases : ∀ t, w.Owns t → ∃ w₁, w.step (w.next t) = some w₁ ∧
    (w₁.isFree = true ∨ ∃ w₂, w₁.step (w₁.next t) = some w₂ ∧ w₂.isFree = true)
  /-- Who is back from its call, however it ended, does not hold the lock. -/
  released : ∀ t, ¬ w.InCall t → ¬ w.Owns t
  no_deadlock : ∀ t, ¬ Relation.TransGen w.Waits t t
  /-- Whoever has something to do can go on, or waits for somebody who can. -/
  goes_on : ∀ t, w.IsBusy t →
    ∃ t', Relation.ReflTransGen w.Waits t t' ∧ ∃ w', w.step (w.next t') = some w'

/-! ### Steps -/

/-- What the steps can do. -/
inductive Turn (w : Workshop) : WorkshopAction → Workshop → Prop where
  | manage (a m) (hadmits : w.admits a = true) (h : w.manager.step a = some m) :
      Turn w (.manage a) { w with manager := m }
  | inform (id q) (hrunning : w.manager.isRunning id = true) (hworking : w.askers id = .working) :
      Turn w (.ask id q) (w.tell id q (w.manager.inform q))
  | want (id q) (hrunning : w.manager.isRunning id = true) (hworking : w.askers id = .working) :
      Turn w (.ask id q) (w.seat id (.wanting q))
  | lock (id q) (h : w.askers id = .wanting q) (hfree : w.isFree = true) :
      Turn w (.lock id) { w.seat id (.reading q) with reader := some id }
  | answer (id q) (h : w.askers id = .reading q) :
      Turn w (.answer id) ({ w.seat id .working with reader := none }.tell id q (w.manager.read q))

lemma turn_of_step (h : w.step a = some w') : w.Turn a w' := by
  cases a with
  | manage a =>
    simp only [step] at h
    split at h
    · obtain ⟨m, hm, rfl⟩ := Option.map_eq_some_iff.mp h
      exact .manage a m ‹_› hm
    · cases h
  | ask id q =>
    simp only [step] at h
    split at h
    · rename_i hasks
      obtain ⟨hrunning, hworking⟩ := Bool.and_eq_true_iff.mp hasks
      split at h <;> cases h
      · exact .inform id q hrunning (of_decide_eq_true hworking)
      · exact .want id q hrunning (of_decide_eq_true hworking)
    · cases h
  | lock id =>
    simp only [step] at h
    split at h
    · split at h <;> cases h
      exact .lock id _ ‹_› ‹_›
    · cases h
  | answer id =>
    simp only [step] at h
    split at h <;> cases h
    exact .answer id _ ‹_›

lemma runs : Runs step run := ⟨fun _ => rfl, fun _ _ _ => rfl⟩

/-! ### What holds of every state -/

/-- What is known of the lock and of the workers that ask. -/
structure Sound (w : Workshop) : Prop where
  books : w.manager.Books
  locked : w.manager.Locked
  /-- The worker that has the lock is the one that is reading. -/
  reader : ∀ id, w.reader = some id ↔ ∃ q, w.askers id = .reading q
  exclusive : ∀ id, w.reader = some id → w.manager.holder = none
  /-- A worker that asks runs. -/
  asking : ∀ id, w.askers id ≠ .working → w.manager.isRunning id = true

lemma isFree_iff : w.isFree = true ↔ w.manager.holder = none ∧ w.reader = none := by
  simp [isFree]

lemma seat_askers_self (t : AskerAt) : (w.seat id t).askers id = t := if_pos rfl

lemma seat_askers_of_ne {i : TaskId} (h : i ≠ id) (t : AskerAt) :
    (w.seat id t).askers i = w.askers i := if_neg h

/-- What a worker with a question is admitted to does not end it. -/
lemma admits_finish {v : Verdict Unit} (h : w.admits (.finish id v) = true) :
    w.askers id = .working := of_decide_eq_true h

lemma admits_proceed {who : Nat} (h : w.admits (.proceed who) = true) :
    w.manager.endAwaited? who = none ∧ (w.reader = none ∨
      ∀ c, w.manager.clients[who]? = some c → c.wantsLock = false) := by
  obtain ⟨hend, hlock⟩ := Bool.and_eq_true_iff.mp h
  refine ⟨by simpa using hend, (Bool.or_eq_true_iff.mp hlock).imp (by simp) fun hall c hc => ?_⟩
  rw [hc] at hall
  simpa using hall

/-- A worker moves on. The lock goes at most from nobody to this worker or from this worker to
nobody. -/
lemma Sound.seat (h : w.Sound) (hrunning : w.manager.isRunning id = true) {t : AskerAt}
    {reader : Option TaskId} (hreader : reader = some id ↔ ∃ q, t = .reading q)
    (hothers : ∀ i ≠ id, reader = some i ↔ w.reader = some i)
    (hexclusive : reader = some id → w.manager.holder = none) :
    ({ w.seat id t with reader := reader } : Workshop).Sound where
  books := h.books
  locked := h.locked
  reader i := by
    by_cases hi : i = id
    · subst hi
      exact hreader.trans (by rw [seat_askers_self])
    · exact (hothers i hi).trans ((h.reader i).trans (by rw [seat_askers_of_ne hi]))
  exclusive i hi := by
    by_cases heq : i = id
    · subst heq
      exact hexclusive hi
    · exact h.exclusive i ((hothers i heq).mp hi)
  asking i hi := by
    by_cases heq : i = id
    · subst heq
      exact hrunning
    · exact h.asking i (by rwa [seat_askers_of_ne heq] at hi)

lemma Sound.manage (h : w.Sound) {a : ManagerAction} {m : Manager}
    (hadmits : w.admits a = true) (hm : w.manager.step a = some m) :
    ({ w with manager := m } : Workshop).Sound where
  books := (Manager.turn_of_step hm).books h.books
  locked := (Manager.turn_of_step hm).locked h.locked
  reader := h.reader
  exclusive id hid := by
    refine (Manager.turn_of_step hm).holder_eq_none (h.exclusive id hid) ?_
    rintro who c rfl hc
    obtain ⟨-, hnone | hnot⟩ := admits_proceed hadmits
    · rw [hnone] at hid
      cases hid
    · exact hnot c hc
  asking id hid := by
    refine (Manager.turn_of_step hm).isRunning (h.asking id hid) ?_
    rintro v rfl
    exact hid (admits_finish (v := v) hadmits)

lemma Turn.sound (t : w.Turn a w') (h : w.Sound) : w'.Sound := by
  cases t with
  | manage a m hadmits hm => exact h.manage hadmits hm
  | inform => exact ⟨h.books, h.locked, h.reader, h.exclusive, h.asking⟩
  | want id q hrunning hworking =>
    have hnot : w.reader ≠ some id := by
      rw [Ne, h.reader, hworking]
      nofun
    exact h.seat hrunning ⟨fun hreader => absurd hreader hnot, nofun⟩ (fun _ _ => Iff.rfl)
      (h.exclusive id)
  | lock id q hwanting hfree =>
    obtain ⟨hholder, hreader⟩ := isFree_iff.mp hfree
    have hrunning := h.asking id (by rw [hwanting]; nofun)
    refine h.seat hrunning ⟨fun _ => ⟨q, rfl⟩, fun _ => rfl⟩ (fun i hi => ?_) fun _ => hholder
    simp [hreader, Ne.symm hi]
  | answer id q hreading =>
    have hreader := (h.reader id).mpr ⟨q, hreading⟩
    have hrunning := h.asking id (by rw [hreading]; nofun)
    have hseat : ({ w.seat id .working with reader := none } : Workshop).Sound := by
      refine h.seat hrunning ⟨nofun, nofun⟩ (fun i hi => ?_) nofun
      simp [hreader, Ne.symm hi]
    exact ⟨hseat.books, hseat.locked, hseat.reader, hseat.exclusive, hseat.asking⟩

lemma sound_start (n : Nat) : (start n).Sound where
  books := Manager.books_start n
  locked := Manager.locked_start n
  reader _ := ⟨nofun, nofun⟩
  exclusive _ := nofun
  asking _ h := absurd rfl h

lemma sound_of_run {n : Nat} {as : List WorkshopAction} (h : (start n).run as = some w) :
    w.Sound :=
  runs.invariant (P := fun _ w => w.Sound) (sound_start n)
    (fun _ _ _ _ _ hu hstep => (turn_of_step hstep).sound hu) h

/-! ### What workers are told -/

/-- The manager of a workshop runs as it does without questions. -/
theorem manager_of_run {n : Nat} {as : List WorkshopAction} (h : (start n).run as = some w) :
    ∃ bs, (Manager.start n).run bs = some w.manager := by
  have hruns : Runs Manager.step Manager.run := ⟨fun _ => rfl, fun _ _ _ => rfl⟩
  refine runs.invariant (P := fun _ w => ∃ bs, (Manager.start n).run bs = some w.manager)
    ⟨[], rfl⟩ ?_ h
  rintro _ a u u' _ ⟨bs, hbs⟩ hstep
  cases turn_of_step hstep with
  | manage b m _ hm =>
    refine ⟨bs ++ [b], ?_⟩
    rw [hruns.concat, hbs]
    exact hm
  | inform | want | lock | answer => exact ⟨bs, hbs⟩

/-- No worker runs after the manager has gone. -/
lemma isAlive_of_isRunning {n : Nat} {as : List WorkshopAction} (h : (start n).run as = some w)
    (hrunning : w.manager.isRunning id = true) : w.manager.isAlive = true := by
  obtain ⟨u, hu, hphase⟩ := Manager.isRunning_iff.mp hrunning
  obtain ⟨bs, hrun⟩ := manager_of_run h
  have hclosing : w.manager.Closing := Manager.run_induction (Manager.closing_start n)
    (fun _ _ _ _ hclosing t => t.closing hclosing) hrun
  by_contra hgone
  -- nobody is in a call and nothing is listed any more, so that every worker has been joined
  obtain ⟨htable, houtside⟩ := hclosing.gone (by simpa using hgone)
  have hunjoined := ((sound_of_run h).books.balanced u.id).unjoined
  rw [Manager.due_eq_zero houtside, Manager.due_eq_zero houtside, htable] at hunjoined
  have hjoined := Manager.isJoined_of_unjoined (List.mem_of_find?_eq_some hu) hunjoined
  exact Manager.phase_ne_running hjoined hphase

/-! ### Waiting -/

section Waiting

variable {t t' t'' : Party}

lemma owner_unique (hw : w.Sound) (h : w.Owns t) (h' : w.Owns t') : t = t' := by
  cases t with
  | client who =>
    cases t' with
    | client who' => exact congrArg Party.client (Option.some.inj (h.symm.trans h'))
    | worker id' => exact absurd (h.symm.trans (hw.exclusive id' h')) nofun
  | worker id =>
    cases t' with
    | client who' => exact absurd (h'.symm.trans (hw.exclusive id h)) nofun
    | worker id' => exact congrArg Party.worker (Option.some.inj (h.symm.trans h'))

lemma inCall_of_owns (hw : w.Sound) (h : w.Owns t) :
    w.InCall t := by
  cases t with
  | client who =>
    intro houtside
    have hholds := (hw.locked who).mp h
    rw [houtside] at hholds
    cases hholds
  | worker id =>
    obtain ⟨q, hq⟩ := (hw.reader id).mp h
    rw [InCall, hq]
    nofun

lemma isBusy_of_owns (hw : w.Sound) (h : w.Owns t) :
    w.IsBusy t := by
  have hcall := inCall_of_owns hw h
  cases t with
  | client who => exact hcall
  | worker id => exact hw.asking id hcall

lemma not_wantsLock_of_owns (hw : w.Sound) (h : w.Owns t) :
    ¬ w.WantsLock t := by
  cases t with
  | client who =>
    rw [WantsLock, ClientAt.not_wantsLock_of_holdsLock ((hw.locked who).mp h)]
    nofun
  | worker id =>
    rintro ⟨q, hwanting⟩
    obtain ⟨q', hreading⟩ := (hw.reader id).mp h
    rw [hwanting] at hreading
    cases hreading

/-- Who waits for the end of a worker stands where it does not hold the lock. -/
lemma not_holdsLock_of_endAwaited (hw : w.Sound) {who : Nat}
    (h : w.manager.endAwaited? who = some id) : (w.manager.standing who).holdsLock = false := by
  simp only [Manager.endAwaited?, hw.books.displaced?_eq_none, Option.orElse_eq_orElse,
    Option.filter_eq_some_iff, Manager.awaited?] at h
  obtain ⟨hawaited, -⟩ := h
  split at hawaited
  · rw [Manager.standing_of_getElem? ‹_›]
    rfl
  · rw [Manager.standing_of_getElem? ‹_›]
    rfl
  · cases hawaited

lemma isRunning_of_endAwaited {who : Nat} (h : w.manager.endAwaited? who = some id) :
    w.manager.isRunning id = true := (Option.filter_eq_some_iff.mp h).2

lemma not_waits_of_owns (hw : w.Sound) (h : w.Owns t) : ¬ w.Waits t t' := by
  intro hwaits
  cases hwaits with
  | lock _ _ hwants => exact not_wantsLock_of_owns hw h hwants
  | ending who id hend =>
    have hholds := (hw.locked who).mp h
    rw [not_holdsLock_of_endAwaited hw hend] at hholds
    cases hholds

/-- A worker waits only for who holds the lock. -/
lemma owns_of_waits_worker (h : w.Waits (.worker id) t) : w.Owns t := by
  cases h with
  | lock _ _ _ howns => exact howns

/-- Who waits for somebody that waits itself is at the end of the chain but one: the last holds the
lock. -/
lemma owns_of_waits (hw : w.Sound)
    (h : w.Waits t t') (h' : w.Waits t' t'') : w.Owns t'' := by
  cases h with
  | lock _ _ _ howns => exact absurd h' (not_waits_of_owns hw howns)
  | ending => exact owns_of_waits_worker h'

lemma isBusy_of_waits (hw : w.Sound) (h : w.Waits t t') :
    w.IsBusy t' := by
  cases h with
  | lock _ _ _ howns => exact isBusy_of_owns hw howns
  | ending who id hend => exact isRunning_of_endAwaited hend

/-- Going along a circle from one of its threads to the next. -/
lemma exists_waits_of_transGen (h : Relation.TransGen w.Waits t t) :
    ∃ t', w.Waits t t' ∧ Relation.TransGen w.Waits t' t' := by
  obtain ⟨t', hwaits, hback⟩ := Relation.TransGen.head'_iff.mp h
  exact ⟨t', hwaits, .tail' hback hwaits⟩

lemma not_transGen_waits (hw : w.Sound) (t : Party) : ¬ Relation.TransGen w.Waits t t := by
  intro hcircle
  obtain ⟨t₁, h₁, hcircle₁⟩ := exists_waits_of_transGen hcircle
  obtain ⟨t₂, h₂, hcircle₂⟩ := exists_waits_of_transGen hcircle₁
  obtain ⟨t₃, h₃, -⟩ := exists_waits_of_transGen hcircle₂
  exact not_waits_of_owns hw (owns_of_waits hw h₁ h₂) h₃

end Waiting

/-! ### Going on -/

section GoingOn

variable {t t' : Party}

lemma isFree_of_not_waits (h : w.WantsLock t) (hwaits : ∀ t', ¬ w.Waits t t') :
    w.isFree = true := by
  refine isFree_iff.mpr ⟨?_, ?_⟩
  · cases hholder : w.manager.holder with
    | none => rfl
    | some who => exact absurd (.lock t (.client who) h hholder) (hwaits _)
  · cases hreader : w.reader with
    | none => rfl
    | some id => exact absurd (.lock t (.worker id) h hreader) (hwaits _)

lemma step_client (hw : w.Sound) {who : Nat} (hbusy : w.IsBusy (.client who))
    (hwaits : ∀ t', ¬ w.Waits (.client who) t') :
    ∃ w', w.step (w.next (.client who)) = some w' := by
  obtain ⟨c, hc⟩ : ∃ c, w.manager.clients[who]? = some c := by
    cases hc : w.manager.clients[who]? with
    | some c => exact ⟨c, rfl⟩
    | none => exact absurd (by rw [Manager.standing, hc]; rfl) hbusy
  have hstanding := Manager.standing_of_getElem? hc
  have hend : w.manager.endAwaited? who = none := by
    cases hend : w.manager.endAwaited? who with
    | none => rfl
    | some id => exact absurd (.ending who id hend) (hwaits _)
  have hfree (hwants : c.wantsLock = true) : w.manager.holder = none ∧ w.reader = none := by
    refine isFree_iff.mp (isFree_of_not_waits (t := .client who) ?_ hwaits)
    rwa [WantsLock, hstanding]
  have hin : c ≠ .outside := hstanding ▸ hbusy
  obtain ⟨m, hm⟩ := hw.books.proceeds hc hin (fun hwants => (hfree hwants).1) hend
  have hadmits : w.admits (.proceed who) = true := by
    simp only [admits, hend, hc, Option.isNone_none, Bool.true_and, Option.all_some]
    cases hwants : c.wantsLock with
    | false => exact Bool.or_true _
    | true => simp [(hfree hwants).2]
  exact ⟨{ w with manager := m }, by rw [next, step, if_pos hadmits, hm]; rfl⟩

lemma step_worker (hbusy : w.IsBusy (.worker id)) (hwaits : ∀ t', ¬ w.Waits (.worker id) t') :
    ∃ w', w.step (w.next (.worker id)) = some w' := by
  rw [next]
  cases hasker : w.askers id with
  | working =>
    obtain ⟨u, hu, hrunning⟩ := Manager.isRunning_iff.mp hbusy
    obtain ⟨i, name, cancelled, phase⟩ := u
    cases hrunning
    exact ⟨_, by simp [step, admits, hasker, Manager.step, hu]; rfl⟩
  | wanting q =>
    have hfree := isFree_of_not_waits (t := .worker id) ⟨q, hasker⟩ hwaits
    exact ⟨_, by simp [step, hasker, hfree]; rfl⟩
  | reading q => exact ⟨_, by simp [step, hasker]; rfl⟩

/-- Who has something to do and waits for nobody can take its next step. -/
lemma step_of_not_waits (hw : w.Sound) (hbusy : w.IsBusy t)
    (hwaits : ∀ t', ¬ w.Waits t t') : ∃ w', w.step (w.next t) = some w' := by
  cases t with
  | client who => exact step_client hw hbusy hwaits
  | worker id => exact step_worker hbusy hwaits

lemma goes_on (hw : w.Sound)
    (hbusy : w.IsBusy t) :
    ∃ t', Relation.ReflTransGen w.Waits t t' ∧ ∃ w', w.step (w.next t') = some w' := by
  by_cases hwaits : ∃ t₁, w.Waits t t₁
  · obtain ⟨t₁, h₁⟩ := hwaits
    have hbusy₁ := isBusy_of_waits hw h₁
    by_cases hwaits₁ : ∃ t₂, w.Waits t₁ t₂
    · obtain ⟨t₂, h₂⟩ := hwaits₁
      have howns := owns_of_waits hw h₁ h₂
      exact ⟨t₂, .tail (.single h₁) h₂, step_of_not_waits hw
        (isBusy_of_waits hw h₂) fun _ =>
          not_waits_of_owns hw howns⟩
    · exact ⟨t₁, .single h₁, step_of_not_waits hw hbusy₁ (not_exists.mp hwaits₁)⟩
  · exact ⟨t, .refl, step_of_not_waits hw hbusy (not_exists.mp hwaits)⟩

lemma step_of_owns (hw : w.Sound) (h : w.Owns t) : ∃ w', w.step (w.next t) = some w' :=
  step_of_not_waits hw (isBusy_of_owns hw h) fun _ => not_waits_of_owns hw h

/-- What a step of the client that holds the lock does to the lock. -/
lemma releases_client (hw : w.Sound) {who : Nat} (h : w.Owns (.client who))
    (hstep : w.step (.manage (.proceed who)) = some w') :
    w'.isFree = true ∨ w'.Owns (.client who) ∧
      (∃ id name refusal, w.manager.standing who = .spawning id name refusal) ∧
        ∃ id name, w'.manager.standing who = .listing id name := by
  have hw' := (turn_of_step hstep).sound hw
  have hreader : w.reader = none := by
    rw [Option.eq_none_iff_forall_ne_some]
    exact fun id hid => absurd (h.symm.trans (hw.exclusive id hid)) nofun
  cases turn_of_step hstep with
  | manage _ m _ hm =>
    rcases (Manager.turn_of_step hm).releases ((hw.locked who).mp h) with hfree | ⟨hat, hlisting⟩
    · exact .inl (isFree_iff.mpr ⟨hfree, hreader⟩)
    · obtain ⟨id, name, hstands⟩ := hlisting
      refine .inr ⟨(hw'.locked who).mpr ?_, hat, id, name, hstands⟩
      rw [hstands]
      rfl

lemma releases_worker (hw : w.Sound) (h : w.Owns (.worker id))
    (hstep : w.step (w.next (.worker id)) = some w') : w'.isFree = true := by
  obtain ⟨q, hreading⟩ := (hw.reader id).mp h
  rw [next, hreading] at hstep
  cases turn_of_step hstep with
  | answer => exact isFree_iff.mpr ⟨hw.exclusive id h, rfl⟩

/-- Who holds the lock gives it back with its next step or the one after. -/
lemma owner_releases (hw : w.Sound) (h : w.Owns t) : ∃ w₁, w.step (w.next t) = some w₁ ∧
    (w₁.isFree = true ∨ ∃ w₂, w₁.step (w₁.next t) = some w₂ ∧ w₂.isFree = true) := by
  obtain ⟨w₁, h₁⟩ := step_of_owns hw h
  refine ⟨w₁, h₁, ?_⟩
  cases t with
  | worker id => exact .inl (releases_worker hw h h₁)
  | client who =>
    refine (releases_client hw h h₁).imp_right ?_
    rintro ⟨howns, -, id, name, hlisting⟩
    have hw₁ := (turn_of_step h₁).sound hw
    obtain ⟨w₂, h₂⟩ := step_of_owns hw₁ howns
    refine ⟨w₂, h₂, (releases_client hw₁ howns h₂).resolve_right ?_⟩
    rintro ⟨-, ⟨_, _, _, hspawning⟩, -⟩
    rw [hlisting] at hspawning
    cases hspawning

end GoingOn

/-- In every state of every run, who holds the lock of the table waits for nobody and gives it back
by its own steps, and the threads that wait are not waiting in a circle. -/
theorem lock_not_held_waiting {n : Nat} {as : List WorkshopAction}
    (h : (start n).run as = some w) : w.Untangled := by
  have hw := sound_of_run h
  constructor
  · intro t t'
    exact owner_unique hw
  · intro t howns t'
    exact not_waits_of_owns hw howns
  · intro t
    exact owner_releases hw
  · intro t hout howns
    exact hout (inCall_of_owns hw howns)
  · exact not_transGen_waits hw
  · intro t
    exact goes_on hw

/-- A worker asks before it is listed and again while it is being stopped, a start panics, and a
client wants to start another worker meanwhile. -/
def inquisitive : List WorkshopAction := List.flatten [
  .manage (.begin 0 (.start "w" none)) :: List.replicate 3 (.manage (.proceed 0)),
  [.ask 0 .count, .manage (.proceed 0), .lock 0, .answer 0],
  .manage (.begin 1 (.start "\x00" none)) :: List.replicate 3 (.manage (.proceed 1)),
  .manage (.begin 0 (.stop 0)) :: List.replicate 3 (.manage (.proceed 0)),
  [.manage (.begin 1 (.start "v" none)), .manage (.proceed 1), .ask 0 (.contains 0), .lock 0]]

/-- The first client waits for the worker and the second for the lock, which the worker has. -/
theorem lock_not_held_waiting_inquisitive : ∃ w, (start 2).run inquisitive = some w ∧
    w.answers = [(0, .count, .count 1)] ∧ w.Waits (.client 0) (.worker 0) ∧
    w.Waits (.client 1) (.worker 0) ∧ w.Owns (.worker 0) ∧ w.Untangled := by
  obtain ⟨w, h, hanswers, hend, hwants, howns⟩ : ∃ w, (start 2).run inquisitive = some w ∧
      w.answers = [(0, .count, .count 1)] ∧ w.manager.endAwaited? 0 = some 0 ∧
      (w.manager.standing 1).wantsLock = true ∧ w.reader = some 0 :=
    ⟨_, rfl, rfl, rfl, rfl, rfl⟩
  exact ⟨w, h, hanswers, .ending 0 0 hend, .lock _ _ hwants howns, howns, lock_not_held_waiting h⟩

end Workshop

end Overseer
