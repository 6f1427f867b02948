import Overseer.Proofs.Worker.Ledger

/-!
# What the tick worker reports

Every tick that returns is reported once, in order, and the report carries what the tick returned.
A caller that stops the worker is told how its body has ended, and after that there is no tick and
no report any more.
-/

namespace Overseer

variable {σ : Type}

/-- How many steps are left, at most, to a worker that is to end and stands here. -/
def TickerAt.left (p : ProducerAt TickReport) : TickerAt → Nat
  | ticking => 10
  | reporting _ => 3 + ((p.underway?).map Prod.snd).getD 6
  | resting _ => 3
  | sleeping _ | checking => 2
  | ended _ => 1

def TickerAt.isReporting : TickerAt → Bool
  | reporting _ => true
  | _ => false

/-! ### What the course says -/

namespace TickLog

variable {l : TickLog} {e : EndsAtWork TickReport} {standing : TickerAt}

/-- All ticks have returned, or the body has ended with the panic of the last one. -/
lemma Course.rounds (h : l.Course e standing) :
    l.AllReturned ∨ ∃ p, standing = .ended (.panicked p) ∧ l.IsOut e ∧
      l.rounds.map Prod.snd = l.answers.map .value ++ [.panicked p] := by
  cases standing with
  | checking | ticking | sleeping => exact .inl h.2.1
  | reporting => exact .inl h.2.2.1
  | resting => exact .inl h.2.2.1
  | ended v =>
    cases v with
    | value => exact .inl h.2.1
    | panicked p =>
      rcases h.2 with ⟨hrounds, -⟩ | ⟨-, hreturned, -⟩
      · exact .inr ⟨p, rfl, h.1, hrounds⟩
      · exact .inl hreturned

/-- The answers are those of the first ticks. -/
lemma Course.answer (h : l.Course e standing) {k : Nat} {interval : Span}
    (hk : l.answers[k]? = some interval) : ∃ told, l.rounds[k]? = some (told, .value interval) := by
  have hsnd : (l.rounds.map Prod.snd)[k]? = some (.value interval) := by
    have hvalue : (l.answers.map Verdict.value)[k]? = some (.value interval) := by
      rw [List.getElem?_map, hk, Option.map_some]
    rcases h.rounds with hreturned | ⟨p, -, -, hrounds⟩
    · rw [hreturned, hvalue]
    · rw [hrounds, List.getElem?_append_left (List.getElem?_eq_some_iff.mp hvalue).1, hvalue]
  rw [List.getElem?_map, Option.map_eq_some_iff] at hsnd
  obtain ⟨⟨told, answer⟩, hround, rfl⟩ := hsnd
  exact ⟨told, hround⟩

/-- What is published are reports on the first answers, on all of them but for one that is being
pushed. -/
lemma Course.published (h : l.Course e standing) :
    e.pushed <+: TickReport.all l.answers ∧
      l.answers.length = e.pushed.length + if standing.isReporting then 1 else 0 := by
  have hout (hout : l.IsOut e) (hnot : standing.isReporting = false) :
      e.pushed <+: TickReport.all l.answers ∧
        l.answers.length = e.pushed.length + if standing.isReporting then 1 else 0 := by
    rw [hout.2, hnot, TickReport.length_all]
    exact ⟨List.prefix_refl _, rfl⟩
  cases standing with
  | checking | ticking | sleeping | ended => exact hout h.1 rfl
  | resting => exact hout h.2.1 rfl
  | reporting interval =>
    obtain ⟨before, hanswers, hpushed⟩ := h.1
    rw [hanswers, hpushed, TickReport.all_concat, TickReport.length_all, List.length_append]
    exact ⟨List.prefix_append _ _, rfl⟩

/-- A tick that panicked was the last one, and all before it are reported. -/
lemma Course.panicked (h : l.Course e standing) {k : Nat} {told : Span} {p : Payload}
    (hk : l.rounds[k]? = some (told, .panicked p)) :
    standing = .ended (.panicked p) ∧ l.rounds.length = k + 1 ∧ e.pushed.length = k := by
  have hsnd : (l.rounds.map Prod.snd)[k]? = some (.panicked p) := by
    rw [List.getElem?_map, hk, Option.map_some]
  have hvalue : (l.answers.map Verdict.value)[k]? ≠ some (.panicked p) := by
    rw [List.getElem?_map]
    cases l.answers[k]? <;> simp
  rcases h.rounds with hreturned | ⟨q, hended, ⟨-, hpushed⟩, hrounds⟩
  · rw [hreturned] at hsnd
    exact absurd hsnd hvalue
  · rw [hrounds] at hsnd
    have hlength : l.rounds.length = l.answers.length + 1 := by
      simpa using congrArg List.length hrounds
    have hle : l.answers.length ≤ k := by
      by_contra hlt
      rw [List.getElem?_append_left (by simpa using hlt)] at hsnd
      exact hvalue hsnd
    have hlt : k < l.rounds.length := (List.getElem?_eq_some_iff.mp hk).1
    obtain rfl : k = l.answers.length := by omega
    have hlast : (l.answers.map Verdict.value ++ [Verdict.panicked q])[l.answers.length]? =
        some (.panicked q) := by simp
    cases hlast.symm.trans hsnd
    exact ⟨hended, hlength, by rw [hpushed, TickReport.length_all]⟩

/-- A sleep that could not end was the last one, and all ticks are reported. -/
lemma Course.overran (h : l.Course e standing) {interval : Span}
    (hinterval : (interval, none) ∈ l.sleeps) :
    standing = .ended (.panicked (.text Moment.overflow)) ∧
      l.answers.getLast? = some interval ∧ l.rounds.length = e.pushed.length := by
  have hnot (hend : l.AllEnd) : False := hend _ hinterval rfl
  cases standing with
  | checking | ticking | sleeping => exact (hnot h.2.2).elim
  | reporting | resting => exact (hnot h.2.2.2).elim
  | ended v =>
    cases v with
    | value => exact (hnot h.2.2).elim
    | panicked p =>
      rcases h.2 with ⟨-, hend⟩ | ⟨rfl, hreturned, before, last, hlast, hsleeps, hend⟩
      · exact (hnot hend).elim
      · rw [hsleeps, List.mem_append, List.mem_singleton] at hinterval
        rcases hinterval with hbefore | hlater
        · exact absurd rfl (hend _ hbefore)
        · cases hlater
          refine ⟨rfl, hlast, ?_⟩
          rw [hreturned.length, h.1.2, TickReport.length_all]

end TickLog

namespace Shift

variable {rule : TickRule σ} {s s' : Shift σ} {a : ShiftAction σ} {n : Nat} {id : TaskId} {app : σ}
  {as : List (ShiftAction σ)}

/-! ### The manager beside the worker -/

lemma Turn.manager (t : s.Turn rule a s') :
    s'.id = s.id ∧ (s'.manager = s.manager ∨ ∃ act, s.manager.step act = some s'.manager) := by
  cases t with
  | manage act m hadmits hm | finish _ _ m _ _ hm => exact ⟨rfl, .inr ⟨_, hm⟩⟩
  | _ => exact ⟨rfl, .inl rfl⟩

/-- What the manager goes through is a run of its own. -/
lemma manager_of_run (h : (start n id app).run rule as = some s) :
    s.id = id ∧ ∃ acts, (Manager.start n).run acts = some s.manager := by
  refine (runs rule).invariant (P := fun _ s => s.id = id ∧ ∃ acts, (Manager.start n).run acts =
    some s.manager) ⟨rfl, [], rfl⟩ ?_ h
  rintro _ a u u' - ⟨hid, acts, hacts⟩ hstep
  obtain ⟨hid', hsame | ⟨act, hact⟩⟩ := (turn_of_step hstep).manager
  · exact ⟨hid'.trans hid, acts, by rwa [hsame]⟩
  · refine ⟨hid'.trans hid, acts ++ [act], ?_⟩
    rw [Manager.runs.concat, hacts, Option.bind_some, hact]

/-! ### The end of the worker -/

/-- Once the body has ended, there are no more ticks and no more reports. -/
lemma Turn.ended (t : s.Turn rule a s') {v : Verdict Unit} (h : s.ticker.standing = .ended v) :
    s'.ticker.standing = .ended v ∧ s'.log = s.log ∧ s'.ends.pushed = s.ends.pushed := by
  cases t with
  | manage | finish => exact ⟨h, rfl, rfl⟩
  | stay _ t _ ht => exact ⟨ht.standing.trans h, rfl, rfl⟩
  | read _ m e _ hm he => exact ⟨h, rfl, (EndsAtWork.step_isReading hm he).2⟩
  | heed _ next t _ hlooks =>
    rw [h] at hlooks
    cases hlooks
  | tick _ _ _ _ hstanding | crash _ _ _ _ hstanding | push _ _ _ _ hstanding
  | produce _ _ _ _ hstanding | publish _ _ _ _ _ _ _ hstanding | rest _ _ _ _ _ hstanding
  | overrun _ _ _ _ hstanding =>
    cases h.symm.trans hstanding

lemma run_ended {v : Verdict Unit} (h : s.ticker.standing = .ended v)
    (hrun : s.run rule as = some s') : s'.log = s.log ∧ s'.ends.pushed = s.ends.pushed := by
  have hkept : s'.ticker.standing = .ended v ∧ s'.log = s.log ∧
      s'.ends.pushed = s.ends.pushed := by
    refine (runs rule).invariant (P := fun _ u => u.ticker.standing = .ended v ∧ u.log = s.log ∧
      u.ends.pushed = s.ends.pushed) ⟨h, rfl, rfl⟩ ?_ hrun
    rintro _ _ u u' - ⟨hended, hlog, hpushed⟩ hstep
    obtain ⟨hended', hlog', hpushed'⟩ := (turn_of_step hstep).ended hended
    exact ⟨hended', hlog'.trans hlog, hpushed'.trans hpushed⟩
  exact hkept.2

/-! ### Progress -/

/-- The worker can always take its next step; it never meets a memory fault. -/
lemma Ledger.progress (h : s.Ledger) (hrunning : s.manager.isRunning s.id = true) (now : Moment) :
    ∃ s', s.step rule (.work now) = some s' := by
  have haccess (m : Move TickReport) : ∃ e, s.access m = some { s with ends := e } := by
    obtain ⟨e, he, -⟩ := h.queue.step m
    exact ⟨e, by rw [Shift.access, he]⟩
  simp only [Shift.step, hrunning, if_true]
  cases hstanding : s.ticker.standing with
  | checking | ticking | resting | sleeping =>
    simp only [Shift.work, body, hstanding]
    exact ⟨_, rfl⟩
  | reporting interval =>
    simp only [Shift.work, body, hstanding, Shift.publish]
    split
    · obtain ⟨e, he⟩ := haccess (.push ⟨s.ticker.count, interval⟩)
      exact ⟨_, he⟩
    · obtain ⟨e, he⟩ := haccess .produce
      exact ⟨_, by rw [he]; rfl⟩
    · obtain ⟨e, he⟩ := haccess .produce
      exact ⟨_, he⟩
  | ended v =>
    obtain ⟨w, hw, hphase⟩ := Manager.isRunning_iff.mp hrunning
    obtain ⟨i, name, cancelled, phase⟩ := w
    obtain rfl : phase = .running := hphase
    simp only [Shift.work, body, hstanding, Manager.step, hw]
    exact ⟨_, rfl⟩

/-- How many steps are left, at most, to a worker that is to end. -/
def left (s : Shift σ) : Nat :=
  if s.manager.isRunning s.id then s.ticker.standing.left s.ends.producer else 0

lemma left_le (s : Shift σ) : s.left ≤ 10 := by
  have hstanding : s.ticker.standing.left s.ends.producer ≤ 10 := by
    cases s.ticker.standing with
    | reporting => cases s.ends.producer <;> exact Nat.le_of_ble_eq_true rfl
    | _ => exact Nat.le_of_ble_eq_true rfl
  unfold left
  split
  · exact hstanding
  · exact Nat.zero_le _

lemma left_of_isRunning (h : s.manager.isRunning s.id = true) :
    s.left = s.ticker.standing.left s.ends.producer := by
  rw [left, if_pos h]

/-- A step of the worker beside which nothing happens at the manager. -/
lemma left_lt {t : Ticker σ} {e : EndsAtWork TickReport} {l : TickLog}
    (hrunning : s.manager.isRunning s.id = true)
    (hlt : t.standing.left e.producer < s.ticker.standing.left s.ends.producer) :
    ({ s with ticker := t, ends := e, log := l } : Shift σ).left + 1 ≤ s.left := by
  simp only [left, hrunning, if_true]
  exact hlt

/-- What others do leaves a worker that is to end where it is. -/
lemma left_manage (htold : s.manager.IsTold s.id) {m : Manager} (hgrows : s.manager.Grows m) :
    ({ s with manager := m } : Shift σ).left ≤ s.left := by
  obtain ⟨w, hw, -⟩ := htold
  unfold left
  split
  · rename_i hrunning
    rw [if_pos (hgrows.isRunning hw hrunning)]
  · exact Nat.zero_le _

/-- A step of a worker that is to end brings it nearer to its end, and no other step takes it
away from there. -/
lemma Turn.left (t : s.Turn rule a s') (h : s.Ledger) (htold : s.manager.IsTold s.id) :
    s'.left + (if a.isWork then 1 else 0) ≤ s.left := by
  cases t with
  | manage act m hadmits hm => exact left_manage htold (Manager.turn_of_step hm).grows
  | finish now v m hrunning hended hm =>
    have hover : m.isRunning s.id = false :=
      Manager.not_isRunning_of_verdict? (Manager.verdict?_of_finish hm)
    rw [left_of_isRunning hrunning, hended, Shift.left, if_neg (by simp [hover])]
    exact Nat.le_refl _
  | heed _ next t hrunning hlooks ht =>
    rw [isTold_iff.mpr htold, if_pos rfl] at ht
    have hlt : t.standing.left s.ends.producer < s.ticker.standing.left s.ends.producer := by
      rw [ht.standing]
      generalize s.ticker.standing = standing at hlooks
      cases hlooks <;> exact Nat.lt_succ_self _
    refine Nat.le_trans (Nat.add_le_add_left ?_ _) (left_lt hrunning hlt)
    split
    · exact Nat.le_refl _
    · exact Nat.zero_le _
  | tick now interval t hrunning hticking hinterval hcount hstanding =>
    have hcourse := h.course
    rw [hticking] at hcourse
    refine left_lt hrunning ?_
    rw [hstanding, hticking, hcourse.1.1]
    exact Nat.lt_succ_self _
  | crash now p t hrunning hticking ht =>
    refine left_lt hrunning ?_
    rw [ht.standing, hticking]
    exact Nat.le_of_ble_eq_true rfl
  | push now interval e hrunning hreporting hidle he =>
    refine left_lt hrunning ?_
    rw [hreporting, hidle, (EndsAtWork.step_push hidle _ he).1]
    exact Nat.lt_succ_self _
  | produce now interval e hrunning hreporting hidle hlinked he =>
    obtain ⟨k, hunderway⟩ := h.underway hreporting hidle
    rcases EndsAtWork.underway?_eq_some hunderway with ⟨next, hnext⟩ | ⟨j, rfl⟩
    · exact absurd hnext (hlinked _ next)
    · refine left_lt hrunning ?_
      rw [hreporting, TickerAt.left, TickerAt.left, hunderway,
        (EndsAtWork.produce_underway hunderway he).1]
      exact Nat.lt_succ_self _
  | publish now interval v next e t hrunning hreporting hlinked he ht =>
    refine left_lt hrunning ?_
    rw [ht.standing, hreporting, hlinked]
    split <;> exact Nat.le_of_ble_eq_true rfl
  | rest now interval deadline t hrunning hresting hdeadline ht =>
    refine left_lt hrunning ?_
    rw [ht.standing, hresting]
    exact Nat.lt_succ_self _
  | overrun now interval t hrunning hresting hnone ht =>
    refine left_lt hrunning ?_
    rw [ht.standing, hresting]
    exact Nat.le_of_ble_eq_true rfl
  | stay _ t ha ht =>
    simp only [ha, Shift.left, ht.standing]
    exact Nat.le_refl _
  | read _ m e ha hm he =>
    simp only [ha, Shift.left, (EndsAtWork.step_isReading hm he).1]
    exact Nat.le_refl _

lemma Turn.isTold (t : s.Turn rule a s') (h : s.manager.IsTold s.id) :
    s'.manager.IsTold s'.id := by
  obtain ⟨hid, hsame | ⟨act, hact⟩⟩ := t.manager
  · rwa [hid, hsame]
  · rw [hid]
    exact (Manager.turn_of_step hact).grows.isTold h

/-- A worker that was told to stop takes a bounded number of steps, whatever others do. -/
lemma Ledger.ends_soon (h : s.Ledger) (htold : s.manager.IsTold s.id)
    (hrun : s.run rule as = some s') : as.countP (·.isWork) ≤ 10 := by
  have hkept : s'.Ledger ∧ s'.manager.IsTold s'.id ∧
      s'.left + as.countP (·.isWork) ≤ s.left := by
    refine (runs rule).invariant (P := fun as u => u.Ledger ∧ u.manager.IsTold u.id ∧
      u.left + as.countP (·.isWork) ≤ s.left) ⟨h, htold, Nat.le_refl _⟩ ?_ hrun
    rintro bs b u u' - ⟨hledger, htold, hle⟩ hstep
    have t := turn_of_step hstep
    refine ⟨t.ledger hledger, t.isTold htold, ?_⟩
    have hnear := t.left hledger htold
    rw [List.countP_append, List.countP_singleton]
    omega
  exact Nat.le_trans (Nat.le_trans (Nat.le_add_left ..) hkept.2.2) s.left_le

/-- What the reader does at the queue it can do in the shift. -/
lemma run_reading {ms : List (Move TickReport)} (hms : ∀ m ∈ ms, m.isReading = true)
    {e : EndsAtWork TickReport} (h : s.ends.run ms = .ok e) (rule : TickRule σ) :
    ∃ bs, (∀ b ∈ bs, b.isReading = true) ∧ s.run rule bs = some { s with ends := e } := by
  induction ms generalizing s with
  | nil =>
    cases h
    exact ⟨[], nofun, rfl⟩
  | cons m ms ih =>
    rw [List.forall_mem_cons] at hms
    rw [EndsAtWork.run] at h
    cases hstep : s.ends.step m with
    | error f =>
      rw [hstep] at h
      cases h
    | ok d =>
      rw [hstep] at h
      obtain ⟨bs, hbs, hrun⟩ := ih (s := { s with ends := d }) hms.2 h
      have haccess : s.access m = some { s with ends := d } := by rw [Shift.access, hstep]
      cases m with
      | push | askEmpty | produce => cases hms.1
      | consume errand =>
        refine ⟨.consume errand :: bs, List.forall_mem_cons.mpr ⟨rfl, hbs⟩, ?_⟩
        rw [Shift.run, Shift.step, haccess]
        exact hrun
      | proceed =>
        refine ⟨.proceed :: bs, List.forall_mem_cons.mpr ⟨rfl, hbs⟩, ?_⟩
        rw [Shift.run, Shift.step, haccess]
        exact hrun

/-- The reader alone can receive all that was published. -/
lemma Ledger.readable (h : s.Ledger) (rule : TickRule σ) :
    ∃ bs s', (∀ b ∈ bs, b.isReading = true) ∧ s.run rule bs = some s' ∧
      s'.ends.received = s.ends.pushed := by
  obtain ⟨ms, e, hms, hrun, -, -, hall⟩ := h.queue.drains
  obtain ⟨bs, hbs, hrun⟩ := run_reading hms hrun rule
  exact ⟨bs, _, hbs, hrun, hall⟩

/-- What a tick was told is the answer before it. -/
lemma Ledger.told_at (h : s.Ledger) {k : Nat} {told : Span} {answer : Verdict Span}
    (hk : s.log.rounds[k]? = some (told, answer)) :
    (Span.ofMillis 1000 :: s.log.answers)[k]? = some told := by
  have hfst : (s.log.rounds.map Prod.fst)[k]? = some told := by
    rw [List.getElem?_map, hk, Option.map_some]
  have hlt : k < s.log.rounds.length := (List.getElem?_eq_some_iff.mp hk).1
  rwa [h.told, List.getElem?_take_of_lt hlt] at hfst

/-- A report that is out carries its number and what the tick of that number returned. -/
lemma Ledger.published (h : s.Ledger) {k : Nat} {report : TickReport}
    (hk : s.ends.pushed[k]? = some report) :
    report.number = k + 1 ∧ ∃ told, s.log.rounds[k]? = some (told, .value report.interval) := by
  obtain ⟨rest, hrest⟩ := h.course.published.1
  have hall : (TickReport.all s.log.answers)[k]? = some report := by
    rw [← hrest, List.getElem?_append_left (List.getElem?_eq_some_iff.mp hk).1, hk]
  rw [TickReport.all, List.getElem?_mapIdx, Option.map_eq_some_iff] at hall
  obtain ⟨interval, hinterval, rfl⟩ := hall
  exact ⟨rfl, h.course.answer hinterval⟩

/-! ### What callers are told -/

/-- Whoever has stopped the worker was told that its body ended like this. -/
def Tells (s : Shift σ) (v : Verdict Unit) : Prop :=
  ∀ who r, .stopped who s.id r ∈ s.manager.history → r ≠ .ok false →
    r = (v.result (s.manager.nameOf s.id)).map fun _ => true

lemma Ledger.tells (h : s.Ledger) (hanswers : s.manager.Answers) {v : Verdict Unit}
    (hended : s.ticker.standing = .ended v) : s.Tells v := by
  intro who r hr hne
  obtain ⟨u, hu, hr⟩ := (hanswers who s.id r hr).resolve_left hne
  cases hended.symm.trans (h.verdict u hu)
  exact hr

/-- Where no tick has panicked and every sleep was to end, the body has not panicked. -/
lemma Ledger.tells_value (h : s.Ledger) (hanswers : s.manager.Answers)
    (hrounds : ∀ told p, (told, .panicked p) ∉ s.log.rounds) (hsleeps : s.log.AllEnd) :
    s.Tells (.value ()) := by
  intro who r hr hne
  obtain ⟨v, hv, -⟩ := (hanswers who s.id r hr).resolve_left hne
  have hended := h.verdict v hv
  refine h.tells hanswers ?_ who r hr hne
  cases v with
  | value => exact hended
  | panicked p =>
    have hcourse := h.course
    rw [hended] at hcourse
    rcases hcourse.2 with ⟨hpanicked, -⟩ | ⟨-, -, before, interval, -, hnone, -⟩
    · have hmem : Verdict.panicked p ∈ s.log.rounds.map Prod.snd := by
        rw [hpanicked]
        simp
      obtain ⟨⟨told, answer⟩, hround, rfl⟩ := List.mem_map.mp hmem
      exact absurd hround (hrounds told p)
    · exact absurd rfl (hsleeps (interval, none) (by rw [hnone]; simp))

/-- What is known of a tick worker at any time. -/
structure Account (rule : TickRule σ) (s : Shift σ) : Prop where
  /-- The first tick is told a second, and each later one what the one before it returned. -/
  first : ∀ told answer, s.log.rounds[0]? = some (told, answer) → told = Span.ofMillis 1000
  later : ∀ k told answer, s.log.rounds[k + 1]? = some (told, answer) →
    ∃ before, s.log.rounds[k]? = some (before, .value told)
  /-- What was received is the first part of what was published, in order. -/
  received : s.ends.received <+: s.ends.pushed
  /-- The reports are numbered from one, and each carries what the tick of its number returned. -/
  published : ∀ k report, s.ends.pushed[k]? = some report → report.number = k + 1 ∧
    ∃ told, s.log.rounds[k]? = some (told, .value report.interval)
  /-- All ticks that returned are reported, but for one while its report is being pushed. -/
  counted : s.log.answers.length =
    s.ends.pushed.length + if s.ticker.standing.isReporting then 1 else 0
  /-- A tick that panicked was the last one. All before it are reported. -/
  panicked : ∀ k told p, s.log.rounds[k]? = some (told, .panicked p) →
    s.log.rounds.length = k + 1 ∧ s.ends.pushed.length = k ∧ s.Tells (.panicked p)
  /-- A tick whose answer has no deadline was the last one. It is reported, as all before it. -/
  overran : ∀ interval, (interval, none) ∈ s.log.sleeps →
    s.log.answers.getLast? = some interval ∧ s.log.rounds.length = s.ends.pushed.length ∧
      s.Tells (.panicked (.text Moment.overflow))
  faultless : (∀ told p, (told, .panicked p) ∉ s.log.rounds) →
    (∀ interval, (interval, none) ∉ s.log.sleeps) → s.Tells (.value ())
  /-- A call that has stopped the worker comes back when it is over. -/
  stopped : ∀ who r, .stopped who s.id r ∈ s.manager.history → r ≠ .ok false →
    s.manager.IsOver s.id
  /-- A call has stopped nothing only where the worker was not started yet or another call had taken
  it. -/
  denied : s.manager.Denials
  /-- When it is over, all ticks that returned are reported, and there are no more ticks and no more
  reports. -/
  settled : s.manager.IsOver s.id → s.log.answers.length = s.ends.pushed.length ∧
    ∀ bs s', s.run rule bs = some s' → s'.log = s.log ∧ s'.ends.pushed = s.ends.pushed
  /-- All that was published can be received. -/
  readable : ∃ bs s', (∀ b ∈ bs, b.isReading = true) ∧ s.run rule bs = some s' ∧
    s'.ends.received = s.ends.pushed
  /-- The worker can always go on, and once it was told to stop it has ten steps left at most. -/
  progress : s.manager.isRunning s.id = true → ∀ now, ∃ s', s.step rule (.work now) = some s'
  prompt : s.manager.IsTold s.id → ∀ bs s', s.run rule bs = some s' → bs.countP (·.isWork) ≤ 10
  /-- Who waits for a worker that has ended can go on. -/
  joinable : s.manager.isRunning s.id = false → ∀ who, s.manager.standing who = .joining s.id →
    ∃ m, s.manager.step (.proceed who) = some m

/-- However the steps of the tick worker, of the clients that stop it, of the reader of its reports
and of the application follow one another: every tick is told what the one before it returned, and
is reported once, in order, with what it returned itself. Who stops the worker is told of a panic,
and then there is no tick and no report any more, but all reports can still be read. -/
theorem ticks_reported (rule : TickRule σ) {n : Nat} {id : TaskId} {app : σ}
    {as : List (ShiftAction σ)} (h : (start n id app).run rule as = some s) :
    s.id = id ∧ s.Account rule := by
  have hledger := ledger_of_run h
  obtain ⟨hid, acts, hacts⟩ := manager_of_run h
  obtain ⟨hanswers, hdenials⟩ := Manager.stops_tell_ends hacts
  have hcourse := hledger.course
  obtain ⟨-, hcounted⟩ := hcourse.published
  refine ⟨hid, ?_⟩
  constructor
  case first => exact fun told answer hk => (Option.some.inj (hledger.told_at hk)).symm
  case later => exact fun k told answer hk => hcourse.answer (hledger.told_at hk)
  case received => simpa using hledger.queue.given_isPrefix
  case published => exact fun k report hk => hledger.published hk
  case counted => exact hcounted
  case panicked =>
    intro k told p hk
    obtain ⟨hended, hlength, hpushed⟩ := hcourse.panicked hk
    exact ⟨hlength, hpushed, hledger.tells hanswers hended⟩
  case overran =>
    intro interval hinterval
    obtain ⟨hended, hlast, hlength⟩ := hcourse.overran hinterval
    exact ⟨hlast, hlength, hledger.tells hanswers hended⟩
  case faultless =>
    intro hrounds hsleeps
    refine hledger.tells_value hanswers hrounds ?_
    rintro ⟨interval, deadline⟩ hx rfl
    exact hsleeps interval hx
  case stopped =>
    intro who r hr hne
    obtain ⟨v, hv, -⟩ := (hanswers who s.id r hr).resolve_left hne
    exact Manager.isOver_iff.mpr ⟨v, hv⟩
  case denied => exact hdenials
  case settled =>
    intro hover
    obtain ⟨v, hv⟩ := Manager.isOver_iff.mp hover
    have hended := hledger.verdict v hv
    rw [hended] at hcounted
    exact ⟨hcounted, fun bs s' hrun => run_ended hended hrun⟩
  case readable => exact hledger.readable rule
  case progress => exact hledger.progress
  case prompt => exact fun htold bs s' hrun => hledger.ends_soon htold hrun
  case joinable =>
    exact fun hover who hjoining => (Manager.books_of_run hacts).joinable hover hjoining

/-- Two answers, the first of no length, and then a panic. -/
def faltering : TickRule Nat
  | _, 0 => (.value (.ofMillis 0), 1)
  | _, 1 => (.value (.ofMillis 5), 2)
  | _, k => (.panicked (.text "lost"), k)

/-- The worker ticks until it panics, is stopped, and its reports are read. -/
def falters : List (ShiftAction Nat) := List.flatten [
  .manage (.begin 0 (.start "ticker" none)) :: List.replicate 4 (.manage (.proceed 0)),
  List.replicate 17 (.work ⟨21, by decide⟩), [.elapse],
  List.replicate 3 (.work ⟨22, by decide⟩),
  .manage (.begin 0 (.stop 0)) :: List.replicate 4 (.manage (.proceed 0)),
  .consume .pop :: List.replicate 5 .proceed, .consume .pop :: List.replicate 5 .proceed]

/-- The caller is told of the panic, and both reports are received. -/
theorem ticks_reported_faltering : ∃ s, (start 1 0 0).run faltering falters = some s ∧
    s.Account faltering ∧ s.ends.received = [⟨1, .ofMillis 0⟩, ⟨2, .ofMillis 5⟩] ∧
    s.manager.history.head? = some (.stopped 0 0 (.error (.panicked "ticker" "lost"))) := by
  obtain ⟨s, hrun, hreceived, htold⟩ : ∃ s, (start 1 0 0).run faltering falters = some s ∧
      s.ends.received = [⟨1, .ofMillis 0⟩, ⟨2, .ofMillis 5⟩] ∧
      s.manager.history.head? = some (.stopped 0 0 (.error (.panicked "ticker" "lost"))) :=
    ⟨_, rfl, rfl, rfl⟩
  exact ⟨s, hrun, (ticks_reported faltering hrun).2, hreceived, htold⟩

end Shift

end Overseer
