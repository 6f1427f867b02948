import Overseer.Application
import Overseer.Proofs.Lifecycle.Cycle
import Overseer.Proofs.Worker.Reports

/-!
# The rhythm of the tick worker

The ticks of the application follow the schedule, so the reports of the tick worker go round from
the first one on: two seconds, three and so on to six, and one second. No sleep is longer than six
seconds, and so none of them is too long for the clock unless the clock itself is about to end. A
worker that is not told to stop publishes one report after another.
-/

namespace Overseer

variable {σ : Type}

/-- Ticks return what the schedule says, whatever else they do. -/
def TickRule.FollowsSchedule (rule : TickRule σ) : Prop :=
  ∀ least app, (rule least app).1 = .value (Schedule.next least)

lemma Application.context_tick_followsSchedule : context.tick.FollowsSchedule := fun _ _ => rfl

/-- Every tick so far has returned what the schedule says. -/
def TickLog.IsOnSchedule (l : TickLog) : Prop :=
  ∀ told answer, (told, answer) ∈ l.rounds → answer = .value (Schedule.next told)

/-- All answers take a second at least and six at most. -/
lemma TickLog.IsOnSchedule.answer_mem_range {l : TickLog} (h : l.IsOnSchedule) {interval : Span}
    (hinterval : interval ∈ l.answers) : .ofSeconds 1 ≤ interval ∧ interval ≤ .ofSeconds 6 := by
  obtain ⟨⟨told, answer⟩, hround, hanswer⟩ := List.mem_filterMap.mp hinterval
  obtain rfl := h told answer hround
  obtain rfl : Schedule.next told = interval := Option.some.inj hanswer
  exact Schedule.next_mem_range told

namespace Moment

variable {m : Moment} {t : Span}

/-- The clock can still show the time six seconds later. Only in the last six seconds of its range
it cannot, and a clock that counts nanoseconds in 63 bits ends long before these. -/
def HasRoom (m : Moment) : Prop := (m.after? (.ofSeconds 6)).isSome = true

lemma isSome_after?_iff :
    (m.after? t).isSome = true ↔ m.nanos + t.nanos < 9223372036854775808 * 1000000000 := by
  unfold after?
  split
  · exact iff_of_true rfl ‹_›
  · exact iff_of_false Bool.false_ne_true ‹_›

/-- A sleep of six seconds at most ends before the clock does. -/
lemma HasRoom.isSome_after? (h : m.HasRoom) (ht : t ≤ .ofSeconds 6) :
    (m.after? t).isSome = true := by
  rw [HasRoom, isSome_after?_iff] at h
  exact isSome_after?_iff.mpr (Nat.lt_of_le_of_lt (Nat.add_le_add_left ht _) h)

/-- A clock that counts nanoseconds in 63 bits always has room. -/
lemma hasRoom_of_lt (h : m.nanos < 9223372036854775808) : m.HasRoom := by
  rw [HasRoom, isSome_after?_iff, Span.nanos_ofSeconds (by decide)]
  omega

end Moment

/-- The action is one of the tick worker's, or ends its sleep. -/
def ShiftAction.isOwn : ShiftAction σ → Bool
  | work _ | elapse => true
  | _ => false

namespace TickerAt

/-- What the tick worker itself does next. -/
def nextAction (now : Moment) : TickerAt → ShiftAction σ
  | sleeping _ => .elapse
  | _ => .work now

lemma isOwn_nextAction (now : Moment) (standing : TickerAt) :
    (standing.nextAction now : ShiftAction σ).isOwn = true := by
  cases standing <;> rfl

/-- How many of its own actions it takes a worker that stands here to publish its next report. -/
def ahead (p : ProducerAt TickReport) : TickerAt → Nat
  | reporting _ => ((p.underway?).map Prod.snd).getD 6
  | ticking => 7
  | checking => 8
  | sleeping _ => 9
  | resting _ => 10
  | ended _ => 0

end TickerAt

namespace Shift

variable {rule : TickRule σ} {s s' : Shift σ} {a : ShiftAction σ} {n : Nat} {id : TaskId} {app : σ}
  {as : List (ShiftAction σ)} {now : Moment}

/-- Whenever the worker may have looked at the clock, the clock had room. -/
def HasRoom (as : List (ShiftAction σ)) : Prop := ∀ now, .work now ∈ as → now.HasRoom

/-! ### Rounds -/

/-- A step asks at most once, and notes what the rule answers. -/
lemma rounds_of_step (h : s.step rule a = some s') : s'.log.rounds = s.log.rounds ∨
    s'.log.rounds = s.log.rounds ++
      [(s.ticker.interval, (rule s.ticker.interval s.ticker.app).1)] := by
  cases turn_of_step h with
  | tick now interval t hrunning hticking | crash now p t hrunning hticking =>
    simp only [Shift.step, hrunning, if_true, Shift.work, body, hticking] at h
    exact .inr (congrArg (fun u => u.log.rounds) (Option.some.inj h)).symm
  | _ => exact .inl rfl

lemma isOnSchedule_of_step (hrule : rule.FollowsSchedule) (h : s.log.IsOnSchedule)
    (hstep : s.step rule a = some s') : s'.log.IsOnSchedule := by
  intro told answer hround
  rcases rounds_of_step hstep with hsame | hmore
  · rw [hsame] at hround
    exact h told answer hround
  · rw [hmore, List.mem_append, List.mem_singleton] at hround
    rcases hround with hbefore | hlast
    · exact h told answer hbefore
    · cases hlast
      exact hrule _ _

namespace Ledger

/-- The rounds follow the sleeps from a second on. -/
lemma round_at (h : s.Ledger) (hon : s.log.IsOnSchedule) {k : Nat} {told : Span}
    {answer : Verdict Span} (hk : s.log.rounds[k]? = some (told, answer)) :
    answer = .value (Schedule.next^[k + 1] Schedule.fallback) := by
  have hanswer := hon told answer (List.mem_of_getElem? hk)
  have htold := h.told_at hk
  induction k generalizing told answer with
  | zero =>
    cases htold
    exact hanswer
  | succ k ih =>
    -- what this tick was told is the answer of the one before it
    obtain ⟨before, hbefore⟩ := h.course.answer htold
    have hlast := ih hbefore (hon _ _ (List.mem_of_getElem? hbefore)) (h.told_at hbefore)
    rw [Function.iterate_succ_apply', ← Verdict.value.inj hlast]
    exact hanswer

/-- The reports go round. -/
lemma report_at (h : s.Ledger) (hon : s.log.IsOnSchedule) {k : Nat} {report : TickReport}
    (hk : s.ends.pushed[k]? = some report) :
    report = ⟨k + 1, .ofSeconds (1 + (k + 1) % 6)⟩ := by
  obtain ⟨hnumber, told, hround⟩ := h.published hk
  have hinterval := (Verdict.value.inj (h.round_at hon hround)).trans
    (Schedule.iterate_fallback (k + 1))
  exact congrArg₂ TickReport.mk hnumber hinterval

/-! ### Sleeps -/

/-- The sleep that is to begin is one that the clock can show the end of. -/
lemma resting_ends (h : s.Ledger) (hon : s.log.IsOnSchedule) {interval : Span}
    (hresting : s.ticker.standing = .resting interval) (hroom : now.HasRoom) :
    (now.after? interval).isSome = true := by
  have hcourse := h.course
  rw [hresting] at hcourse
  have hrange := hon.answer_mem_range (List.mem_of_getLast? hcourse.1)
  exact hroom.isSome_after? hrange.2

/-- The body does not panic. -/
lemma not_panicked (h : s.Ledger) (hon : s.log.IsOnSchedule) (hend : s.log.AllEnd) (p : Payload) :
    s.ticker.standing ≠ .ended (.panicked p) := by
  intro hended
  have hcourse := h.course
  rw [hended] at hcourse
  rcases hcourse.2 with ⟨hrounds, -⟩ | ⟨-, -, before, interval, -, hsleeps, -⟩
  · have hlast : Verdict.panicked p ∈ s.log.rounds.map Prod.snd := by
      rw [hrounds]
      exact List.mem_append_right _ (List.mem_singleton_self _)
    obtain ⟨⟨told, answer⟩, hround, rfl⟩ := List.mem_map.mp hlast
    cases hon told _ hround
  · refine hend (interval, none) ?_ rfl
    rw [hsleeps]
    exact List.mem_append_right _ (List.mem_singleton_self _)

end Ledger

/-- Every step leaves the sleeps such that they end, if the clock allows for it. -/
lemma Turn.allEnd (t : s.Turn rule a s') (h : s.Ledger) (hon : s.log.IsOnSchedule)
    (ha : ∀ now, a = .work now → now.HasRoom) (hend : s.log.AllEnd) :
    s'.log.AllEnd := by
  cases t with
  | rest now interval deadline t hrunning hresting hdeadline =>
    exact List.forall_mem_append.mpr ⟨hend, by simp⟩
  | overrun now interval t hrunning hresting hnone =>
    have hends := h.resting_ends hon hresting (ha now rfl)
    rw [hnone] at hends
    cases hends
  | _ => exact hend

/-- What a worker whose ticks follow the schedule has at any time. -/
structure Rhythm (as : List (ShiftAction σ)) (s : Shift σ) : Prop where
  ledger : s.Ledger
  isOnSchedule : s.log.IsOnSchedule
  allEnd : HasRoom as → s.log.AllEnd

lemma rhythm_of_run (hrule : rule.FollowsSchedule) (h : (start n id app).run rule as = some s) :
    s.Rhythm as := by
  refine (runs rule).invariant (P := Rhythm) ?_ ?_ h
  · exact ⟨ledger_start n id app, nofun, fun _ => nofun⟩
  · rintro bs b u u' - ⟨hledger, hon, hend⟩ hstep
    have t := turn_of_step hstep
    refine ⟨t.ledger hledger, isOnSchedule_of_step hrule hon hstep, fun hroom => ?_⟩
    refine t.allEnd hledger hon (fun now hb => hroom now ?_) (hend fun now hmem => hroom now ?_)
    · exact List.mem_append_right _ (List.mem_singleton.mpr hb.symm)
    · exact List.mem_append_left _ hmem

/-! ### One report after another -/

/-- The worker goes on as long as nobody stops it. -/
structure IsAtWork (s : Shift σ) : Prop where
  ledger : s.Ledger
  isOnSchedule : s.log.IsOnSchedule
  allEnd : s.log.AllEnd
  running : s.manager.isRunning s.id = true
  untold : s.isTold = false

/-- How many of its own actions it takes the worker to publish its next report. -/
def ahead (s : Shift σ) : Nat := s.ticker.standing.ahead s.ends.producer

namespace IsAtWork

lemma not_ended (h : s.IsAtWork) (v : Verdict Unit) : s.ticker.standing ≠ .ended v := by
  intro hended
  cases v with
  | value =>
    have htold := isTold_iff.mpr (h.ledger.isTold hended)
    rw [h.untold] at htold
    cases htold
  | panicked p => exact h.ledger.not_panicked h.isOnSchedule h.allEnd p hended

/-- The worker wakes up and goes on. -/
lemma wakes (h : s.IsAtWork) (rule : TickRule σ) {interval : Span}
    (hsleeping : s.ticker.standing = .sleeping interval) :
    ∃ s', s.step rule .elapse = some s' ∧ s'.IsAtWork ∧
      s'.ends.pushed = s.ends.pushed ∧ s'.ahead < s.ahead := by
  have hbody : s.body.elapse = { s.body with standing := .checking } := by
    simp only [Ticker.elapse, body, hsleeping, h.untold]
    rfl
  have hstep : s.step rule .elapse = some (s.withBody { s.body with standing := .checking }) := by
    simp only [Shift.step, h.running, if_true, hbody]
  refine ⟨_, hstep, ⟨(turn_of_step hstep).ledger h.ledger, h.isOnSchedule, h.allEnd, h.running,
    h.untold⟩, rfl, ?_⟩
  rw [Shift.ahead, Shift.ahead, hsleeping]
  exact Nat.lt_succ_self _

/-- A step of a worker that is awake publishes a report or brings it nearer to one. -/
lemma nears_of_turn (h : s.IsAtWork) (hawake : ∀ interval, s.ticker.standing ≠ .sleeping interval)
    (hon : s'.log.IsOnSchedule) (hend : s'.log.AllEnd) (t : s.Turn rule (.work now) s') :
    s'.manager = s.manager ∧ s'.id = s.id ∧
      (s'.ends.pushed.length = s.ends.pushed.length + 1 ∨
        s'.ends.pushed = s.ends.pushed ∧ s'.ahead < s.ahead) := by
  cases t with
  | heed _ next t hrunning hlooks ht =>
    rw [h.untold] at ht
    refine ⟨rfl, rfl, .inr ⟨rfl, ?_⟩⟩
    rw [Shift.ahead, Shift.ahead, ht.standing]
    generalize s.ticker.standing = standing at hlooks hawake
    cases hlooks with
    | check => exact Nat.lt_succ_self _
    | doze interval => exact absurd rfl (hawake interval)
  | tick _ interval t hrunning hticking hinterval hcount hstanding =>
    have hcourse := h.ledger.course
    rw [hticking] at hcourse
    refine ⟨rfl, rfl, .inr ⟨rfl, ?_⟩⟩
    rw [Shift.ahead, Shift.ahead, hstanding, hticking, TickerAt.ahead, hcourse.1.1]
    exact Nat.lt_succ_self _
  | crash _ p t hrunning hticking ht =>
    cases hon _ _ (List.mem_append_right _ (List.mem_singleton_self _))
  | push _ interval e hrunning hreporting hidle he =>
    obtain ⟨hproducer, hpushed⟩ := EndsAtWork.step_push hidle _ he
    refine ⟨rfl, rfl, .inr ⟨hpushed, ?_⟩⟩
    rw [Shift.ahead, Shift.ahead, hreporting, hproducer, hidle]
    exact Nat.lt_succ_self _
  | produce _ interval e hrunning hreporting hidle hlinked he =>
    obtain ⟨k, hunderway⟩ := h.ledger.underway hreporting hidle
    rcases EndsAtWork.underway?_eq_some hunderway with ⟨next, hnext⟩ | ⟨j, rfl⟩
    · exact absurd hnext (hlinked _ next)
    · obtain ⟨hunderway', hpushed⟩ := EndsAtWork.produce_underway hunderway he
      refine ⟨rfl, rfl, .inr ⟨hpushed, ?_⟩⟩
      rw [Shift.ahead, Shift.ahead, hreporting, TickerAt.ahead, TickerAt.ahead, hunderway,
        hunderway']
      exact Nat.lt_succ_self _
  | publish _ interval v next e t hrunning hreporting hlinked he ht =>
    refine ⟨rfl, rfl, .inl ?_⟩
    rw [(EndsAtWork.produce_linked hlinked he).2, List.length_append, List.length_singleton]
  | rest _ interval deadline t hrunning hresting hdeadline ht =>
    refine ⟨rfl, rfl, .inr ⟨rfl, ?_⟩⟩
    rw [Shift.ahead, Shift.ahead, ht.standing, hresting]
    exact Nat.lt_succ_self _
  | overrun _ interval t hrunning hresting hnone ht =>
    exact absurd rfl (hend (interval, none) (List.mem_append_right _ (List.mem_singleton_self _)))
  | finish _ v m hrunning hended hm => exact absurd hended (h.not_ended v)
  | stay _ t ha | read _ m e ha => cases ha

/-- The next action of the worker publishes a report or brings it nearer to one. -/
lemma nears (h : s.IsAtWork) (hrule : rule.FollowsSchedule) (hroom : now.HasRoom) :
    ∃ s', s.step rule (s.ticker.standing.nextAction now) = some s' ∧ s'.IsAtWork ∧
      (s'.ends.pushed.length = s.ends.pushed.length + 1 ∨
        s'.ends.pushed = s.ends.pushed ∧ s'.ahead < s.ahead) := by
  -- asleep, the worker takes no step that brings it on, so the end of its sleep has to do it
  by_cases hasleep : ∃ interval, s.ticker.standing = .sleeping interval
  · obtain ⟨interval, hsleeping⟩ := hasleep
    obtain ⟨s', hstep, hwork, hnearer⟩ := h.wakes rule hsleeping
    rw [hsleeping]
    exact ⟨s', hstep, hwork, .inr hnearer⟩
  · have hawake : ∀ interval, s.ticker.standing ≠ .sleeping interval := not_exists.mp hasleep
    have hnext : s.ticker.standing.nextAction now = (.work now : ShiftAction σ) := by
      cases hstanding : s.ticker.standing with
      | sleeping interval => exact absurd hstanding (hawake interval)
      | _ => rfl
    obtain ⟨s', hstep⟩ := h.ledger.progress h.running now
    have t := turn_of_step hstep
    have hon := isOnSchedule_of_step hrule h.isOnSchedule hstep
    have hend : s'.log.AllEnd := by
      refine t.allEnd h.ledger h.isOnSchedule ?_ h.allEnd
      rintro _ ⟨⟩
      exact hroom
    obtain ⟨hmanager, hid, hnearer⟩ := h.nears_of_turn hawake hon hend t
    rw [hnext]
    refine ⟨s', hstep, ⟨t.ledger h.ledger, hon, hend, ?_, ?_⟩, hnearer⟩
    · rw [hmanager, hid]
      exact h.running
    · rw [Shift.isTold, hmanager, hid]
      exact h.untold

/-- The worker alone comes to publish its next report. -/
lemma publishes (h : s.IsAtWork) (hrule : rule.FollowsSchedule) (hroom : now.HasRoom) :
    ∃ bs s', (∀ b ∈ bs, b.isOwn = true) ∧ s.run rule bs = some s' ∧ s'.IsAtWork ∧
      s'.ends.pushed.length = s.ends.pushed.length + 1 := by
  induction hahead : s.ahead using Nat.strong_induction_on generalizing s with
  | h k ih =>
    obtain ⟨u, hstep, hwork, hnearer⟩ := h.nears hrule hroom
    have hown : (s.ticker.standing.nextAction now : ShiftAction σ).isOwn = true :=
      TickerAt.isOwn_nextAction now s.ticker.standing
    rcases hnearer with hone | ⟨hsame, hlt⟩
    · refine ⟨[s.ticker.standing.nextAction now], u, List.forall_mem_singleton.mpr hown, ?_, hwork,
        hone⟩
      rw [Shift.run, hstep]
      rfl
    · obtain ⟨bs, s', hbs, hrun, hwork', hone⟩ := ih _ (hahead ▸ hlt) hwork rfl
      refine ⟨s.ticker.standing.nextAction now :: bs, s', List.forall_mem_cons.mpr ⟨hown, hbs⟩, ?_,
        hwork', ?_⟩
      · rw [Shift.run, hstep]
        exact hrun
      · rw [hone, hsame]

/-- The worker alone publishes as many more reports as may be wanted. -/
lemma publishes_many (h : s.IsAtWork) (hrule : rule.FollowsSchedule) (hroom : now.HasRoom)
    (m : Nat) :
    ∃ bs s', (∀ b ∈ bs, b.isOwn = true) ∧ s.run rule bs = some s' ∧
      s'.ends.pushed.length = s.ends.pushed.length + m := by
  induction m generalizing s with
  | zero => exact ⟨[], s, nofun, rfl, rfl⟩
  | succ m ih =>
    obtain ⟨bs, u, hbs, hrun, hwork, hone⟩ := h.publishes hrule hroom
    obtain ⟨cs, s', hcs, hrun', hmore⟩ := ih hwork
    refine ⟨bs ++ cs, s', List.forall_mem_append.mpr ⟨hbs, hcs⟩, ?_, by omega⟩
    rw [(runs rule).append, hrun]
    exact hrun'

end IsAtWork

/-- What is known at any time of a tick worker that serves the application. -/
structure GoesRound (as : List (ShiftAction Site)) (s : Shift Site) : Prop where
  /-- The reports are numbered from one, and the one numbered `k` is on `1 + k % 6` seconds. -/
  published : ∀ (k : Nat) (report : TickReport), s.ends.pushed[k]? = some report →
    report = ⟨k + 1, .ofSeconds (1 + (k + 1) % 6)⟩
  /-- No sleep is too long for the clock. -/
  deadlines : HasRoom as → ∀ interval, (interval, none) ∉ s.log.sleeps
  /-- The worker has not panicked, and nobody who has stopped it was told that it has. -/
  sound : HasRoom as → (∀ p, s.ticker.standing ≠ .ended (.panicked p)) ∧ s.Tells (.value ())
  /-- Unless it is told to stop, it publishes as many more reports as may be wanted. -/
  steady : HasRoom as → s.manager.isRunning s.id = true → ¬s.manager.IsTold s.id →
    ∀ now : Moment, now.HasRoom → ∀ m, ∃ bs s',
      (∀ b ∈ bs, b.isOwn = true) ∧ s.run Application.context.tick bs = some s' ∧
        s'.ends.pushed.length = s.ends.pushed.length + m

/-- Whatever sleep it starts from, the schedule stays between one second and six, and from the
sixth sleep on it goes round in whole seconds. A worker that starts from a second and serves the
application goes round from its first report on, and its sleeps are never too long for the clock. -/
theorem ticks_go_round (d : Span) {n : Nat} {id : TaskId} {site : Site}
    {as : List (ShiftAction Site)} {s : Shift Site}
    (h : (start n id site).run Application.context.tick as = some s) :
    Schedule.Settles d ∧ s.GoesRound as := by
  have hrule := Application.context_tick_followsSchedule
  obtain ⟨hledger, hon, hend⟩ := rhythm_of_run hrule h
  obtain ⟨-, acts, hacts⟩ := manager_of_run h
  obtain ⟨hanswers, -⟩ := Manager.stops_tell_ends hacts
  refine ⟨Schedule.settles d, ?_⟩
  constructor
  case published => exact fun k report hk => hledger.report_at hon hk
  case deadlines => exact fun hroom interval hmem => hend hroom _ hmem rfl
  case sound =>
    intro hroom
    refine ⟨hledger.not_panicked hon (hend hroom), hledger.tells_value hanswers ?_ (hend hroom)⟩
    intro told p hround
    cases hon told _ hround
  case steady =>
    intro hroom hrunning huntold now hnow m
    have huntold' : s.isTold = false := by
      rw [← Bool.not_eq_true, isTold_iff]
      exact huntold
    exact IsAtWork.publishes_many ⟨hledger, hon, hend hroom, hrunning, huntold'⟩ hrule hnow m

/-- The worker is started and ticks seven times. -/
def sevenTicks : List (ShiftAction Site) :=
  .manage (.begin 0 (.start "ticker" none)) :: List.replicate 4 (.manage (.proceed 0)) ++
    (List.replicate 7 (List.replicate 9 (.work ⟨41, by decide⟩) ++ [.elapse])).flatten

/-- The reports have gone round once, and six thousand more can follow. -/
theorem ticks_go_round_seven : ∃ s,
    (start 1 0 {}).run Application.context.tick sevenTicks = some s ∧
    Schedule.Settles .longest ∧ s.GoesRound sevenTicks ∧ HasRoom sevenTicks ∧
    s.ends.pushed.map (·.interval.seconds) = [2, 3, 4, 5, 6, 1, 2] ∧
    ∃ bs s', s.run Application.context.tick bs = some s' ∧ s'.ends.pushed.length = 6007 := by
  obtain ⟨s, hrun, hpushed, hrunning, huntold⟩ : ∃ s,
      (start 1 0 {}).run Application.context.tick sevenTicks = some s ∧
      s.ends.pushed.map (·.interval.seconds) = [2, 3, 4, 5, 6, 1, 2] ∧
      s.manager.isRunning s.id = true ∧ s.isTold = false :=
    ⟨_, rfl, rfl, rfl, rfl⟩
  have hearly : Moment.HasRoom ⟨41, by decide⟩ := Moment.hasRoom_of_lt (by decide)
  have hroom : HasRoom sevenTicks := by
    intro now hnow
    obtain rfl : now = ⟨41, by decide⟩ := by simpa [sevenTicks] using hnow
    exact hearly
  obtain ⟨hsettles, hround⟩ := ticks_go_round .longest hrun
  have huntold' : ¬s.manager.IsTold s.id := by
    rw [← isTold_iff, huntold]
    exact Bool.false_ne_true
  have hlength : s.ends.pushed.length = 7 := by simpa using congrArg List.length hpushed
  obtain ⟨bs, s', -, hrun', hmore⟩ := hround.steady hroom hrunning huntold' _ hearly 6000
  rw [hlength] at hmore
  exact ⟨s, hrun, hsettles, hround, hroom, hpushed, bs, s', hrun', hmore⟩

end Shift

end Overseer
