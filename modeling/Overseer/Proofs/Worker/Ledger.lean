import Overseer.Proofs.Queue.Progress
import Overseer.Proofs.Worker.Stops
import Overseer.Worker.Shift

/-!
# The ledger of the tick worker

`Shift.Turn` says once what a step can do. `Ledger` is the invariant: what was told, answered and
pushed so far, as it goes with where the body stands. It holds whatever the clients of the manager,
the reader of the reports and the application do in between.
-/

namespace Overseer

variable {σ : Type}

/-- The reports on ticks that returned these durations. -/
def TickReport.all (intervals : List Span) : List TickReport :=
  intervals.mapIdx fun k interval => ⟨k + 1, interval⟩

lemma TickReport.all_concat (intervals : List Span) (interval : Span) :
    all (intervals ++ [interval]) = all intervals ++ [⟨intervals.length + 1, interval⟩] := by
  rw [all, List.mapIdx_concat, all]

lemma TickReport.length_all (intervals : List Span) : (all intervals).length = intervals.length :=
  List.length_mapIdx

/-- The next tick is told the last answer. -/
lemma take_concat_last {first last : Span} {answers : List Span}
    (h : (first :: answers).getLast? = some last) :
    (first :: answers).take answers.length ++ [last] = first :: answers := by
  rw [List.getLast?_eq_some_iff] at h
  obtain ⟨front, hfront⟩ := h
  have hlength : answers.length = front.length := by simpa using congrArg List.length hfront
  rw [hfront, hlength, List.take_left]

/-- The action is a step of the tick worker. -/
def ShiftAction.isWork : ShiftAction σ → Bool
  | work _ => true
  | _ => false

/-- The action is one of the reader's. -/
def ShiftAction.isReading : ShiftAction σ → Bool
  | consume _ | proceed => true
  | _ => false

namespace TickLog

/-- The durations that the ticks returned, in order. -/
def answers (l : TickLog) : List Span :=
  l.rounds.filterMap fun round =>
    match round.2 with
    | .value interval => some interval
    | .panicked _ => none

/-- Every tick has returned. -/
def AllReturned (l : TickLog) : Prop := l.rounds.map Prod.snd = l.answers.map .value

/-- Every sleep was to end some time. -/
def AllEnd (l : TickLog) : Prop := ∀ x ∈ l.sleeps, x.2 ≠ none

lemma answers_value (l : TickLog) (told interval : Span) :
    ({ l with rounds := l.rounds ++ [(told, .value interval)] } : TickLog).answers =
      l.answers ++ [interval] := by
  simp [answers]

lemma answers_panicked (l : TickLog) (told : Span) (p : Payload) :
    ({ l with rounds := l.rounds ++ [(told, .panicked p)] } : TickLog).answers = l.answers := by
  simp [answers]

lemma AllReturned.length {l : TickLog} (h : l.AllReturned) :
    l.rounds.length = l.answers.length := by
  simpa using congrArg List.length h

/-- What was done when the body ends like this. -/
def EndsWith (l : TickLog) : Verdict Unit → Prop
  | .value () => l.AllReturned ∧ l.AllEnd
  | .panicked p =>
    l.rounds.map Prod.snd = l.answers.map .value ++ [.panicked p] ∧ l.AllEnd ∨
      p = .text Moment.overflow ∧ l.AllReturned ∧ ∃ before interval,
        l.answers.getLast? = some interval ∧ l.sleeps = before ++ [(interval, none)] ∧
          ∀ x ∈ before, x.2 ≠ none

/-- What the ticks returned is out, and nothing else. -/
def IsOut (l : TickLog) (e : EndsAtWork TickReport) : Prop :=
  e.producer = .idle ∧ e.pushed = TickReport.all l.answers

/-- What goes with where the body stands. -/
def Course (l : TickLog) (e : EndsAtWork TickReport) : TickerAt → Prop
  | .checking | .ticking | .sleeping _ => l.IsOut e ∧ l.AllReturned ∧ l.AllEnd
  | .reporting interval => (∃ before, l.answers = before ++ [interval] ∧
      e.pushed = TickReport.all before) ∧ (e.producer = .idle ∨
        ∃ k, e.producer.underway? = some (⟨l.answers.length, interval⟩, k)) ∧
      l.AllReturned ∧ l.AllEnd
  | .resting interval => l.answers.getLast? = some interval ∧ l.IsOut e ∧ l.AllReturned ∧ l.AllEnd
  | .ended v => l.IsOut e ∧ l.EndsWith v

/-- The course depends on the queue by what was pushed and by the push under way. -/
lemma Course.congr {l : TickLog} {e e' : EndsAtWork TickReport} {standing : TickerAt}
    (h : l.Course e standing) (hproducer : e'.producer = e.producer)
    (hpushed : e'.pushed = e.pushed) : l.Course e' standing := by
  cases standing <;> simpa only [Course, IsOut, hproducer, hpushed] using h

end TickLog

/-- Where the body looks at its flag, and where it goes on if the flag is not set. -/
inductive TickerAt.Looks : TickerAt → ShiftAction σ → TickerAt → Prop where
  | check (now : Moment) : Looks .checking (.work now) .ticking
  | doze (interval : Span) (now : Moment) :
      Looks (.sleeping interval) (.work now) (.sleeping interval)
  | wake (interval : Span) : Looks (.sleeping interval) .elapse .checking

namespace Shift

variable {rule : TickRule σ} {s s' : Shift σ} {a : ShiftAction σ} {n : Nat} {id : TaskId} {app : σ}
  {as : List (ShiftAction σ)}

lemma runs (rule : TickRule σ) : Runs (step rule) (run rule) where
  nil _ := rfl
  cons _ _ _ := rfl

/-! ### What the steps can do -/

/-- The body moves on, and the application has no part in it. -/
structure Moves (s : Shift σ) (t : Ticker σ) (standing : TickerAt) : Prop where
  interval : t.interval = s.ticker.interval
  count : t.count = s.ticker.count
  standing : t.standing = standing

/-- What the steps can do. -/
inductive Turn (rule : TickRule σ) (s : Shift σ) : ShiftAction σ → Shift σ → Prop where
  | manage (act m) (hadmits : s.admits act = true) (hm : s.manager.step act = some m) :
      Turn rule s (.manage act) { s with manager := m }
  | heed (a next t) (hrunning : s.manager.isRunning s.id = true)
      (hlooks : s.ticker.standing.Looks a next)
      (ht : s.Moves t (if s.isTold then .ended (.value ()) else next)) :
      Turn rule s a { s with ticker := t }
  | tick (now interval t) (hrunning : s.manager.isRunning s.id = true)
      (hticking : s.ticker.standing = .ticking) (hinterval : t.interval = interval)
      (hcount : t.count = s.ticker.count + 1) (hstanding : t.standing = .reporting interval) :
      Turn rule s (.work now) { s with
        ticker := t
        log := { s.log with rounds := s.log.rounds ++ [(s.ticker.interval, .value interval)] } }
  | crash (now p t) (hrunning : s.manager.isRunning s.id = true)
      (hticking : s.ticker.standing = .ticking) (ht : s.Moves t (.ended (.panicked p))) :
      Turn rule s (.work now) { s with
        ticker := t
        log := { s.log with rounds := s.log.rounds ++ [(s.ticker.interval, .panicked p)] } }
  | push (now interval e) (hrunning : s.manager.isRunning s.id = true)
      (hreporting : s.ticker.standing = .reporting interval) (hidle : s.ends.producer = .idle)
      (he : s.ends.step (.push ⟨s.ticker.count, interval⟩) = .ok e) :
      Turn rule s (.work now) { s with ends := e }
  | produce (now interval e) (hrunning : s.manager.isRunning s.id = true)
      (hreporting : s.ticker.standing = .reporting interval) (hidle : s.ends.producer ≠ .idle)
      (hlinked : ∀ v next, s.ends.producer ≠ .linked v next) (he : s.ends.step .produce = .ok e) :
      Turn rule s (.work now) { s with ends := e }
  | publish (now interval v next e t) (hrunning : s.manager.isRunning s.id = true)
      (hreporting : s.ticker.standing = .reporting interval)
      (hlinked : s.ends.producer = .linked v next) (he : s.ends.step .produce = .ok e)
      (ht : s.Moves t (if interval.nanos = 0 then .checking else .resting interval)) :
      Turn rule s (.work now) { s with ends := e, ticker := t }
  | rest (now interval deadline t) (hrunning : s.manager.isRunning s.id = true)
      (hresting : s.ticker.standing = .resting interval)
      (hdeadline : now.after? interval = some deadline) (ht : s.Moves t (.sleeping interval)) :
      Turn rule s (.work now) { s with
        ticker := t
        log := { s.log with sleeps := s.log.sleeps ++ [(interval, some deadline)] } }
  | overrun (now interval t) (hrunning : s.manager.isRunning s.id = true)
      (hresting : s.ticker.standing = .resting interval) (hnone : now.after? interval = none)
      (ht : s.Moves t (.ended (.panicked (.text Moment.overflow)))) :
      Turn rule s (.work now) { s with
        ticker := t
        log := { s.log with sleeps := s.log.sleeps ++ [(interval, none)] } }
  | finish (now v m) (hrunning : s.manager.isRunning s.id = true)
      (hended : s.ticker.standing = .ended v) (hm : s.manager.step (.finish s.id v) = some m) :
      Turn rule s (.work now) { s with manager := m }
  | stay (a t) (ha : a.isWork = false) (ht : s.Moves t s.ticker.standing) :
      Turn rule s a { s with ticker := t }
  | read (a m e) (ha : a.isWork = false) (hm : m.isReading = true) (he : s.ends.step m = .ok e) :
      Turn rule s a { s with ends := e }

lemma access_eq_some {m : Move TickReport} (h : s.access m = some s') :
    ∃ e, s.ends.step m = .ok e ∧ s' = { s with ends := e } := by
  unfold access at h
  split at h <;> cases h
  exact ⟨_, ‹_›, rfl⟩

lemma turn_of_publish {now : Moment} {interval : Span}
    (hrunning : s.manager.isRunning s.id = true)
    (hreporting : s.ticker.standing = .reporting interval)
    (h : s.publish rule now interval = some s') : s.Turn rule (.work now) s' := by
  unfold Shift.publish at h
  split at h
  · obtain ⟨e, he, rfl⟩ := access_eq_some h
    exact .push now interval e hrunning hreporting ‹_› he
  · obtain ⟨u, hu, rfl⟩ := Option.map_eq_some_iff.mp h
    obtain ⟨e, he, rfl⟩ := access_eq_some hu
    refine .publish now interval _ _ e _ hrunning hreporting ‹_› he ?_
    simp only [Ticker.work, body, hreporting]
    exact ⟨rfl, rfl, rfl⟩
  · obtain ⟨e, he, rfl⟩ := access_eq_some h
    exact .produce now interval e hrunning hreporting ‹_› ‹_› he

lemma turn_of_work {now : Moment} (hrunning : s.manager.isRunning s.id = true)
    (h : s.work rule now = some s') : s.Turn rule (.work now) s' := by
  cases hstanding : s.ticker.standing with
  | checking =>
    simp only [Shift.work, body, hstanding, Ticker.work] at h
    cases h
    exact .heed _ .ticking _ hrunning (by rw [hstanding]; exact .check now) ⟨rfl, rfl, rfl⟩
  | ticking =>
    simp only [Shift.work, body, hstanding, Ticker.work] at h
    cases hanswer : rule s.ticker.interval s.ticker.app with
    | mk answer app =>
      rw [hanswer] at h
      cases answer with
      | value interval =>
        cases h
        exact .tick now interval _ hrunning hstanding rfl rfl rfl
      | panicked p =>
        cases h
        exact .crash now p _ hrunning hstanding ⟨rfl, rfl, rfl⟩
  | reporting interval =>
    simp only [Shift.work, body, hstanding] at h
    exact turn_of_publish hrunning hstanding h
  | resting interval =>
    simp only [Shift.work, body, hstanding, Ticker.work] at h
    cases hdeadline : now.after? interval with
    | some deadline =>
      rw [hdeadline] at h
      cases h
      exact .rest now interval deadline _ hrunning hstanding hdeadline ⟨rfl, rfl, rfl⟩
    | none =>
      rw [hdeadline] at h
      cases h
      exact .overrun now interval _ hrunning hstanding hdeadline ⟨rfl, rfl, rfl⟩
  | sleeping interval =>
    simp only [Shift.work, body, hstanding, Ticker.work] at h
    cases h
    refine .heed _ (.sleeping interval) _ hrunning (by rw [hstanding]; exact .doze interval now) ?_
    cases s.isTold <;> exact ⟨rfl, rfl, rfl⟩
  | ended v =>
    simp only [Shift.work, body, hstanding] at h
    obtain ⟨m, hm, rfl⟩ := Option.map_eq_some_iff.mp h
    exact .finish now v m hrunning hstanding hm

/-- A step that can be taken is one of the turns. -/
lemma turn_of_step (h : s.step rule a = some s') : s.Turn rule a s' := by
  cases a with
  | manage act =>
    simp only [Shift.step] at h
    split at h
    · obtain ⟨m, hm, rfl⟩ := Option.map_eq_some_iff.mp h
      exact .manage act m ‹_› hm
    · cases h
  | work now =>
    simp only [Shift.step] at h
    split at h
    · exact turn_of_work ‹_› h
    · cases h
  | elapse =>
    simp only [Shift.step] at h
    split at h <;> cases h
    cases hstanding : s.ticker.standing with
    | sleeping interval =>
      refine .heed _ .checking _ ‹_› (by rw [hstanding]; exact .wake interval) ?_
      simp only [Ticker.elapse, body, hstanding]
      exact ⟨rfl, rfl, rfl⟩
    | _ =>
      have hstay : s.body.elapse = s.body := by simp only [Ticker.elapse, body, hstanding]
      rw [hstay]
      exact .stay _ _ rfl ⟨rfl, rfl, rfl⟩
  | consume errand =>
    obtain ⟨e, he, rfl⟩ := access_eq_some h
    exact .read _ (.consume errand) e rfl rfl he
  | proceed =>
    obtain ⟨e, he, rfl⟩ := access_eq_some h
    exact .read _ .proceed e rfl rfl he
  | alter app =>
    cases h
    exact .stay _ _ rfl ⟨rfl, rfl, rfl⟩

/-! ### The ledger -/

/-- What is so at any time. -/
structure Ledger (s : Shift σ) : Prop where
  queue : s.ends.Coherent [] []
  told : s.log.rounds.map Prod.fst =
    (Span.ofMillis 1000 :: s.log.answers).take s.log.rounds.length
  interval : (Span.ofMillis 1000 :: s.log.answers).getLast? = some s.ticker.interval
  count : s.ticker.count = s.log.answers.length
  course : s.log.Course s.ends s.ticker.standing
  /-- The thread ends with what the body has ended with. -/
  verdict : ∀ v, s.manager.verdict? s.id = some v → s.ticker.standing = .ended v
  /-- Without a panic the body ends because it was told to. -/
  isTold : s.ticker.standing = .ended (.value ()) → s.manager.IsTold s.id

lemma isTold_iff : s.isTold = true ↔ s.manager.IsTold s.id := by
  rw [Shift.isTold, Option.any_eq_true]
  rfl

lemma verdict?_ne_of_isRunning (h : s.manager.isRunning s.id = true) (v : Verdict Unit) :
    s.manager.verdict? s.id ≠ some v := by
  intro hv
  rw [Manager.not_isRunning_of_verdict? hv] at h
  cases h

namespace Ledger

lemma manage (h : s.Ledger) {act : ManagerAction} {m : Manager} (hadmits : s.admits act = true)
    (hm : s.manager.step act = some m) : ({ s with manager := m } : Shift σ).Ledger := by
  have t := Manager.turn_of_step hm
  have hact (v : Verdict Unit) : act ≠ .finish s.id v := by
    rintro rfl
    simp [admits] at hadmits
  exact {
    queue := h.queue
    told := h.told
    interval := h.interval
    count := h.count
    course := h.course
    verdict := fun v hv => h.verdict v (t.verdict? hact hv)
    isTold := fun hv => t.grows.isTold (h.isTold hv) }

/-- The thread ends with what the body has ended with. -/
lemma finish (h : s.Ledger) {v : Verdict Unit} (hended : s.ticker.standing = .ended v)
    {m : Manager} (hm : s.manager.step (.finish s.id v) = some m) :
    ({ s with manager := m } : Shift σ).Ledger where
  queue := h.queue
  told := h.told
  interval := h.interval
  count := h.count
  course := h.course
  verdict u hu := by
    cases (Manager.verdict?_of_finish hm).symm.trans hu
    exact hended
  isTold hvalue := (Manager.turn_of_step hm).grows.isTold (h.isTold hvalue)

/-- The body goes on, maybe with an access to the queue or with a sleep. -/
lemma move (h : s.Ledger) {t : Ticker σ} {e : EndsAtWork TickReport} {l : TickLog}
    {standing : TickerAt} (ht : s.Moves t standing) (hqueue : e.Coherent [] [])
    (hrounds : l.rounds = s.log.rounds) (hcourse : l.Course e standing)
    (hverdict : ∀ v, s.manager.verdict? s.id = some v → standing = .ended v)
    (htold : standing = .ended (.value ()) → s.manager.IsTold s.id) :
    ({ s with ticker := t, ends := e, log := l } : Shift σ).Ledger := by
  have hanswers : l.answers = s.log.answers := by rw [TickLog.answers, hrounds, TickLog.answers]
  refine ⟨hqueue, ?_, ?_, ?_, ?_, ?_, ?_⟩
  · rw [hrounds, hanswers]
    exact h.told
  · rw [hanswers, ht.interval]
    exact h.interval
  · rw [hanswers, ht.count]
    exact h.count
  · rw [ht.standing]
    exact hcourse
  · rw [ht.standing]
    exact hverdict
  · rw [ht.standing]
    exact htold

/-- The body goes on by a step of its own, so its thread has not ended. -/
lemma advance (h : s.Ledger) (hrunning : s.manager.isRunning s.id = true) {t : Ticker σ}
    {e : EndsAtWork TickReport} {l : TickLog} {standing : TickerAt} (ht : s.Moves t standing)
    (hqueue : e.Coherent [] []) (hrounds : l.rounds = s.log.rounds) (hcourse : l.Course e standing)
    (htold : standing = .ended (.value ()) → s.manager.IsTold s.id) :
    ({ s with ticker := t, ends := e, log := l } : Shift σ).Ledger :=
  h.move ht hqueue hrounds hcourse
    (fun v hv => absurd hv (verdict?_ne_of_isRunning hrunning v)) htold

/-- Who looks at the flag has nothing to report. -/
lemma of_looks (h : s.Ledger) {next : TickerAt} (hlooks : s.ticker.standing.Looks a next) :
    (s.log.IsOut s.ends ∧ s.log.AllReturned ∧ s.log.AllEnd) ∧ s.log.Course s.ends next ∧
      next ≠ .ended (.value ()) := by
  have hcourse := h.course
  generalize s.ticker.standing = standing at hlooks hcourse
  cases hlooks <;> exact ⟨hcourse, hcourse, nofun⟩

lemma heed (h : s.Ledger) (hrunning : s.manager.isRunning s.id = true) {next : TickerAt}
    (hlooks : s.ticker.standing.Looks a next) {t : Ticker σ}
    (ht : s.Moves t (if s.isTold then .ended (.value ()) else next)) :
    ({ s with ticker := t } : Shift σ).Ledger := by
  obtain ⟨hclear, hnext, hne⟩ := h.of_looks hlooks
  cases htold : s.isTold with
  | true =>
    rw [htold] at ht
    exact h.advance hrunning ht h.queue rfl hclear fun _ => isTold_iff.mp htold
  | false =>
    rw [htold] at ht
    exact h.advance hrunning ht h.queue rfl hnext fun hvalue => absurd hvalue hne

/-- The next tick is told the last answer. -/
lemma told_next (h : s.Ledger) (hreturned : s.log.AllReturned) :
    s.log.rounds.map Prod.fst ++ [s.ticker.interval] = Span.ofMillis 1000 :: s.log.answers := by
  rw [h.told, hreturned.length]
  exact take_concat_last h.interval

lemma tick (h : s.Ledger) (hrunning : s.manager.isRunning s.id = true)
    (hticking : s.ticker.standing = .ticking) {t : Ticker σ} {interval : Span}
    (hinterval : t.interval = interval) (hcount : t.count = s.ticker.count + 1)
    (hstanding : t.standing = .reporting interval) :
    ({ s with
      ticker := t
      log := { s.log with rounds := s.log.rounds ++ [(s.ticker.interval, .value interval)] } } :
        Shift σ).Ledger := by
  have hverdict := verdict?_ne_of_isRunning hrunning
  have hcourse := h.course
  rw [hticking] at hcourse
  obtain ⟨⟨hproducer, hpushed⟩, hreturned, hend⟩ := hcourse
  have hanswers := s.log.answers_value s.ticker.interval interval
  refine ⟨h.queue, ?_, ?_, ?_, ?_, fun v hv => absurd hv (hverdict v), ?_⟩
  · rw [hanswers, List.map_append, List.length_append, hreturned.length]
    have hall : (Span.ofMillis 1000 :: s.log.answers ++ [interval]).take
        (s.log.answers.length + 1) = Span.ofMillis 1000 :: s.log.answers := List.take_left' rfl
    exact (h.told_next hreturned).trans hall.symm
  · rw [hanswers, ← List.cons_append, List.getLast?_concat, hinterval]
  · rw [hanswers, List.length_append, ← h.count]
    exact hcount
  · rw [hstanding]
    refine ⟨⟨_, hanswers, hpushed⟩, .inl hproducer, ?_, hend⟩
    rw [TickLog.AllReturned, hanswers, List.map_append, List.map_append, hreturned]
    rfl
  · rw [hstanding]
    nofun

lemma crash (h : s.Ledger) (hrunning : s.manager.isRunning s.id = true)
    (hticking : s.ticker.standing = .ticking) {t : Ticker σ} {p : Payload}
    (ht : s.Moves t (.ended (.panicked p))) :
    ({ s with
      ticker := t
      log := { s.log with rounds := s.log.rounds ++ [(s.ticker.interval, .panicked p)] } } :
        Shift σ).Ledger := by
  have hverdict := verdict?_ne_of_isRunning hrunning
  have hcourse := h.course
  rw [hticking] at hcourse
  obtain ⟨⟨hproducer, hpushed⟩, hreturned, hend⟩ := hcourse
  have hanswers := s.log.answers_panicked s.ticker.interval p
  refine ⟨h.queue, ?_, ?_, ?_, ?_, fun v hv => absurd hv (hverdict v), ?_⟩
  · rw [hanswers, List.map_append, List.length_append, hreturned.length]
    exact (h.told_next hreturned).trans
      (List.take_length (l := Span.ofMillis 1000 :: s.log.answers)).symm
  · rw [hanswers, ht.interval]
    exact h.interval
  · rw [hanswers, ht.count]
    exact h.count
  · rw [ht.standing]
    refine ⟨⟨hproducer, by rwa [hanswers]⟩, .inl ⟨?_, hend⟩⟩
    rw [hanswers, List.map_append, hreturned]
    rfl
  · rw [ht.standing]
    nofun

/-- The push of a report goes on. -/
lemma access (h : s.Ledger) {interval : Span} (hreporting : s.ticker.standing = .reporting interval)
    {e : EndsAtWork TickReport} {m : Move TickReport} {k : Nat} (he : s.ends.step m = .ok e)
    (hunderway : e.producer.underway? = some (⟨s.log.answers.length, interval⟩, k))
    (hsame : e.pushed = s.ends.pushed) : ({ s with ends := e } : Shift σ).Ledger := by
  have hcourse := h.course
  rw [hreporting] at hcourse
  obtain ⟨⟨before, hanswers, hpushed⟩, -, hreturned, hend⟩ := hcourse
  refine h.move ⟨rfl, rfl, rfl⟩ (h.queue.of_step he) rfl ?_ h.verdict h.isTold
  rw [hreporting]
  exact ⟨⟨before, hanswers, hsame.trans hpushed⟩, .inr ⟨k, hunderway⟩, hreturned, hend⟩

lemma push (h : s.Ledger) {interval : Span} (hreporting : s.ticker.standing = .reporting interval)
    (hidle : s.ends.producer = .idle) {e : EndsAtWork TickReport}
    (he : s.ends.step (.push ⟨s.ticker.count, interval⟩) = .ok e) :
    ({ s with ends := e } : Shift σ).Ledger := by
  obtain ⟨hpushing, hsame⟩ := EndsAtWork.step_push hidle _ he
  exact h.access (k := 5) hreporting he (by rw [hpushing, h.count]; rfl) hsame

/-- What the producer is at while a report is pushed. -/
lemma underway (h : s.Ledger) {interval : Span}
    (hreporting : s.ticker.standing = .reporting interval) (hidle : s.ends.producer ≠ .idle) :
    ∃ k, s.ends.producer.underway? = some (⟨s.log.answers.length, interval⟩, k) := by
  have hcourse := h.course
  rw [hreporting] at hcourse
  exact hcourse.2.1.resolve_left hidle

lemma produce (h : s.Ledger) {interval : Span}
    (hreporting : s.ticker.standing = .reporting interval) (hidle : s.ends.producer ≠ .idle)
    (hlinked : ∀ v next, s.ends.producer ≠ .linked v next) {e : EndsAtWork TickReport}
    (he : s.ends.step .produce = .ok e) : ({ s with ends := e } : Shift σ).Ledger := by
  obtain ⟨k, hunderway⟩ := h.underway hreporting hidle
  rcases EndsAtWork.underway?_eq_some hunderway with ⟨next, hnext⟩ | ⟨j, rfl⟩
  · exact absurd hnext (hlinked _ next)
  · obtain ⟨hunderway', hsame⟩ := EndsAtWork.produce_underway hunderway he
    exact h.access hreporting he hunderway' hsame

/-- The report is out. -/
lemma publish (h : s.Ledger) (hrunning : s.manager.isRunning s.id = true) {interval : Span}
    (hreporting : s.ticker.standing = .reporting interval) {v : TickReport} {next : Nat}
    (hlinked : s.ends.producer = .linked v next) {e : EndsAtWork TickReport}
    (he : s.ends.step .produce = .ok e) {t : Ticker σ}
    (ht : s.Moves t (if interval.nanos = 0 then .checking else .resting interval)) :
    ({ s with ends := e, ticker := t } : Shift σ).Ledger := by
  obtain ⟨k, hunderway⟩ := h.underway hreporting (by rw [hlinked]; nofun)
  have hcourse := h.course
  rw [hreporting] at hcourse
  obtain ⟨⟨before, hanswers, hpushed⟩, -, hreturned, hend⟩ := hcourse
  have hv : v = ⟨s.log.answers.length, interval⟩ := by
    rw [hlinked] at hunderway
    exact congrArg Prod.fst (Option.some.inj hunderway)
  obtain ⟨hidle, hout⟩ := EndsAtWork.produce_linked hlinked he
  have hall : e.pushed = TickReport.all s.log.answers := by
    rw [hout, hpushed, hv, hanswers, TickReport.all_concat, List.length_append,
      List.length_singleton]
  by_cases hzero : interval.nanos = 0
  · rw [if_pos hzero] at ht
    exact h.advance hrunning ht (h.queue.of_step he) rfl ⟨⟨hidle, hall⟩, hreturned, hend⟩ nofun
  · rw [if_neg hzero] at ht
    refine h.advance hrunning ht (h.queue.of_step he) rfl
      ⟨?_, ⟨hidle, hall⟩, hreturned, hend⟩ nofun
    rw [hanswers, List.getLast?_concat]

lemma rest (h : s.Ledger) (hrunning : s.manager.isRunning s.id = true) {interval : Span}
    (hresting : s.ticker.standing = .resting interval) {deadline : Moment} {t : Ticker σ}
    (ht : s.Moves t (.sleeping interval)) :
    ({ s with
      ticker := t
      log := { s.log with sleeps := s.log.sleeps ++ [(interval, some deadline)] } } :
        Shift σ).Ledger := by
  have hcourse := h.course
  rw [hresting] at hcourse
  obtain ⟨-, hout, hreturned, hend⟩ := hcourse
  refine h.advance hrunning ht h.queue rfl ⟨hout, hreturned, ?_⟩ nofun
  exact List.forall_mem_append.mpr ⟨hend, by simp⟩

lemma overrun (h : s.Ledger) (hrunning : s.manager.isRunning s.id = true) {interval : Span}
    (hresting : s.ticker.standing = .resting interval) {t : Ticker σ}
    (ht : s.Moves t (.ended (.panicked (.text Moment.overflow)))) :
    ({ s with
      ticker := t
      log := { s.log with sleeps := s.log.sleeps ++ [(interval, none)] } } : Shift σ).Ledger := by
  have hcourse := h.course
  rw [hresting] at hcourse
  obtain ⟨hlast, hout, hreturned, hend⟩ := hcourse
  exact h.advance hrunning ht h.queue rfl
    ⟨hout, .inr ⟨rfl, hreturned, _, interval, hlast, rfl, hend⟩⟩ nofun

lemma read (h : s.Ledger) {m : Move TickReport} (hm : m.isReading = true)
    {e : EndsAtWork TickReport} (he : s.ends.step m = .ok e) :
    ({ s with ends := e } : Shift σ).Ledger := by
  obtain ⟨hproducer, hpushed⟩ := EndsAtWork.step_isReading hm he
  exact h.move ⟨rfl, rfl, rfl⟩ (h.queue.of_step he) rfl (h.course.congr hproducer hpushed)
    h.verdict h.isTold

end Ledger

/-- Every step keeps the ledger. -/
lemma Turn.ledger (t : s.Turn rule a s') (h : s.Ledger) : s'.Ledger := by
  cases t with
  | manage act m hadmits hm => exact h.manage hadmits hm
  | heed _ next t hrunning hlooks ht => exact h.heed hrunning hlooks ht
  | tick now interval t hrunning hticking hinterval hcount hstanding =>
    exact h.tick hrunning hticking hinterval hcount hstanding
  | crash now p t hrunning hticking ht => exact h.crash hrunning hticking ht
  | push now interval e hrunning hreporting hidle he => exact h.push hreporting hidle he
  | produce now interval e hrunning hreporting hidle hlinked he =>
    exact h.produce hreporting hidle hlinked he
  | publish now interval v next e t hrunning hreporting hlinked he ht =>
    exact h.publish hrunning hreporting hlinked he ht
  | rest now interval deadline t hrunning hresting hdeadline ht =>
    exact h.rest hrunning hresting ht
  | overrun now interval t hrunning hresting hnone ht => exact h.overrun hrunning hresting ht
  | finish now v m hrunning hended hm => exact h.finish hended hm
  | stay _ t ha ht => exact h.move ht h.queue rfl h.course h.verdict h.isTold
  | read _ m e ha hm he => exact h.read hm he

lemma ledger_start (n : Nat) (id : TaskId) (app : σ) : (start n id app).Ledger where
  queue := EndsAtWork.coherent_start Chain.holds_empty rfl
  told := rfl
  interval := rfl
  count := rfl
  course := ⟨⟨rfl, rfl⟩, rfl, nofun⟩
  verdict v hv := by cases hv
  isTold h := by cases h

lemma ledger_of_run (h : (start n id app).run rule as = some s) : s.Ledger :=
  (runs rule).invariant (P := fun _ s => s.Ledger) (ledger_start n id app)
    (fun _ _ _ _ _ hledger hstep => (turn_of_step hstep).ledger hledger) h

end Shift

end Overseer
