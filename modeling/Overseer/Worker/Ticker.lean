import Overseer.Log
import Overseer.Span
import Overseer.Worker.Thread

/-!
# The tick worker

A worker that asks the application again and again how long to sleep, reports each answer, and
sleeps. It stops between two ticks, or in its sleep, once it is cancelled.
-/

namespace Overseer

/-- How an application answers a tick: it is told the last sleep and may panic. -/
abbrev TickRule (σ : Type) := Span → σ → Verdict Span × σ

structure TickReport where
  /-- The number of the tick, from one on and without a bound like `Ticker.count`. -/
  number : Nat
  interval : Span
deriving DecidableEq, Repr

/-- Where the worker stands. -/
inductive TickerAt where
  /-- It is to look whether it is cancelled. -/
  | checking
  | ticking
  /-- It has an answer to report. -/
  | reporting (interval : Span)
  /-- It is to compute when its sleep ends. -/
  | resting (interval : Span)
  | sleeping (interval : Span)
  | ended (verdict : Verdict Unit)
deriving DecidableEq, Repr

structure Ticker (σ : Type) where
  app : σ
  interval : Span := .ofMillis 1000
  /-- How many ticks have been answered. The program counts in a word of 64 bits, which has room for
  18446744073709551615 ticks; no run gets there, and the count here has no bound. -/
  count : Nat := 0
  standing : TickerAt := .checking
  isCancelled : Bool := false
  /-- The reports, in order. -/
  reports : List TickReport := []
  /-- What the application was told at each tick, in order. -/
  calls : List Span := []

inductive TickerAction where
  /-- The worker takes its next step. -/
  | work (now : Moment)
  /-- Its sleep is over. -/
  | elapse
  | cancel

namespace Ticker

variable {σ : Type}

/-- The next step of the worker itself; asleep it has none, unless it is cancelled. -/
def work (rule : TickRule σ) (t : Ticker σ) (now : Moment) : Ticker σ :=
  match t.standing with
  | .checking =>
    { t with standing := if t.isCancelled then .ended (.value ()) else .ticking }
  | .ticking =>
    let (answer, app) := rule t.interval t.app
    let t := { t with app := app, calls := t.calls ++ [t.interval] }
    match answer with
    | .value interval =>
      { t with interval := interval, count := t.count + 1, standing := .reporting interval }
    | .panicked p => { t with standing := .ended (.panicked p) }
  | .reporting interval =>
    { t with
      reports := t.reports ++ [⟨t.count, interval⟩]
      standing := if interval.nanos = 0 then .checking else .resting interval }
  | .resting interval =>
    match now.after? interval with
    | some _ => { t with standing := .sleeping interval }
    | none => { t with standing := .ended (.panicked (.text Moment.overflow)) }
  | .sleeping _ => if t.isCancelled then { t with standing := .ended (.value ()) } else t
  | .ended _ => t

/-- The sleep is over; the flag decides whether the worker goes on. -/
def elapse (t : Ticker σ) : Ticker σ :=
  match t.standing with
  | .sleeping _ =>
    { t with standing := if t.isCancelled then .ended (.value ()) else .checking }
  | _ => t

def step (rule : TickRule σ) (t : Ticker σ) : TickerAction → Ticker σ
  | .work now => t.work rule now
  | .elapse => t.elapse
  | .cancel => { t with isCancelled := true }

def run (rule : TickRule σ) (t : Ticker σ) (as : List TickerAction) : Ticker σ :=
  as.foldl (step rule) t

/-- Works through sleeps until there are as many reports and calls as wanted and the worker sleeps,
or until it ends; at most `n` steps. -/
def workUntil (rule : TickRule σ) (now : Moment) (reports calls : Nat) (t : Ticker σ) :
    Nat → Ticker σ
  | 0 => t
  | n + 1 =>
    match t.standing with
    | .ended _ => t
    | .sleeping _ =>
      if reports ≤ t.reports.length ∧ calls ≤ t.calls.length then t
      else workUntil rule now reports calls t.elapse n
    | _ => workUntil rule now reports calls (t.work rule now) n

/-- Cancels the worker and lets it end. -/
def stop (rule : TickRule σ) (now : Moment) (t : Ticker σ) : Ticker σ :=
  t.run rule [.cancel, .work now, .work now, .work now, .work now, .work now]

/-- How the body ended, if it has. -/
def verdict? (t : Ticker σ) : Option (Verdict Unit) :=
  match t.standing with
  | .ended v => some v
  | _ => none

end Ticker

end Overseer
