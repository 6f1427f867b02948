import Overseer.Span

/-!
# The tick schedule

How long to sleep before the next tick: one second more than last time, and back to one second
once the sleep was longer than five.
-/

namespace Overseer.Schedule

/-- Sleeps longer than this start over. -/
def ceiling : Span := .ofMillis 5000

/-- The sleep to start over with. -/
def fallback : Span := .ofMillis 1000

/-- What one tick adds to the sleep. -/
def increment : Span := .ofMillis 1000

/-- The sleep that follows a sleep of `least`. -/
def next (least : Span) : Span := if ceiling < least then fallback else least + increment

/-- The first `n` sleeps after a sleep of `least`. -/
def sleeps (least : Span) : Nat → List Span
  | 0 => []
  | n + 1 => next least :: sleeps (next least) n

end Overseer.Schedule
