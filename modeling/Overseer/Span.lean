/-!
# Spans of time and readings of the clock

Both are counted in nanoseconds and both have a greatest value. A span that grows past it stays
there; a reading that would pass it does not exist.
-/

namespace Overseer

/-- A length of time. Its whole seconds fit 64 bits. -/
@[ext] structure Span where
  nanos : Nat
  nanos_lt : nanos < 18446744073709551616 * 1000000000
deriving DecidableEq, Repr

namespace Span

/-- The longest span. -/
def longest : Span := ⟨18446744073709551616 * 1000000000 - 1, by decide⟩

/-- The span of `n` nanoseconds, or the longest one. -/
def clamp (n : Nat) : Span :=
  if h : n < 18446744073709551616 * 1000000000 then ⟨n, h⟩ else longest

def ofMillis (ms : Nat) : Span := clamp (ms * 1000000)

def ofSeconds (s : Nat) : Span := clamp (s * 1000000000)

/-- Whole seconds. -/
def seconds (t : Span) : Nat := t.nanos / 1000000000

/-- Nanoseconds beyond the whole seconds. -/
def subsecond (t : Span) : Nat := t.nanos % 1000000000

/-- Whole milliseconds. -/
def millis (t : Span) : Nat := t.nanos / 1000000

/-- The sum, or the longest span where it would be longer. -/
def add (t u : Span) : Span := clamp (t.nanos + u.nanos)

instance : Add Span := ⟨add⟩

instance : LE Span := ⟨fun t u => t.nanos ≤ u.nanos⟩

instance : LT Span := ⟨fun t u => t.nanos < u.nanos⟩

instance (t u : Span) : Decidable (t ≤ u) := inferInstanceAs (Decidable (t.nanos ≤ u.nanos))

instance (t u : Span) : Decidable (t < u) := inferInstanceAs (Decidable (t.nanos < u.nanos))

theorem nanos_clamp {n : Nat} (h : n < 18446744073709551616 * 1000000000) :
    (clamp n).nanos = n := by
  rw [clamp, dif_pos h]

end Span

/-- A reading of the clock, whose whole seconds fit 63 bits. -/
@[ext] structure Moment where
  nanos : Nat
  nanos_lt : nanos < 9223372036854775808 * 1000000000
deriving DecidableEq, Repr

namespace Moment

/-- The reading `t` later, where the clock can show it. -/
def after? (m : Moment) (t : Span) : Option Moment :=
  if h : m.nanos + t.nanos < 9223372036854775808 * 1000000000 then some ⟨m.nanos + t.nanos, h⟩
  else none

/-- What a caller says when it panics because a deadline does not exist. -/
def overflow : String := "overflow when adding duration to instant"

end Moment

end Overseer
