import Mathlib.Logic.Function.Iterate
import Overseer.Lifecycle.Schedule

/-!
# Where the schedule leads

Whatever sleep it starts from, the schedule stays between one second and six. A fraction of a second
is carried along until a sleep is longer than five seconds. Then the schedule starts over, with the
sixth sleep at the latest, and from there on it goes round in whole seconds.
-/

namespace Overseer

namespace Span

lemma nanos_ofSeconds {n : Nat} (h : n < 18446744073709551616) :
    (ofSeconds n).nanos = n * 1000000000 :=
  nanos_clamp (by omega)

lemma nanos_add {t u : Span} (h : t.nanos + u.nanos < 18446744073709551616 * 1000000000) :
    (t + u).nanos = t.nanos + u.nanos :=
  nanos_clamp h

end Span

namespace Schedule

variable {d : Span}

/-! ### One sleep after another -/

lemma nanos_increment : increment.nanos = 1000000000 := rfl

/-- Up to the ceiling the sum is never cut off. -/
lemma nanos_add_increment (h : d ≤ ceiling) :
    (d + increment).nanos = d.nanos + increment.nanos := by
  have hd : d.nanos ≤ 5000000000 := h
  refine Span.nanos_add ?_
  rw [nanos_increment]
  omega

lemma next_of_lt (h : ceiling < d) : next d = fallback := if_pos h

lemma next_of_le (h : d ≤ ceiling) : next d = d + increment := if_neg (Nat.not_lt.mpr h)

lemma nanos_next (d : Span) :
    (next d).nanos = if 5000000000 < d.nanos then 1000000000 else d.nanos + 1000000000 := by
  by_cases h : ceiling < d
  · rw [next_of_lt h, if_pos (show 5000000000 < d.nanos from h)]
    rfl
  · rw [next_of_le (Nat.not_lt.mp h), nanos_add_increment (Nat.not_lt.mp h),
      if_neg (show ¬5000000000 < d.nanos from h)]
    rfl

/-- Every sleep takes a second at least and six at most. -/
lemma next_mem_range (d : Span) : .ofSeconds 1 ≤ next d ∧ next d ≤ .ofSeconds 6 := by
  change (Span.ofSeconds 1).nanos ≤ (next d).nanos ∧ (next d).nanos ≤ (Span.ofSeconds 6).nanos
  rw [nanos_next, Span.nanos_ofSeconds (by decide), Span.nanos_ofSeconds (by decide)]
  split <;> omega

/-- Whole seconds go round. -/
lemma next_ofSeconds {n : Nat} (h : n < 6) :
    next (.ofSeconds (1 + n)) = .ofSeconds (1 + (n + 1) % 6) := by
  ext
  rw [nanos_next, Span.nanos_ofSeconds (by omega), Span.nanos_ofSeconds (by omega)]
  split <;> omega

/-! ### The sleeps from one on -/

lemma iterate_fallback (k : Nat) : next^[k] fallback = .ofSeconds (1 + k % 6) := by
  induction k with
  | zero => rfl
  | succ k ih =>
    have hlt : k % 6 < 6 := Nat.mod_lt k (by decide)
    rw [Function.iterate_succ_apply', ih, next_ofSeconds hlt, Nat.mod_add_mod]

/-- Where `j` more seconds are longer than the ceiling, the schedule starts over after `j` sleeps
at the latest. -/
lemma exists_iterate_eq_fallback {j : Nat} (h : 5000000000 < d.nanos + j * 1000000000) :
    ∃ i ≤ j, next^[i + 1] d = fallback := by
  induction j generalizing d with
  | zero => exact ⟨0, Nat.le_refl _, next_of_lt (show 5000000000 < d.nanos by omega)⟩
  | succ j ih =>
    by_cases hlong : 5000000000 < d.nanos
    · exact ⟨0, Nat.zero_le _, next_of_lt hlong⟩
    · have hnext : (next d).nanos = d.nanos + 1000000000 := by rw [nanos_next, if_neg hlong]
      obtain ⟨i, hi, hover⟩ := ih (d := next d) (by omega)
      exact ⟨i + 1, Nat.succ_le_succ hi, hover⟩

/-- The schedule starts over with the sixth sleep at the latest. -/
lemma starts_over (d : Span) : ∃ j ≤ 6, next^[j] d = fallback := by
  have hleast : 1000000000 ≤ (next d).nanos := (next_mem_range d).1
  -- one second is what the schedule starts over with, and any more is too long after four seconds
  rcases Nat.eq_or_lt_of_le hleast with hone | hmore
  · exact ⟨1, by decide, Span.ext hone.symm⟩
  · obtain ⟨i, hi, hover⟩ := exists_iterate_eq_fallback (d := next d) (j := 4) (by omega)
    exact ⟨i + 2, by omega, hover⟩

/-- From the sixth sleep on the schedule goes round. -/
lemma exists_iterate_eq (d : Span) :
    ∃ j, ∀ k, 6 ≤ k → ∃ i, i + j = k ∧ next^[k] d = .ofSeconds (1 + i % 6) := by
  obtain ⟨j, hj, hover⟩ := starts_over d
  refine ⟨j, fun k hk => ⟨k - j, by omega, ?_⟩⟩
  calc next^[k] d = next^[k - j + j] d := by rw [Nat.sub_add_cancel (Nat.le_trans hj hk)]
    _ = next^[k - j] fallback := by rw [Function.iterate_add_apply, hover]
    _ = .ofSeconds (1 + (k - j) % 6) := iterate_fallback (k - j)

/-- What the sleeps after a sleep of `d` come to. -/
structure Settles (d : Span) : Prop where
  /-- Each takes a second at least and six at most. -/
  bounded : ∀ k, 1 ≤ k → .ofSeconds 1 ≤ next^[k] d ∧ next^[k] d ≤ .ofSeconds 6
  /-- No sum is cut off. -/
  uncut : ∀ k, next^[k] d ≤ ceiling →
    (next^[k] d + increment).nanos = (next^[k] d).nanos + increment.nanos
  /-- From the sixth on they are whole seconds, one more each time, and one again after six. -/
  whole : ∀ k, 6 ≤ k → ∃ n, 1 ≤ n ∧ n ≤ 6 ∧ next^[k] d = .ofSeconds n ∧
    next^[k + 1] d = .ofSeconds (if n = 6 then 1 else n + 1)
  periodic : ∀ k, 6 ≤ k → next^[k + 6] d = next^[k] d

lemma settles (d : Span) : Settles d := by
  obtain ⟨j, hround⟩ := exists_iterate_eq d
  constructor
  case bounded =>
    intro k hk
    obtain ⟨k, rfl⟩ := Nat.exists_eq_add_of_le' hk
    rw [Function.iterate_succ_apply']
    exact next_mem_range _
  case uncut => exact fun k hk => nanos_add_increment hk
  case whole =>
    intro k hk
    obtain ⟨i, -, hi⟩ := hround k hk
    have hlt : i % 6 < 6 := Nat.mod_lt i (by decide)
    refine ⟨1 + i % 6, by omega, by omega, hi, ?_⟩
    rw [Function.iterate_succ_apply', hi, next_ofSeconds hlt]
    congr 1
    split <;> omega
  case periodic =>
    intro k hk
    obtain ⟨i, hij, hi⟩ := hround k hk
    obtain ⟨i', hij', hi'⟩ := hround (k + 6) (by omega)
    obtain rfl : i' = i + 6 := by omega
    rw [hi, hi', Nat.add_mod_right]

/-- A fraction lasts for five sleeps, which is as long as it can. -/
example : next^[5] ⟨1, by decide⟩ = ⟨5000000001, by decide⟩ ∧
    next^[6] ⟨1, by decide⟩ = .ofSeconds 1 := by decide

end Schedule

end Overseer
