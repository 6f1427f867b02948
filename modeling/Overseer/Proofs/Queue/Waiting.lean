import Overseer.Proofs.Queue.Wakeup

/-!
# How long callers wait

A caller that waits remembers which end it wants and whether it waits with a deadline; how long it
was told to wait is in the action with which its pop began. `Tracked` ties the two together, and
with it every pop that ends can be told from the pop that began: one that waits forever ends with
an element, and one with a deadline ends without an element only if the deadline was reached and
there is nothing to take.

The actions come with readings of the clock, `Punctual` says that time does not go backwards and
that no wait times out before its deadline.
-/

namespace Overseer

variable {α : Type}

/-- The end a pop takes from, how long it waits and when it began. -/
structure Call where
  e : End
  p : Patience
  now : Moment

/-- The pop that an action begins for `who`. -/
def DequeAction.call? (who : Nat) : DequeAction α → Option Call
  | pop who' e p now => if who' = who then some ⟨e, p, now⟩ else none
  | _ => none

/-- A caller inside a pop. -/
def Caller.isWaiting : Caller → Bool
  | parked .. | woken .. | expired _ => true
  | outside | notifying => false

/-- Whether a caller that found nothing at `now` waits, with a deadline or without. -/
def Patience.Waits (now : Moment) : Patience → Bool → Prop
  | never, _ => False
  | forever, timed => timed = false
  | upTo t, timed => timed = true ∧ (now.after? t).isSome

/-- The pop that `who` began last. -/
def lastCall? (who : Nat) (ts : List (Moment × DequeAction α)) : Option Call :=
  ts.reverse.findSome? (·.2.call? who)

/-- The readings of the clock are those of one that runs forward, and a wait that times out does so
at its deadline or later. -/
structure Punctual (ts : List (Moment × DequeAction α)) : Prop where
  forward : ts.Pairwise fun t u => t.1.nanos ≤ u.1.nanos
  patient {before after r who e t now due} : ts = before ++ (r, .expire who) :: after →
    lastCall? who before = some ⟨e, .upTo t, now⟩ → now.after? t = some due → due.nanos ≤ r.nanos

variable {ts : List (Moment × DequeAction α)} {r : Moment} {a : DequeAction α} {who other : Nat}

lemma lastCall?_concat :
    lastCall? who (ts ++ [(r, a)]) = (a.call? who).or (lastCall? who ts) := by
  rw [lastCall?, List.reverse_append, List.reverse_singleton, List.singleton_append,
    List.findSome?_cons]
  cases a.call? who <;> rfl

lemma lastCall?_concat_of_none (h : a.call? who = none) :
    lastCall? who (ts ++ [(r, a)]) = lastCall? who ts := by
  rw [lastCall?_concat, h, Option.none_or]

lemma call?_pop_of_ne {e : End} {p : Patience} {now : Moment} (h : other ≠ who) :
    (DequeAction.pop (α := α) who e p now).call? other = none := if_neg (Ne.symm h)

lemma lastCall?_concat_pop {e : End} {p : Patience} {now : Moment} :
    lastCall? who (ts ++ [(r, .pop who e p now)]) = some ⟨e, p, now⟩ := by
  rw [lastCall?_concat, DequeAction.call?, if_pos rfl, Option.some_or]

lemma overflows_eq_false {t : Span} {now : Moment} (h : (Patience.upTo t).overflows now = false) :
    (now.after? t).isSome := by
  rwa [Patience.overflows, Option.isNone_eq_false_iff] at h

lemma overflows_eq_true {p : Patience} {now : Moment} (h : p.overflows now = true) :
    ∃ t, p = .upTo t ∧ now.after? t = none := by
  cases p with
  | upTo t => exact ⟨t, rfl, Option.isNone_iff_eq_none.mp h⟩
  | never | forever => cases h

/-! ### What a waiting caller was told -/

/-- The actions so far put `who` where the caller stands. -/
def Caller.Follows (ts : List (Moment × DequeAction α)) (who : Nat) : Caller → Prop
  | parked e timed | woken e timed =>
    ∃ p now, lastCall? who ts = some ⟨e, p, now⟩ ∧ p.Waits now timed
  | expired e =>
    ∃ t now due before r after, lastCall? who ts = some ⟨e, .upTo t, now⟩ ∧
      now.after? t = some due ∧ ts = before ++ (r, .expire who) :: after ∧
      lastCall? who before = some ⟨e, .upTo t, now⟩
  | outside | notifying => True

lemma Caller.Follows.concat {c : Caller} (hc : c.Follows ts who) (h : a.call? who = none) :
    c.Follows (ts ++ [(r, a)]) who := by
  cases c with
  | outside | notifying => trivial
  | parked e timed | woken e timed =>
    obtain ⟨p, now, hlast, hwaits⟩ := hc
    exact ⟨p, now, by rw [lastCall?_concat_of_none h, hlast], hwaits⟩
  | expired e =>
    obtain ⟨t, now, due, before, r', after, hlast, hdue, rfl, hbefore⟩ := hc
    refine ⟨t, now, due, before, r', after ++ [(r, a)], ?_, hdue, ?_, hbefore⟩
    · rw [lastCall?_concat_of_none h, hlast]
    · rw [List.append_assoc, List.cons_append]

namespace Monitor

variable {m m' : Monitor α}

/-- Every caller stands where the actions so far put it. -/
def Tracked (ts : List (Moment × DequeAction α)) (m : Monitor α) : Prop :=
  ∀ ⦃who : Nat⦄ ⦃c : Caller⦄, m.callers[who]? = some c → c.Follows ts who

lemma tracked_start (queue : Deque α) (n : Nat) : (start queue n).Tracked [] := by
  intro who c hc
  rw [start, List.getElem?_replicate] at hc
  split at hc <;> cases hc
  trivial

/-- Only callers outside begin a pop. -/
lemma Section.outside_of_call (h : m.Section a m') (hcall : a.call? who ≠ none) :
    m.callers[who]? = some .outside := by
  cases h with
  | overflow other _ _ _ hwho | pop other _ _ _ _ _ hwho | refuse other _ _ hwho
  | park other _ _ hwho | parkTimed other _ _ _ hwho =>
    by_cases heq : other = who
    · exact heq ▸ hwho
    · exact absurd (if_neg heq) hcall
  | _ => exact absurd rfl hcall

/-- The action of a section leaves everybody tracked as they stand before it. -/
lemma Tracked.concat (hm : m.Tracked ts) (h : m.Section a m') :
    m.Tracked (ts ++ [(r, a)]) := by
  intro who c hc
  by_cases hcall : a.call? who = none
  · exact (hm hc).concat hcall
  · rw [h.outside_of_call hcall] at hc
    cases hc
    trivial

lemma Tracked.move (hm : m.Tracked ts) (who : Nat) (c' : Caller)
    (hcallers : m'.callers = m.callers.set who c') (hc' : c'.Follows ts who) : m'.Tracked ts := by
  intro other c hc
  rw [hcallers, List.getElem?_set] at hc
  split at hc
  · rename_i heq
    split at hc <;> cases hc
    exact heq ▸ hc'
  · exact hm hc

lemma Section.tracked (h : m.Section a m') (hm : m.Tracked ts) : m'.Tracked (ts ++ [(r, a)]) := by
  have hm' : m.Tracked (ts ++ [(r, a)]) := hm.concat h
  cases h with
  | notifyNobody who | pop who | giveUp who | find who => exact hm'.move who .outside rfl trivial
  | push who => exact hm'.move who .notifying rfl trivial
  | overflow | refuse | clear | copy => exact hm'
  | notify who other e timed hwho hother =>
    have hfollows := hm' hother
    exact (hm'.move who .outside rfl trivial).move other (.woken e timed) rfl hfollows
  | park who e now hwho htake =>
    exact hm'.move who (.parked e false) rfl ⟨.forever, now, lastCall?_concat_pop, rfl⟩
  | parkTimed who e t now hwho hp htake =>
    refine hm'.move who (.parked e true) rfl ⟨.upTo t, now, lastCall?_concat_pop, rfl, ?_⟩
    exact overflows_eq_false hp
  | wake who e timed hwho =>
    have hfollows := hm' hwho
    exact hm'.move who (.woken e timed) rfl hfollows
  | parkAgain who e timed hwho htake =>
    have hfollows := hm' hwho
    exact hm'.move who (.parked e timed) rfl hfollows
  | expire who e hwho =>
    obtain ⟨p, now, hlast, hwaits⟩ := hm hwho
    cases p with
    | never => exact hwaits.elim
    | forever => cases hwaits
    | upTo t =>
      obtain ⟨due, hdue⟩ := Option.isSome_iff_exists.mp hwaits.2
      refine hm'.move who (.expired e) rfl ⟨t, now, due, ts, r, [], ?_, hdue, rfl, hlast⟩
      rw [lastCall?_concat_of_none rfl, hlast]

/-! ### How a pop ends -/

/-- In the step from `m` to `m'` a pop of `who` comes to its end. -/
def EndsPop (m : Monitor α) (a : DequeAction α) (m' : Monitor α) (who : Nat) : Prop :=
  m'.callers[who]? = some .outside ∧
    ((∃ c, m.callers[who]? = some c ∧ c.isWaiting = true) ∨ (a.call? who).isSome)

/-- The ways in which the pop that began with a call can end, in a step from `m` to `m'`. The
deadlines that are over are those that are `reached`. -/
inductive PopEnding (m m' : Monitor α) (who : Nat) (reached : Moment → Prop) : Call → Prop where
  | got (call x) (htake : m.queue.take? call.e = some (x, m'.queue))
      (hhistory : m'.history = .popped who call.e x :: m.history) :
      PopEnding m m' who reached call
  | refused (e now) (hempty : m.queue.items = [])
      (hhistory : m'.history = .gaveUp who false :: m.history) :
      PopEnding m m' who reached ⟨e, .never, now⟩
  | expired (e t now due) (hdue : now.after? t = some due) (hreached : reached due)
      (hempty : m.queue.items = []) (hhistory : m'.history = .gaveUp who true :: m.history) :
      PopEnding m m' who reached ⟨e, .upTo t, now⟩
  | overflowed (e t now) (hdue : now.after? t = none)
      (hhistory : m'.history = .overflowed who :: m.history) :
      PopEnding m m' who reached ⟨e, .upTo t, now⟩

/-- If one caller moves, the pop that ends is its own. -/
lemma EndsPop.of_set {c c' : Caller} (h : m.EndsPop a m' other) (hwho : m.callers[who]? = some c)
    (hcallers : m'.callers = m.callers.set who c')
    (hcall : ∀ o, a.call? o ≠ none → o = who) :
    other = who ∧ c' = .outside ∧ (c.isWaiting = true ∨ (a.call? who).isSome) := by
  obtain ⟨hout, hin⟩ := h
  rw [hcallers, callers_place hwho] at hout
  by_cases heq : other = who
  · subst heq
    rw [if_pos rfl] at hout
    rcases hin with ⟨c₀, hc₀, hwaiting⟩ | hsome
    · cases hwho.symm.trans hc₀
      exact ⟨rfl, Option.some.inj hout, .inl hwaiting⟩
    · exact ⟨rfl, Option.some.inj hout, .inr hsome⟩
  · rw [if_neg heq] at hout
    rcases hin with ⟨c₀, hc₀, hwaiting⟩ | hsome
    · cases hout.symm.trans hc₀
      cases hwaiting
    · exact absurd (hcall other (Option.isSome_iff_ne_none.mp hsome)) heq

/-- If nobody moves, the pop that ends has only begun. -/
lemma EndsPop.of_eq (h : m.EndsPop a m' other) (hcallers : m'.callers = m.callers) :
    (a.call? other).isSome := by
  obtain ⟨hout, ⟨c, hc, hwaiting⟩ | hsome⟩ := h
  · rw [hcallers, hc] at hout
    cases hout
    cases hwaiting
  · exact hsome

/-- A notification ends no pop: the one that it wakes has still to look. -/
lemma not_endsPop_notify {whom : Nat} {e : End} {timed : Bool}
    (hwho : m.callers[who]? = some .notifying) :
    ¬m.EndsPop (.notify who (some whom))
      (m.place who .outside |>.place whom (.woken e timed)) other := by
  rintro ⟨hout, ⟨c, hc, hwaiting⟩ | hsome⟩
  · rw [place, List.getElem?_set] at hout
    split at hout
    · split at hout <;> cases hout
    · rw [place, callers_place hwho] at hout
      split at hout
      · subst other
        cases hwho.symm.trans hc
        cases hwaiting
      · cases hout.symm.trans hc
        cases hwaiting
  · cases hsome

lemma eq_of_call?_pop {e : End} {p : Patience} {now : Moment} (o : Nat)
    (h : (DequeAction.pop (α := α) who e p now).call? o ≠ none) : o = who := by
  by_contra hne
  exact h (call?_pop_of_ne hne)

/-- Every section that ends a pop ends it in one of the ways. -/
lemma Section.ending (h : m.Section a m') (hm : m.Tracked ts) (hends : m.EndsPop a m' other) :
    ∃ call, lastCall? other (ts ++ [(r, a)]) = some call ∧
      PopEnding m m' other (fun due => Punctual (ts ++ [(r, a)]) → due.nanos ≤ r.nanos) call := by
  have hm' : m.Tracked (ts ++ [(r, a)]) := hm.concat h
  cases h with
  | overflow who e p now hwho hp =>
    obtain rfl := eq_of_call?_pop other (Option.isSome_iff_ne_none.mp (hends.of_eq rfl))
    obtain ⟨t, rfl, hdue⟩ := overflows_eq_true hp
    exact ⟨⟨e, .upTo t, now⟩, lastCall?_concat_pop, .overflowed e t now hdue rfl⟩
  | refuse who e now hwho htake =>
    obtain rfl := eq_of_call?_pop other (Option.isSome_iff_ne_none.mp (hends.of_eq rfl))
    exact ⟨⟨e, .never, now⟩, lastCall?_concat_pop,
      .refused e now (Deque.items_of_take?_eq_none htake) rfl⟩
  | pop who e p now x rest hwho hp htake =>
    obtain ⟨rfl, -, -⟩ := hends.of_set hwho rfl eq_of_call?_pop
    exact ⟨⟨e, p, now⟩, lastCall?_concat_pop, .got _ x htake rfl⟩
  | find who e c x rest hwho hc htake =>
    obtain ⟨rfl, -, -⟩ := hends.of_set hwho rfl fun o ho => absurd rfl ho
    rcases hc with ⟨timed, rfl⟩ | rfl
    · obtain ⟨p, now, hlast, -⟩ := hm' hwho
      exact ⟨⟨e, p, now⟩, hlast, .got _ x htake rfl⟩
    · obtain ⟨t, now, -, -, -, -, hlast, -⟩ := hm' hwho
      exact ⟨⟨e, .upTo t, now⟩, hlast, .got _ x htake rfl⟩
  | giveUp who e hwho htake =>
    obtain ⟨rfl, -, -⟩ := hends.of_set hwho rfl fun o ho => absurd rfl ho
    obtain ⟨t, now, due, before, r', after, hlast, hdue, hts, hbefore⟩ := hm hwho
    refine ⟨⟨e, .upTo t, now⟩, ?_,
      .expired e t now due hdue ?_ (Deque.items_of_take?_eq_none htake) rfl⟩
    · rw [lastCall?_concat_of_none rfl, hlast]
    · -- the caller timed out at its deadline or later, and it gives up after that
      intro hpunctual
      subst hts
      have hdeadline : due.nanos ≤ r'.nanos :=
        hpunctual.patient (by rw [List.append_assoc, List.cons_append]) hbefore hdue
      have hforward : r'.nanos ≤ r.nanos :=
        (List.pairwise_append.mp hpunctual.forward).2.2 (r', .expire other) (by simp)
          (r, .look other) (by simp)
      exact Nat.le_trans hdeadline hforward
  | park who e now hwho | parkTimed who e t now hwho =>
    obtain ⟨-, hout, -⟩ := hends.of_set hwho rfl eq_of_call?_pop
    cases hout
  | push who e x hwho | wake who e timed hwho | expire who e hwho | parkAgain who e timed hwho =>
    obtain ⟨-, hout, -⟩ := hends.of_set hwho rfl fun o ho => absurd rfl ho
    cases hout
  | notifyNobody who hwho =>
    obtain ⟨-, -, hin⟩ := hends.of_set hwho rfl fun o ho => absurd rfl ho
    simp [Caller.isWaiting, DequeAction.call?] at hin
  | notify who whom e timed hwho => exact absurd hends (not_endsPop_notify hwho)
  | clear who hwho | copy who hwho => cases hends.of_eq rfl

/-- No interleaving leaves an element beside a parked caller with nobody on the way to it, and every
pop that ends has a reason: one that waits forever has an element, and one with a deadline that
goes without gives up at its deadline or later, where there is nothing to take. -/
theorem no_wakeup_lost (queue : Deque α) (n : Nat)
    (h : (start queue n).run (ts.map Prod.snd) = some m) :
    (m.queue.items ≠ [] → (∃ c ∈ m.callers, c.isParked = true) →
      ∃ c ∈ m.callers, c.isRoused = true) ∧
    ∀ r a m', m.step a = some m' → ∀ who, m.EndsPop a m' who →
      ∃ call, lastCall? who (ts ++ [(r, a)]) = some call ∧
        PopEnding m m' who (fun due => Punctual (ts ++ [(r, a)]) → due.nanos ≤ r.nanos) call := by
  refine ⟨exists_roused Prod.snd h, ?_⟩
  intro r a m' hstep who hends
  have htracked : m.Tracked ts :=
    run_induction Prod.snd (tracked_start queue n)
      (fun _ _ _ _ hu hsection => hsection.tracked hu) h
  exact (section_of_step hstep).ending htracked hends

/-- One caller waits forever, and one for five nanoseconds, which are over. -/
def contended : List (Moment × DequeAction Nat) :=
  [(⟨0, by decide⟩, .pop 0 .front .forever ⟨0, by decide⟩),
    (⟨1, by decide⟩, .pop 1 .back (.upTo (.clamp 5)) ⟨1, by decide⟩),
    (⟨6, by decide⟩, .expire 1)]

lemma punctual_contended : Punctual (contended ++ [(⟨7, by decide⟩, .look 1)]) where
  forward := by simp [contended]
  patient := by
    intro before r who after e t now due hts hlast hdue
    rcases before with _ | ⟨x, _ | ⟨y, _ | ⟨z, _ | ⟨u, before⟩⟩⟩⟩
    · cases hts
    · cases hts
    · cases hts
      cases hlast
      cases hdue
      decide
    · cases hts
    · simp [contended] at hts

/-- A third caller pushes. -/
def contendedPush : List (Moment × DequeAction Nat) :=
  contended ++ [(⟨6, by decide⟩, .push 2 .back 9)]

/-- If a third caller pushes now, it has still to notify the one that is parked; if nobody does, the
one whose time is over gives up. -/
theorem no_wakeup_lost_contended :
    (∃ m : Monitor Nat, (start {} 3).run (contendedPush.map Prod.snd) = some m ∧
      ∃ c ∈ m.callers, c.isRoused = true) ∧
    ∃ m m' : Monitor Nat, (start {} 3).run (contended.map Prod.snd) = some m ∧
      m.step (.look 1) = some m' ∧ Punctual (contended ++ [(⟨7, by decide⟩, .look 1)]) ∧
      ∃ call, lastCall? 1 (contended ++ [(⟨7, by decide⟩, .look 1)]) = some call ∧
        PopEnding m m' 1
          (fun due => Punctual (contended ++ [(⟨7, by decide⟩, .look 1)]) → due.nanos ≤ 7)
          call := by
  have hpushed : (start {} 3).run (contendedPush.map Prod.snd) =
      some ⟨⟨[9]⟩, [.parked .front false, .expired .back, .notifying], [.pushed 2 .back 9]⟩ := rfl
  have hwaiting : (start {} 3).run (contended.map Prod.snd) =
      some ⟨{}, [.parked .front false, .expired .back, .outside], []⟩ := rfl
  constructor
  · exact ⟨_, hpushed, (no_wakeup_lost {} 3 hpushed).1 (by simp) (by decide)⟩
  · refine ⟨_, _, hwaiting, rfl, punctual_contended, ?_⟩
    exact (no_wakeup_lost {} 3 hwaiting).2 ⟨7, by decide⟩ (.look 1) _ rfl 1
      ⟨rfl, .inl ⟨.expired .back, rfl, rfl⟩⟩

end Monitor

end Overseer
