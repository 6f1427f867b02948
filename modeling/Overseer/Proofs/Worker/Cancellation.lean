import Overseer.Proofs.Runs
import Overseer.Worker.Waiting

/-!
# No cancellation is missed

`WaitingRoom.Turn` says once what a step of a thread can do. Who is inside the lock is the one that
holds it, and a thread that is to park has found the flag unset under the lock; so while somebody
is parked although the flag is set, the canceller that set it is still inside and is to wake
everybody.
-/

namespace Overseer

/-! ### Deadlines -/

/-- The thread that takes the step. -/
def WaitAction.who : WaitAction → Nat
  | wait who _ _ | cancel who | ask who | lock who | proceed who | wake who | expire who _ => who

/-- The wait that `who` began last is to be over at `due`. -/
def Awaits (who : Nat) (due : Moment) (as : List WaitAction) : Prop :=
  ∃ before now timeout after, as = before ++ .wait who now timeout :: after ∧
    now.after? timeout = some due ∧ ∀ now' timeout', .wait who now' timeout' ∉ after

/-- The clock has reached the deadline of the wait that `who` began last. -/
def Overdue (who : Nat) (as : List WaitAction) : Prop :=
  ∃ before reading after due, as = before ++ .expire who reading :: after ∧
    Awaits who due before ∧ due.nanos ≤ reading.nanos ∧
    ∀ now timeout, .wait who now timeout ∉ after

section Deadlines

variable {as bs : List WaitAction} {a : WaitAction} {who : Nat} {due now : Moment} {timeout : Span}

lemma wait_not_mem_concat (h : ∀ now timeout, .wait who now timeout ∉ bs)
    (ha : ∀ now timeout, a ≠ .wait who now timeout) :
    ∀ now timeout, .wait who now timeout ∉ bs ++ [a] := by
  intro now timeout hmem
  rcases List.mem_append.mp hmem with hmem | hmem
  · exact h now timeout hmem
  · exact ha now timeout (List.mem_singleton.mp hmem).symm

lemma awaits_of_after? (as : List WaitAction) (h : now.after? timeout = some due) :
    Awaits who due (as ++ [.wait who now timeout]) :=
  ⟨as, now, timeout, [], rfl, h, fun _ _ hmem => nomatch hmem⟩

lemma Awaits.concat (h : Awaits who due as) (ha : ∀ now timeout, a ≠ .wait who now timeout) :
    Awaits who due (as ++ [a]) := by
  obtain ⟨before, now, timeout, after, rfl, hdue, hlast⟩ := h
  refine ⟨before, now, timeout, after ++ [a], ?_, hdue, wait_not_mem_concat hlast ha⟩
  rw [List.append_assoc, List.cons_append]

lemma Awaits.overdue (h : Awaits who due as) (hle : due.nanos ≤ now.nanos) :
    Overdue who (as ++ [.expire who now]) :=
  ⟨as, now, [], due, rfl, h, hle, fun _ _ hmem => nomatch hmem⟩

lemma Overdue.concat (h : Overdue who as) (ha : ∀ now timeout, a ≠ .wait who now timeout) :
    Overdue who (as ++ [a]) := by
  obtain ⟨before, reading, after, due, rfl, hawaits, hle, hlast⟩ := h
  refine ⟨before, reading, after ++ [a], due, ?_, hawaits, hle, wait_not_mem_concat hlast ha⟩
  rw [List.append_assoc, List.cons_append]

end Deadlines

/-! ### Where threads stand -/

namespace WaiterAt

variable {t t' : WaiterAt} {flag : Bool} {who : Nat} {as : List WaitAction} {a : WaitAction}

/-- Whether a thread is inside the lock. -/
def holds : WaiterAt → Bool
  | checking _ | parking _ | leaving _ | answering _ | setting | waking | releasing => true
  | outside | arriving _ | parked _ | expired | cancelling => false

/-- What is known of a thread that stands there: what it found in the flag, and how it stands with
its deadline. -/
def Knows (flag : Bool) (who : Nat) (as : List WaitAction) : WaiterAt → Prop
  | arriving due | checking due | parked due => Awaits who due as
  | parking due => flag = false ∧ Awaits who due as
  | expired | leaving true => Overdue who as
  | answering answer => answer = flag ∧ (answer = false → Overdue who as)
  | leaving false | waking | releasing => flag = true
  | outside | cancelling | setting => True

lemma Knows.concat (h : t.Knows flag who as) (ha : ∀ now timeout, a ≠ .wait who now timeout) :
    t.Knows flag who (as ++ [a]) := by
  cases t with
  | arriving | checking | parked => exact Awaits.concat h ha
  | parking => exact ⟨h.1, h.2.concat ha⟩
  | expired => exact Overdue.concat h ha
  | leaving timedOut =>
    cases timedOut with
    | true => exact Overdue.concat h ha
    | false => exact h
  | answering answer => exact ⟨h.1, fun hanswer => (h.2 hanswer).concat ha⟩
  | waking | releasing | outside | cancelling | setting => exact h

/-- A canceller that sets the flag is inside the lock, and the others are not. -/
lemma Knows.set (h : t.Knows flag who as) (hout : t.holds = false) : t.Knows true who as := by
  cases t with
  | arriving | parked | expired | outside | cancelling => exact h
  | checking | parking | leaving | answering | setting | waking | releasing => cases hout

lemma Knows.roused (h : t.Knows flag who as) : t.roused.Knows flag who as := by
  cases t <;> exact h

@[simp] lemma holds_roused (t : WaiterAt) : t.roused.holds = t.holds := by
  cases t <;> rfl

lemma roused_ne_parked (t : WaiterAt) (due : Moment) : t.roused ≠ parked due := by
  cases t <;> nofun

/-- Taking the lock tells a thread nothing new. -/
lemma Knows.locked (h : t.Knows flag who as) (hlock : t.locked? = some t') :
    t'.Knows flag who as ∧ t'.holds = true ∧ t ≠ .waking := by
  cases t <;> cases hlock <;> exact ⟨h, rfl, nofun⟩

end WaiterAt

namespace WaitingRoom

variable {r r' : WaitingRoom} {as : List WaitAction} {a : WaitAction}

/-! ### Steps -/

/-- What the steps can do. -/
inductive Turn (r : WaitingRoom) : WaitAction → WaitingRoom → Prop where
  | overflow (who now timeout) (h : r.threads[who]? = some .outside)
      (hdue : now.after? timeout = none) :
      Turn r (.wait who now timeout) (r.record (.waited who .overflow))
  | arrive (who now timeout due) (h : r.threads[who]? = some .outside)
      (hdue : now.after? timeout = some due) :
      Turn r (.wait who now timeout) (r.place who (.arriving due))
  | cancel (who) (h : r.threads[who]? = some .outside) :
      Turn r (.cancel who) (r.place who .cancelling)
  | ask (who) (h : r.threads[who]? = some .outside) :
      Turn r (.ask who) (r.record (.asked who r.flag))
  | lock (who t t') (h : r.threads[who]? = some t) (hfree : r.holder = none)
      (hlock : t.locked? = some t') :
      Turn r (.lock who) ({ r with holder := some who }.place who t')
  | leave (who due) (h : r.threads[who]? = some (.checking due)) (hheld : r.holder = some who)
      (hflag : r.flag = true) :
      Turn r (.proceed who) (r.place who (.leaving false))
  | stay (who due) (h : r.threads[who]? = some (.checking due)) (hheld : r.holder = some who)
      (hflag : r.flag = false) :
      Turn r (.proceed who) (r.place who (.parking due))
  | park (who due) (h : r.threads[who]? = some (.parking due)) (hheld : r.holder = some who) :
      Turn r (.proceed who) (r.place who (.parked due)).release
  | read (who timedOut) (h : r.threads[who]? = some (.leaving timedOut))
      (hheld : r.holder = some who) :
      Turn r (.proceed who) (r.place who (.answering r.flag))
  | answer (who answer) (h : r.threads[who]? = some (.answering answer))
      (hheld : r.holder = some who) :
      Turn r (.proceed who) ((r.record (.waited who (.saw answer))).place who .outside).release
  | set (who) (h : r.threads[who]? = some .setting) (hheld : r.holder = some who) :
      Turn r (.proceed who) ({ r with flag := true }.place who .waking)
  | rouse (who) (h : r.threads[who]? = some .waking) (hheld : r.holder = some who) :
      Turn r (.proceed who)
        ({ r with threads := r.threads.map WaiterAt.roused }.place who .releasing)
  | finish (who) (h : r.threads[who]? = some .releasing) (hheld : r.holder = some who) :
      Turn r (.proceed who) ((r.record (.cancelled who)).place who .outside).release
  | wake (who due) (h : r.threads[who]? = some (.parked due)) :
      Turn r (.wake who) (r.place who (.arriving due))
  | expire (who now due) (h : r.threads[who]? = some (.parked due))
      (hle : due.nanos ≤ now.nanos) :
      Turn r (.expire who now) (r.place who .expired)

/-- A step that can be taken does one of the things it can do. -/
lemma turn_of_step (h : r.step a = some r') : r.Turn a r' := by
  cases a with
  | wait who now timeout =>
    simp only [step] at h
    split at h
    · split at h <;> cases h
      · exact .overflow who now timeout ‹_› ‹_›
      · exact .arrive who now timeout _ ‹_› ‹_›
    · cases h
  | cancel who =>
    simp only [step] at h
    split at h <;> cases h
    exact .cancel who ‹_›
  | ask who =>
    simp only [step] at h
    split at h <;> cases h
    exact .ask who ‹_›
  | lock who =>
    simp only [step] at h
    split at h
    · cases h
    · rename_i hfree
      rw [Bool.not_eq_true, Option.isSome_eq_false_iff, Option.isNone_iff_eq_none] at hfree
      obtain ⟨t', ht', rfl⟩ := Option.map_eq_some_iff.mp h
      obtain ⟨t, ht, hlock⟩ := Option.bind_eq_some_iff.mp ht'
      exact .lock who t t' ht hfree hlock
  | proceed who =>
    simp only [step] at h
    split at h
    · rename_i hheld
      obtain ⟨t, ht, hproceed⟩ := Option.bind_eq_some_iff.mp h
      cases t with
      | checking due =>
        cases hproceed
        cases hflag : r.flag with
        | true => exact .leave who due ht hheld hflag
        | false => exact .stay who due ht hheld hflag
      | parking due =>
        cases hproceed
        exact .park who due ht hheld
      | leaving timedOut =>
        cases hproceed
        exact .read who timedOut ht hheld
      | answering answer =>
        cases hproceed
        exact .answer who answer ht hheld
      | setting =>
        cases hproceed
        exact .set who ht hheld
      | waking =>
        cases hproceed
        exact .rouse who ht hheld
      | releasing =>
        cases hproceed
        exact .finish who ht hheld
      | outside | arriving | parked | expired | cancelling => cases hproceed
    · cases h
  | wake who =>
    simp only [step] at h
    split at h <;> cases h
    exact .wake who _ ‹_›
  | expire who now =>
    simp only [step] at h
    split at h
    · split at h <;> cases h
      exact .expire who now _ ‹_› ‹_›
    · cases h

/-! ### What holds of every state -/

/-- What holds after the steps `as`. -/
structure Sound (as : List WaitAction) (r : WaitingRoom) : Prop where
  knows : ∀ {k : Nat} {t : WaiterAt}, r.threads[k]? = some t → t.Knows r.flag k as
  holder_eq : ∀ {k : Nat} {t : WaiterAt}, r.threads[k]? = some t → t.holds = true →
    r.holder = some k
  /-- Whoever is parked although the flag is set is about to be woken. -/
  waking : ∀ {k : Nat} {due : Moment}, r.flag = true → r.threads[k]? = some (.parked due) →
    ∃ w : Nat, r.threads[w]? = some .waking
  flag_of_cancelled : ∀ {w : Nat}, .cancelled w ∈ r.history → r.flag = true

lemma sound_start (flag : Bool) (n : Nat) : (start flag n).Sound [] := by
  have hthreads : ∀ {k : Nat} {t : WaiterAt}, (start flag n).threads[k]? = some t →
      t = .outside := by
    intro k t h
    exact List.eq_of_mem_replicate (List.mem_of_getElem? h)
  refine ⟨?_, ?_, ?_, ?_⟩
  · intro k t h
    rw [hthreads h]
    trivial
  · intro k t h hholds
    rw [hthreads h] at hholds
    cases hholds
  · intro k due _ h
    cases hthreads h
  · intro w h
    cases h

lemma get_set {ts : List WaiterAt} {who k : Nat} {t u : WaiterAt}
    (h : (ts.set who t)[k]? = some u) : k = who ∧ u = t ∨ k ≠ who ∧ ts[k]? = some u := by
  by_cases hk : k = who
  · subst hk
    rw [List.getElem?_set_self'] at h
    obtain ⟨_, -, hu⟩ := Option.map_eq_some_iff.mp h
    exact .inl ⟨rfl, hu.symm⟩
  · rw [List.getElem?_set_ne (Ne.symm hk)] at h
    exact .inr ⟨hk, h⟩

/-- A thread begins no wait with the step of another. -/
lemma ne_wait_of_ne {k : Nat} (h : k ≠ a.who) : ∀ now timeout, a ≠ .wait k now timeout := by
  rintro now timeout rfl
  exact h rfl

lemma Sound.flag_of_mem_record {e : WaitEvent} (hr : r.Sound as) (he : ∀ w, e ≠ .cancelled w) :
    ∀ w, .cancelled w ∈ (r.record e).history → r.flag = true := by
  intro w hmem
  rcases List.mem_cons.mp hmem with hmem | hmem
  · exact absurd hmem.symm (he w)
  · exact hr.flag_of_cancelled hmem

/-- One thread goes from `t` to `t'`. The flag stays, the lock goes at most from nobody to this
thread or from this thread to nobody, and nobody parks while the flag is set. -/
lemma Sound.move {who : Nat} {t t' : WaiterAt} {holder : Option Nat} {history : List WaitEvent}
    (hr : r.Sound as) (h : r.threads[who]? = some t) (ha : a.who = who)
    (hknows : t'.Knows r.flag who (as ++ [a])) (hholds : t'.holds = true → holder = some who)
    (hothers : ∀ k ≠ who, r.holder = some k → holder = some k)
    (hparked : ∀ due, t' = .parked due → r.flag = false) (hwaking : t ≠ .waking)
    (hcancelled : ∀ w, .cancelled w ∈ history → r.flag = true) :
    Sound (as ++ [a])
      { r with threads := r.threads.set who t', holder := holder, history := history } := by
  refine ⟨?_, ?_, ?_, fun hmem => hcancelled _ hmem⟩
  · intro k u hu
    obtain ⟨rfl, rfl⟩ | ⟨hk, hu⟩ := get_set hu
    · exact hknows
    · exact (hr.knows hu).concat (ne_wait_of_ne (ha ▸ hk))
  · intro k u hu hin
    obtain ⟨rfl, rfl⟩ | ⟨hk, hu⟩ := get_set hu
    · exact hholds hin
    · exact hothers k hk (hr.holder_eq hu hin)
  · intro k due hflag hu
    obtain ⟨-, heq⟩ | ⟨-, hu⟩ := get_set hu
    · exact absurd (hparked due heq.symm) (by rw [hflag]; nofun)
    · obtain ⟨w, hw⟩ := hr.waking hflag hu
      have hne : who ≠ w := by
        rintro rfl
        exact hwaking (Option.some.inj (h.symm.trans hw))
      exact ⟨w, by rw [List.getElem?_set_ne hne, hw]⟩

/-- A thread goes on, and the lock stays where it is. -/
lemma Sound.place {who : Nat} {t t' : WaiterAt} (hr : r.Sound as) (h : r.threads[who]? = some t)
    (ha : a.who = who) (hknows : t'.Knows r.flag who (as ++ [a]))
    (hholds : t'.holds = true → r.holder = some who) (hparked : ∀ due, t' ≠ .parked due)
    (hwaking : t ≠ .waking) :
    (r.place who t').Sound (as ++ [a]) :=
  hr.move h ha hknows hholds (fun _ _ hk => hk) (fun due heq => absurd heq (hparked due)) hwaking
    fun _ => hr.flag_of_cancelled

/-- A thread gives the lock back, which nobody else has. -/
lemma Sound.giveBack {who : Nat} {t t' : WaiterAt} {history : List WaitEvent} (hr : r.Sound as)
    (h : r.threads[who]? = some t) (ha : a.who = who) (hheld : r.holder = some who)
    (hknows : t'.Knows r.flag who (as ++ [a])) (hout : t'.holds = false)
    (hparked : ∀ due, t' = .parked due → r.flag = false) (hwaking : t ≠ .waking)
    (hcancelled : ∀ w, .cancelled w ∈ history → r.flag = true) :
    Sound (as ++ [a])
      { r with threads := r.threads.set who t', holder := none, history := history } := by
  refine hr.move h ha hknows ?_ ?_ hparked hwaking hcancelled
  · intro hin
    rw [hout] at hin
    cases hin
  · intro k hk hother
    exact absurd (Option.some.inj (hother.symm.trans hheld)) hk

/-- The thread that holds the lock sets the flag. -/
lemma Sound.set {who : Nat} (hr : r.Sound as) (h : r.threads[who]? = some .setting)
    (ha : a.who = who) (hheld : r.holder = some who) :
    Sound (as ++ [a]) ({ r with flag := true }.place who .waking) := by
  refine ⟨?_, ?_, ?_, fun _ => rfl⟩
  · intro k u hu
    obtain ⟨rfl, rfl⟩ | ⟨hk, hu⟩ := get_set hu
    · exact rfl
    · -- nobody else is inside the lock, so nobody relies on the flag being unset
      have hout : u.holds = false := by
        rw [← Bool.not_eq_true]
        intro hin
        exact hk (Option.some.inj ((hr.holder_eq hu hin).symm.trans hheld))
      exact ((hr.knows hu).set hout).concat (ne_wait_of_ne (ha ▸ hk))
  · intro k u hu hin
    obtain ⟨rfl, rfl⟩ | ⟨hk, hu⟩ := get_set hu
    · exact hheld
    · exact hr.holder_eq hu hin
  · intro k due _ _
    obtain ⟨hlt, -⟩ := List.getElem?_eq_some_iff.mp h
    exact ⟨who, List.getElem?_set_self hlt⟩

/-- The thread that holds the lock wakes everybody. -/
lemma Sound.rouse {who : Nat} (hr : r.Sound as) (h : r.threads[who]? = some .waking)
    (ha : a.who = who) (hheld : r.holder = some who) :
    Sound (as ++ [a])
      ({ r with threads := r.threads.map WaiterAt.roused }.place who .releasing) := by
  have hget : ∀ {k u}, ((r.threads.map WaiterAt.roused).set who .releasing)[k]? = some u →
      k = who ∧ u = .releasing ∨ k ≠ who ∧ ∃ v, r.threads[k]? = some v ∧ v.roused = u := by
    intro k u hu
    refine (get_set hu).imp_right fun ⟨hk, hu⟩ => ⟨hk, ?_⟩
    rw [List.getElem?_map] at hu
    exact Option.map_eq_some_iff.mp hu
  refine ⟨?_, ?_, ?_, hr.flag_of_cancelled⟩
  · intro k u hu
    obtain ⟨rfl, rfl⟩ | ⟨hk, v, hv, rfl⟩ := hget hu
    · exact hr.knows h
    · exact (hr.knows hv).roused.concat (ne_wait_of_ne (ha ▸ hk))
  · intro k u hu hin
    obtain ⟨rfl, rfl⟩ | ⟨hk, v, hv, rfl⟩ := hget hu
    · exact hheld
    · exact hr.holder_eq hv (WaiterAt.holds_roused v ▸ hin)
  · intro k due _ hu
    obtain ⟨-, heq⟩ | ⟨-, v, -, heq⟩ := hget hu
    · cases heq
    · exact absurd heq (WaiterAt.roused_ne_parked v due)

/-- A thread that is outside ends something that is not a cancellation. -/
lemma Sound.record {who : Nat} (hr : r.Sound as) (h : r.threads[who]? = some .outside)
    (ha : a.who = who) {e : WaitEvent} (he : ∀ w, e ≠ .cancelled w) :
    (r.record e).Sound (as ++ [a]) := by
  have hset : r.threads.set who .outside = r.threads := by
    obtain ⟨hlt, hget⟩ := List.getElem?_eq_some_iff.mp h
    rw [← hget, List.set_getElem_self]
  have hknows : WaiterAt.outside.Knows r.flag who (as ++ [a]) := trivial
  have hmove := hr.move h ha hknows nofun (fun _ _ hk => hk) nofun nofun (hr.flag_of_mem_record he)
  rwa [hset] at hmove

lemma Turn.sound (h : r.Turn a r') (hr : r.Sound as) : r'.Sound (as ++ [a]) := by
  cases h with
  | overflow who now timeout h hdue => exact hr.record h rfl nofun
  | ask who h => exact hr.record h rfl nofun
  | arrive who now timeout due h hdue =>
    exact hr.place h rfl (awaits_of_after? as hdue) nofun nofun nofun
  | cancel who h => exact hr.place h rfl trivial nofun nofun nofun
  | lock who t t' h hfree hlock =>
    obtain ⟨hknows, hin, hwaking⟩ := (hr.knows h).locked hlock
    refine hr.move h rfl (hknows.concat nofun) (fun _ => rfl) ?_ ?_ hwaking
      fun _ => hr.flag_of_cancelled
    · intro k _ hk
      rw [hfree] at hk
      cases hk
    · rintro due rfl
      cases hin
  | leave who due h hheld hflag => exact hr.place h rfl hflag (fun _ => hheld) nofun nofun
  | stay who due h hheld hflag =>
    have hawaits : Awaits who due as := hr.knows h
    exact hr.place h rfl ⟨hflag, hawaits.concat nofun⟩ (fun _ => hheld) nofun nofun
  | park who due h hheld =>
    obtain ⟨hflag, hawaits⟩ := hr.knows h
    exact hr.giveBack h rfl hheld (hawaits.concat nofun) rfl (fun _ _ => hflag) nofun
      fun _ => hr.flag_of_cancelled
  | read who timedOut h hheld =>
    refine hr.place h rfl ⟨rfl, fun hflag => ?_⟩ (fun _ => hheld) nofun nofun
    -- whoever leaves without a deadline behind it has seen the flag set
    have hknows := hr.knows h
    cases timedOut with
    | true => exact hknows.concat nofun
    | false => exact absurd hknows (by rw [hflag]; nofun)
  | answer who answer h hheld =>
    exact hr.giveBack h rfl hheld trivial rfl nofun nofun (hr.flag_of_mem_record nofun)
  | set who h hheld => exact hr.set h rfl hheld
  | rouse who h hheld => exact hr.rouse h rfl hheld
  | finish who h hheld =>
    have hflag : r.flag = true := hr.knows h
    exact hr.giveBack h rfl hheld trivial rfl nofun nofun fun _ _ => hflag
  | wake who due h =>
    have hawaits : Awaits who due as := hr.knows h
    exact hr.place h rfl (hawaits.concat nofun) nofun nofun nofun
  | expire who now due h hle =>
    have hawaits : Awaits who due as := hr.knows h
    exact hr.place h rfl (hawaits.overdue hle) nofun nofun nofun

/-- Nothing unsets the flag. -/
lemma Turn.flag_eq_true (h : r.Turn a r') (hflag : r.flag = true) : r'.flag = true := by
  cases h with
  | set => rfl
  | overflow | arrive | cancel | ask | lock | leave | stay | park | read | answer | rouse | finish
    | wake | expire => exact hflag

/-- A wait that ends with an answer has been holding it. -/
lemma Turn.answering {who : Nat} {answer : Bool} (h : r.Turn a r')
    (hhistory : r'.history = .waited who (.saw answer) :: r.history) :
    r.threads[who]? = some (.answering answer) := by
  cases h with
  | answer who answer h =>
    cases hhistory
    exact h
  | overflow | ask | finish => cases hhistory
  | arrive | cancel | lock | leave | stay | park | read | set | rouse | wake | expire =>
    exact absurd hhistory.symm (List.cons_ne_self _ _)

/-! ### Runs -/

lemma runs : Runs step run := ⟨fun _ => rfl, fun _ _ _ => rfl⟩

lemma sound_of_run {flag : Bool} {n : Nat} (h : (start flag n).run as = some r) : r.Sound as :=
  runs.invariant (P := Sound) (sound_start flag n)
    (fun _ _ _ _ _ hu hstep => (turn_of_step hstep).sound hu) h

lemma flag_of_run (h : r.run as = some r') (hflag : r.flag = true) : r'.flag = true :=
  runs.invariant (P := fun _ u => u.flag = true) hflag
    (fun _ _ _ _ _ hu hstep => (turn_of_step hstep).flag_eq_true hu) h

/-- Whenever the flag is set and the lock is free, nobody is parked. A wait that returns says what
the flag is when it gives the lock back; after a cancellation that is `true`, and it is `false` only
if the clock has reached the deadline of that wait. The flag is set for good. -/
theorem no_cancellation_missed (flag : Bool) (n : Nat) (h : (start flag n).run as = some r) :
    (r.flag = true → r.holder = none →
      ∀ (who : Nat) (due : Moment), r.threads[who]? ≠ some (.parked due)) ∧
    (∀ a r' who answer, r.step a = some r' →
      r'.history = .waited who (.saw answer) :: r.history →
      answer = r.flag ∧ ((∃ w, .cancelled w ∈ r.history) → answer = true) ∧
        (answer = false → Overdue who as)) ∧
    ∀ bs r', r.run bs = some r' → r.flag = true → r'.flag = true := by
  have hr := sound_of_run h
  refine ⟨?_, ?_, fun bs r' hrun hflag => flag_of_run hrun hflag⟩
  · intro hflag hfree who due hwho
    -- whoever is yet to wake this thread holds the lock
    obtain ⟨w, hw⟩ := hr.waking hflag hwho
    have hheld := hr.holder_eq hw rfl
    rw [hfree] at hheld
    cases hheld
  · intro a r' who answer hstep hhistory
    obtain ⟨hanswer, hoverdue⟩ := hr.knows ((turn_of_step hstep).answering hhistory)
    refine ⟨hanswer, ?_, hoverdue⟩
    rintro ⟨w, hw⟩
    rw [hanswer, hr.flag_of_cancelled hw]

/-- Thread 1 waits and parks, thread 2 waits no longer than its deadline, thread 0 cancels, and
thread 1 has its answer. -/
def cancelledWait : List WaitAction :=
  [.wait 1 ⟨10, by decide⟩ (.clamp 100), .lock 1, .proceed 1, .proceed 1,
    .wait 2 ⟨20, by decide⟩ (.clamp 3), .lock 2, .proceed 2, .proceed 2,
    .expire 2 ⟨23, by decide⟩, .lock 2, .proceed 2, .proceed 2,
    .cancel 0, .lock 0, .proceed 0, .proceed 0, .proceed 0,
    .lock 1, .proceed 1, .proceed 1]

theorem no_cancellation_missed_parked :
    ∃ r r', (start false 3).run cancelledWait = some r ∧ r.step (.proceed 1) = some r' ∧
      r'.history = [.waited 1 (.saw true), .cancelled 0, .waited 2 (.saw false)] ∧
      (r.flag = true → r.holder = none →
        ∀ (who : Nat) (due : Moment), r.threads[who]? ≠ some (.parked due)) ∧
      (∀ a r' who answer, r.step a = some r' →
        r'.history = .waited who (.saw answer) :: r.history →
        answer = r.flag ∧ ((∃ w, .cancelled w ∈ r.history) → answer = true) ∧
          (answer = false → Overdue who cancelledWait)) ∧
      ∀ bs r', r.run bs = some r' → r.flag = true → r'.flag = true :=
  ⟨⟨true, some 1, [.outside, .answering true, .outside], [.cancelled 0, .waited 2 (.saw false)]⟩,
    _, rfl, rfl, rfl, no_cancellation_missed false 3 rfl⟩

end WaitingRoom

end Overseer
