import Mathlib.Logic.Function.Basic
import Overseer.Proofs.Runs
import Overseer.Worker.Scope

/-!
# Who has a thread

A thread that was not joined is in the hands of exactly one place, or of the join or drop that the
owner is in, and nobody has a thread that was joined: `Scope.IsSound` says so, together with what
was told of the threads. `Scope.Move` says once what a step of the owner or of a body can do there.
-/

namespace Overseer

variable {κ α : Type}

/-- What a join makes of the end of a body. -/
inductive Verdict.Gives (name : String) : Verdict α → Except WorkerFailure α → Prop where
  | value (a : α) : Gives name (.value a) (.ok a)
  | text (s : String) : Gives name (.panicked (.text s)) (.error (.panicked name s))
  | other : Gives name (.panicked .other) (.error (.panicked name "unknown panic payload"))

lemma Verdict.gives_result (name : String) (v : Verdict α) : v.Gives name (v.result name) := by
  cases v with
  | value a => exact .value a
  | panicked p =>
    cases p with
    | text s => exact .text s
    | other => exact .other

namespace ThreadAt

def verdict : ThreadAt α → Verdict α
  | running v | finished v | joined v => v

def isJoined : ThreadAt α → Bool
  | joined _ => true
  | running _ | finished _ => false

end ThreadAt

/-! ### What the events say -/

namespace OwnerEvent

def isSpawn (i : Nat) : OwnerEvent α → Bool
  | spawned j _ _ => j = i
  | _ => false

def isRun (i : Nat) : OwnerEvent α → Bool
  | ran j => j = i
  | _ => false

def isJoin (i : Nat) : OwnerEvent α → Bool
  | joined j => j = i
  | _ => false

/-- The body of the thread has run once, and what it ended with was taken out of it once. -/
def Settled (es : List (OwnerEvent α)) (i : Nat) : Prop :=
  es.countP (isRun i) = 1 ∧ es.countP (isJoin i) = 1

/-- A join or a drop returns when its thread is settled, and a join returns what the body ended
with. -/
def IsBacked (es : List (OwnerEvent α)) : OwnerEvent α → Prop
  | returned i r =>
    Settled es i ∧ ∃ name verdict, .spawned i name verdict ∈ es ∧ verdict.Gives name r
  | dropped i => Settled es i
  | unreachable => False
  | spawned .. | refused _ | ran _ | joined _ => True

/-- What was said of a thread: how often it was spawned, has run and was joined. -/
def tally (es : List (OwnerEvent α)) (i : Nat) : Nat × Nat × Nat :=
  (es.countP (isSpawn i), es.countP (isRun i), es.countP (isJoin i))

lemma tally_cons_of_quiet {e : OwnerEvent α} {i : Nat} (hspawn : e.isSpawn i = false)
    (hrun : e.isRun i = false) (hjoin : e.isJoin i = false) (es : List (OwnerEvent α)) :
    tally (e :: es) i = tally es i := by
  rw [tally, List.countP_cons_of_neg (by simp [hspawn]), List.countP_cons_of_neg (by simp [hrun]),
    List.countP_cons_of_neg (by simp [hjoin]), tally]

end OwnerEvent

open OwnerEvent

/-- What is to be said of a thread that stands there. -/
def ThreadAt.tally : Option (ThreadAt α) → Nat × Nat × Nat
  | none => (0, 0, 0)
  | some (running _) => (1, 0, 0)
  | some (finished _) => (1, 1, 0)
  | some (joined _) => (1, 1, 1)

/-- The thread that a join or a drop has taken out of its handle. -/
def OwnerAt.awaits? : OwnerAt α → Option Nat
  | joining _ i | dropping _ i => some i
  | free | leaving .. => none

namespace Scope

/-- The thread that is in the hands of a place, or of the join or drop that the owner is in. -/
def thread? (s : Scope κ α) : Option κ → Option Nat
  | none => s.stage.awaits?
  | some k => (s.held k).bind ScopedThread.thread

/-- The thread was spawned and not joined. -/
def IsAlive (s : Scope κ α) (i : Nat) : Prop :=
  ∃ st, s.crew.threads[i]? = some st ∧ st.isJoined = false

/-- The handle was given out for the thread `i`. -/
def IsNamed (s : Scope κ α) (i : Nat) (t : ScopedThread) : Prop :=
  ∃ verdict, .spawned i t.name verdict ∈ s.events

/-- What the owner knows where it stands. -/
def Knows (s : Scope κ α) : OwnerAt α → Prop
  | .free => True
  | .joining t i | .dropping t i => t.thread = none ∧ s.IsNamed i t
  | .leaving t i r => t.thread = none ∧ s.IsNamed i t ∧
    ∃ v, s.crew.threads[i]? = some (.joined v) ∧ r = v.result t.name

end Scope

/-! ### Who has a thread -/

/-- Every live thread is in exactly one hand, and no other thread is in any. -/
structure Owned {ι : Type} (f : ι → Option Nat) (live : Nat → Prop) : Prop where
  once : ∀ {p q i}, f p = some i → f q = some i → p = q
  live_iff : ∀ i, live i ↔ ∃ p, f p = some i

namespace Owned

variable {ι : Type} [DecidableEq ι] {f : ι → Option Nat} {live live' : Nat → Prop} {p q : ι}
  {n : Nat}

omit [DecidableEq ι] in
lemma congr (h : Owned f live) (hlive : ∀ i, live' i ↔ live i) : Owned f live' :=
  ⟨h.once, fun i => (hlive i).trans (h.live_iff i)⟩

/-- A thread that was not live comes into a hand that is empty. -/
lemma insert (h : Owned f live) (hq : f q = none) (hn : ¬ live n) :
    Owned (Function.update f q (some n)) fun i => i = n ∨ live i := by
  have hout : ∀ p, f p ≠ some n := fun p hp => hn ((h.live_iff n).mpr ⟨p, hp⟩)
  refine ⟨fun {p p' i} hp hp' => ?_, fun i => ⟨fun hi => ?_, fun ⟨p, hp⟩ => ?_⟩⟩
  · have := h.once (p := p) (q := p') (i := i)
    grind [Function.update_apply]
  · rcases hi with rfl | hi
    · exact ⟨q, Function.update_self ..⟩
    · obtain ⟨p, hp⟩ := (h.live_iff i).mp hi
      refine ⟨p, ?_⟩
      rw [Function.update_of_ne, hp]
      rintro rfl
      cases hq.symm.trans hp
  · rw [Function.update_apply] at hp
    split at hp
    · exact .inl (Option.some.inj hp).symm
    · exact .inr ((h.live_iff i).mpr ⟨p, hp⟩)

/-- A hand lets go of a thread that is no longer live. -/
lemma remove (h : Owned f live) (hp : f p = some n) :
    Owned (Function.update f p none) fun i => live i ∧ i ≠ n := by
  refine ⟨fun {q q' i} hq hq' => ?_, fun i => ⟨fun ⟨hi, hne⟩ => ?_, fun ⟨q, hq⟩ => ?_⟩⟩
  · have := h.once (p := q) (q := q') (i := i)
    grind [Function.update_apply]
  · obtain ⟨q, hq⟩ := (h.live_iff i).mp hi
    refine ⟨q, ?_⟩
    rw [Function.update_of_ne, hq]
    rintro rfl
    exact hne (Option.some.inj (hq.symm.trans hp))
  · rw [Function.update_apply] at hq
    split at hq
    · cases hq
    · refine ⟨(h.live_iff i).mpr ⟨q, hq⟩, ?_⟩
      rintro rfl
      exact ‹q ≠ p› (h.once hq hp)

/-- A thread goes from one hand to another one, which is empty. -/
lemma shift (h : Owned f live) (hq : f q = none) (hpq : p ≠ q) :
    Owned (Function.update (Function.update f p none) q (f p)) live := by
  cases hp : f p with
  | none =>
    rw [← hp, Function.update_eq_self, hp, ← hq, Function.update_eq_self]
    exact h
  | some n =>
    have hempty : Function.update f p none q = none := by
      rw [Function.update_of_ne hpq.symm, hq]
    have hlive : live n := (h.live_iff n).mpr ⟨p, hp⟩
    refine ((h.remove hp).insert hempty fun hout => hout.2 rfl).congr fun i => ?_
    by_cases hi : i = n
    · exact iff_of_true (hi ▸ hlive) (.inl hi)
    · exact ⟨fun hi' => .inr ⟨hi', hi⟩, fun hi' => (hi'.resolve_left hi).1⟩

/-- A thread that was not live comes into a hand, and what that hand had goes to one that is
empty. -/
lemma replace (h : Owned f live) (hq : f q = none) (hpq : p ≠ q) (hn : ¬ live n) :
    Owned (Function.update (Function.update f q (f p)) p (some n)) fun i => i = n ∨ live i := by
  have hempty : Function.update (Function.update f p none) q (f p) p = none := by
    rw [Function.update_of_ne hpq, Function.update_self]
  have howned := (h.shift hq hpq).insert hempty hn
  rwa [Function.update_comm hpq.symm, Function.update_idem, Function.update_comm hpq] at howned

end Owned

namespace Scope

/-! ### Steps -/

/-- The owner after the system has given it a thread. -/
def enlist (s : Scope κ α) (name : String) (verdict : Verdict α) (records : Records) : Scope κ α :=
  { s with
    crew := ⟨s.crew.threads ++ [.running verdict]⟩
    log := s.log ++ records
    events := .spawned s.crew.threads.length name verdict :: s.events }

/-- The owner after it has taken out of a thread what its body ended with. -/
def takeOut (s : Scope κ α) (i : Nat) (v : Verdict α) (stage : OwnerAt α) (records : Records) :
    Scope κ α :=
  { s with
    crew := ⟨s.crew.threads.set i (.joined v)⟩
    stage := stage
    log := s.log ++ records
    events := .joined i :: s.events }

/-- What the steps can do, where every handle has its thread and every thread that is waited for is
live. -/
inductive Move [DecidableEq κ] (s : Scope κ α) : OwnerAction κ α → Scope κ α → Prop where
  | spawn (k name v records) (hstage : s.stage = .free) (hname : nameFault? name = none) :
      Move s (.spawn k name v none)
        ((s.enlist name v records).put k ⟨name, some s.crew.threads.length⟩)
  | refuse (k name v reason) :
      Move s (.spawn k name v (some reason)) (s.tell (.refused (.spawn name reason)))
  | fault (k name v refusal m) (hstage : s.stage = .free) :
      Move s (.spawn k name v refusal) { s with unwinding := some m }
  | move (k source t) (hstage : s.stage = .free) (ht : s.held source = some t) :
      Move s (.move k source) ((s.setPlace source none).put k t)
  | join (k t i) (hstage : s.stage = .free) (ht : s.held k = some t) (hi : t.thread = some i) :
      Move s (.join k) { s.setPlace k none with stage := .joining { t with thread := none } i }
  | drop (k t) (hstage : s.stage = .free) (ht : s.held k = some t) :
      Move s (.drop k) ((s.setPlace k none).release t)
  | take (t i v) (hstage : s.stage = .joining t i)
      (hv : s.crew.threads[i]? = some (.finished v)) :
      Move s .proceed (s.takeOut i v (.leaving t i (v.result t.name)) [])
  | leave (t i r) (hstage : s.stage = .leaving t i r) :
      Move s .proceed ((s.release t).tell (.returned i r))
  | settle (t i v records) (hstage : s.stage = .dropping t i)
      (hv : s.crew.threads[i]? = some (.finished v)) :
      Move s .proceed ((s.takeOut i v .free records).tell (.dropped i))
  | finish (i v) (hv : s.crew.threads[i]? = some (.running v)) :
      Move s (.finish i) { s with
        crew := ⟨s.crew.threads.set i (.finished v)⟩, events := .ran i :: s.events }
  | panic (m) : Move s (.panic m) { s with unwinding := some m }
  | recover : Move s .recover { s with unwinding := none }

variable {s s' : Scope κ α} {a : OwnerAction κ α} {k : κ} {t : ScopedThread} {i : Nat}
  {v : Verdict α} {e : OwnerEvent α} {es : List (OwnerEvent α)}

/-- What was told is told of the threads as they are. -/
structure IsTold (s : Scope κ α) : Prop where
  verdicts : ∀ i name v, .spawned i name v ∈ s.events →
    ∃ st, s.crew.threads[i]? = some st ∧ st.verdict = v
  tallies : ∀ i, tally s.events i = ThreadAt.tally s.crew.threads[i]?
  backed : ∀ later e earlier, s.events = later ++ e :: earlier → e.IsBacked earlier

/-- What holds of every state. -/
structure IsSound (s : Scope κ α) : Prop extends s.IsTold where
  owned : Owned s.thread? s.IsAlive
  places : ∀ k t, s.held k = some t → ∃ i, t.thread = some i ∧ s.IsNamed i t
  stage : s.Knows s.stage

/-! ### Hands -/

lemma thread?_none (hstage : s.stage = .free) : s.thread? none = none := by
  rw [thread?, hstage, OwnerAt.awaits?]

lemma thread?_some (ht : s.held k = some t) : s.thread? (some k) = t.thread := by
  rw [thread?, ht, Option.bind_some]

lemma release_frame (s : Scope κ α) (t : ScopedThread) :
    (s.release t).crew = s.crew ∧ (s.release t).held = s.held ∧
      (s.release t).events = s.events ∧ (s.release t).unwinding = s.unwinding := by
  rw [release]
  split <;> exact ⟨rfl, rfl, rfl, rfl⟩

/-- The handle that goes out of a place may be dropped. -/
lemma knows_release (h : ∀ i, t.thread = some i → s.IsNamed i t) : s.Knows (s.release t).stage := by
  rw [release]
  split
  · trivial
  · exact ⟨rfl, h _ ‹_›⟩

variable [DecidableEq κ]

lemma thread?_setPlace (s : Scope κ α) (k : κ) (t : Option ScopedThread) :
    (s.setPlace k t).thread? =
      Function.update s.thread? (some k) (t.bind ScopedThread.thread) := by
  funext p
  cases p with
  | none => rfl
  | some k' =>
    show (if k' = k then t else s.held k').bind _ = _
    by_cases hk : k' = k
    · subst hk
      rw [if_pos rfl, Function.update_self]
    · rw [if_neg hk, Function.update_of_ne fun heq => hk (Option.some.inj heq)]
      rfl

lemma thread?_stage (s : Scope κ α) (stage : OwnerAt α) :
    thread? { s with stage := stage } = Function.update s.thread? none stage.awaits? := by
  funext p
  cases p with
  | none => rw [Function.update_self, thread?]
  | some k =>
    rw [Function.update_of_ne (Option.some_ne_none k)]
    rfl

lemma thread?_release (s : Scope κ α) (t : ScopedThread) :
    (s.release t).thread? = Function.update s.thread? none t.thread := by
  rw [release]
  split <;> rename_i ht <;> rw [ht] <;> exact thread?_stage s _

/-- What goes with a thread that a place has goes to the drop that the owner comes into. -/
lemma thread?_put (hstage : s.stage = .free) (k : κ) (t : ScopedThread) :
    (s.put k t).thread? =
      Function.update (Function.update s.thread? none (s.thread? (some k))) (some k) t.thread := by
  rw [put]
  cases hheld : s.held k with
  | none =>
    have hk : s.thread? (some k) = none := by rw [thread?, hheld, Option.bind_none]
    rw [hk, ← thread?_none hstage, Function.update_eq_self, thread?_setPlace, Option.bind_some]
  | some old =>
    show (release _ old).thread? = _
    rw [thread?_release, thread?_setPlace, Option.bind_some, thread?_some hheld,
      Function.update_comm (Option.some_ne_none k).symm]

lemma put_frame (s : Scope κ α) (k : κ) (t : ScopedThread) :
    (s.put k t).crew = s.crew ∧ (s.put k t).held = (s.setPlace k (some t)).held ∧
      (s.put k t).events = s.events ∧ (s.put k t).unwinding = s.unwinding := by
  rw [put]
  split
  · exact ⟨rfl, rfl, rfl, rfl⟩
  · exact release_frame _ _

lemma knows_put (hstage : s.stage = .free)
    (h : ∀ old i, s.held k = some old → old.thread = some i → s.IsNamed i old) :
    s.Knows (s.put k t).stage := by
  rw [put]
  split
  · show s.Knows s.stage
    rw [hstage]
    trivial
  · rename_i old hold
    exact knows_release (s := s.setPlace k (some t)) fun i hi => h old i hold hi

/-! ### Taking steps -/

omit [DecidableEq κ] in
lemma IsSound.exists_live (h : s.IsSound) (hi : s.stage.awaits? = some i) :
    (∃ v, s.crew.threads[i]? = some (.running v)) ∨
      ∃ v, s.crew.threads[i]? = some (.finished v) := by
  obtain ⟨st, hst, hjoined⟩ := (h.owned.live_iff i).mpr ⟨none, hi⟩
  cases st with
  | running v => exact .inl ⟨v, hst⟩
  | finished v => exact .inr ⟨v, hst⟩
  | joined v => cases hjoined

/-- A step that can be taken does one of the things it can do. -/
lemma IsSound.move_of_step (h : s.IsSound) (hstep : s.step a = some s') : s.Move a s' := by
  cases a with
  | spawn k name v refusal =>
    simp only [step] at hstep
    split at hstep
    · rename_i hstage _
      unfold Crew.spawn at hstep
      cases hname : nameFault? name with
      | some m =>
        simp only [hname] at hstep
        cases hstep
        rw [List.append_nil]
        exact .fault k name v refusal m hstage
      | none =>
        cases refusal with
        | some reason =>
          simp only [hname] at hstep
          cases hstep
          rw [List.append_nil]
          exact .refuse k name v reason
        | none =>
          simp only [hname] at hstep
          cases hstep
          exact .spawn k name v _ hstage hname
    · cases hstep
  | move k source =>
    simp only [step] at hstep
    split at hstep <;> cases hstep
    exact .move k source _ ‹_› ‹_›
  | join k =>
    simp only [step] at hstep
    split at hstep
    · rename_i t hstage _ ht
      obtain ⟨i, hi, -⟩ := h.places k t ht
      simp only [hi] at hstep
      cases hstep
      exact .join k t i hstage ht hi
    · cases hstep
  | drop k =>
    simp only [step] at hstep
    split at hstep <;> cases hstep
    exact .drop k _ ‹_› ‹_›
  | proceed =>
    simp only [step, proceed] at hstep
    split at hstep
    · cases hstep
    · rename_i t i hstage
      rcases h.exists_live (i := i) (by rw [hstage]; rfl) with ⟨v, hv⟩ | ⟨v, hv⟩
      · simp only [Crew.join, hv] at hstep
        cases hstep
      · simp only [Crew.join, hv] at hstep
        cases hstep
        have hmove := Move.take t i v hstage hv
        rw [takeOut, List.append_nil] at hmove
        exact hmove
    · cases hstep
      exact .leave _ _ _ ‹_›
    · rename_i t i hstage
      rcases h.exists_live (i := i) (by rw [hstage]; rfl) with ⟨v, hv⟩ | ⟨v, hv⟩
      · simp only [Crew.drop, Crew.join, hv, Option.map_none] at hstep
        cases hstep
      · obtain ⟨⟨crew, records⟩, hdrop, rfl⟩ := Option.map_eq_some_iff.mp hstep
        have hcrew : crew = ⟨s.crew.threads.set i (.joined v)⟩ := by
          cases v with
          | value b =>
            simp only [Crew.drop, Crew.join, hv, Verdict.result] at hdrop
            cases hdrop
            rfl
          | panicked p =>
            simp only [Crew.drop, Crew.join, hv, Verdict.result] at hdrop
            cases hdrop
            rfl
        rw [hcrew]
        exact .settle t i v records hstage hv
  | finish i =>
    simp only [step] at hstep
    split at hstep <;> cases hstep
    rename_i v hv
    have hmodify : s.crew.threads.modify i ThreadAt.finish =
        s.crew.threads.set i (.finished v) := by
      obtain ⟨hlt, hget⟩ := List.getElem?_eq_some_iff.mp hv
      rw [List.modify_eq_take_cons_drop hlt, hget, List.set_eq_take_append_cons_drop, if_pos hlt]
      rfl
    rw [hmodify]
    exact .finish i v hv
  | panic m =>
    simp only [step] at hstep
    split at hstep <;> cases hstep
    exact .panic m
  | recover =>
    simp only [step] at hstep
    split at hstep <;> cases hstep
    exact .recover

end Scope

end Overseer
