import Mathlib.Data.List.Perm.Subperm
import Overseer.Proofs.Queue.Sections

/-!
# Where elements go

The history of a deque among threads tells what each section under the lock did, and `Replays` says
that a list, changed as it is told, becomes the one that is stored. Each section keeps the balance
of the elements that came in, went out and were cleared away. A copy is a deque of its own beside
the others: what becomes of a deque depends on what it began with and on its own sections only.
-/

namespace Overseer

variable {α : Type}

/-! ### Sections on a list -/

/-- How a section changes the stored elements, by what is told of it. -/
inductive DequeEvent.Turns : DequeEvent α → List α → List α → Prop where
  | pushFront (who : Nat) (a : α) (xs : List α) : Turns (.pushed who .front a) xs (a :: xs)
  | pushBack (who : Nat) (a : α) (xs : List α) : Turns (.pushed who .back a) xs (xs ++ [a])
  | popFront (who : Nat) (a : α) (xs : List α) : Turns (.popped who .front a) (a :: xs) xs
  | popBack (who : Nat) (a : α) (xs : List α) : Turns (.popped who .back a) (xs ++ [a]) xs
  | giveUp (who : Nat) (timed : Bool) : Turns (.gaveUp who timed) [] []
  | overflow (who : Nat) (xs : List α) : Turns (.overflowed who) xs xs
  | clear (xs : List α) : Turns (.cleared xs) xs []
  | copy (who : Nat) (xs : List α) : Turns (.copied who (.ofList xs)) xs xs

/-- The events, of which the latest is the first, lead from one list to another. -/
inductive Replays (xs : List α) : List (DequeEvent α) → List α → Prop where
  | nil : Replays xs [] xs
  | cons {e : DequeEvent α} {es : List (DequeEvent α)} {ys zs : List α} (h : Replays xs es ys)
      (he : e.Turns ys zs) : Replays xs (e :: es) zs

/-- The elements that an event says came in. -/
def DequeEvent.entered : DequeEvent α → List α
  | pushed _ _ a => [a]
  | _ => []

/-- The elements that an event says a caller got. -/
def DequeEvent.returned : DequeEvent α → List α
  | popped _ _ a => [a]
  | _ => []

/-- The elements that an event says were cleared away. -/
def DequeEvent.removed : DequeEvent α → List α
  | cleared as => as
  | _ => []

/-- The elements that an action brings. -/
def DequeAction.entering : DequeAction α → List α
  | push _ _ a => [a]
  | _ => []

lemma DequeEvent.Turns.count [DecidableEq α] {e : DequeEvent α} {xs ys : List α}
    (h : e.Turns xs ys) (a : α) :
    xs.count a + e.entered.count a = e.returned.count a + e.removed.count a + ys.count a := by
  cases h with
  | pushFront | pushBack | popFront | popBack =>
    simp only [entered, returned, removed, List.count_append, List.count_cons, List.count_nil]
    omega
  | giveUp | overflow | clear | copy => simp [entered, returned, removed]

/-- What was there and what came in is what went out, what was cleared away and what is there. -/
lemma Replays.perm {xs ys : List α} {es : List (DequeEvent α)} (h : Replays xs es ys) :
    (xs ++ es.reverse.flatMap DequeEvent.entered).Perm
      (es.reverse.flatMap DequeEvent.returned ++ es.reverse.flatMap DequeEvent.removed ++ ys) := by
  classical
  rw [List.perm_iff_count]
  intro a
  induction h with
  | nil => simp
  | cons _ he ih =>
    have hturn := he.count a
    simp only [List.reverse_cons, List.flatMap_append, List.flatMap_singleton,
      List.count_append] at ih ⊢
    omega

namespace Deque

variable {d rest : Deque α} {e : End} {a : α}

lemma turns_push (who : Nat) (e : End) (a : α) (d : Deque α) :
    (DequeEvent.pushed who e a).Turns d.toList (d.push e a).toList := by
  cases e with
  | front => exact .pushFront who a d.toList
  | back => exact .pushBack who a d.toList

lemma turns_of_take? (who : Nat) (h : d.take? e = some (a, rest)) :
    (DequeEvent.popped who e a).Turns d.toList rest.toList := by
  obtain ⟨x, hx, heq⟩ := Option.map_eq_some_iff.mp h
  obtain ⟨rfl, rfl⟩ := Prod.mk.inj heq
  cases e with
  | front =>
    obtain ⟨xs, hxs⟩ := List.head?_eq_some_iff.mp hx
    have hitems : x :: d.items.tail = d.items := by rw [hxs, List.tail_cons]
    have hturn := DequeEvent.Turns.popFront who x d.items.tail
    rw [hitems] at hturn
    exact hturn
  | back =>
    have hitems : d.items.dropLast ++ [x] = d.items := List.dropLast_append_getLast? x hx
    have hturn := DequeEvent.Turns.popBack who x d.items.dropLast
    rw [hitems] at hturn
    exact hturn

end Deque

namespace Monitor

variable {m m' : Monitor α} {a : DequeAction α} {queue : Deque α} {n : Nat}

/-- The elements that callers got, in order. -/
def returned (m : Monitor α) : List α := m.history.reverse.flatMap DequeEvent.returned

/-- The elements that were cleared away, in order. -/
def removed (m : Monitor α) : List α := m.history.reverse.flatMap DequeEvent.removed

/-- A step leaves the elements alone and says nothing, or it says how it changes them. -/
inductive Tells (m : Monitor α) (a : DequeAction α) (m' : Monitor α) : Prop where
  | nothing (hhistory : m'.history = m.history) (hqueue : m'.queue = m.queue)
      (hentering : a.entering = [])
  | event (e : DequeEvent α) (hhistory : m'.history = e :: m.history)
      (hturns : e.Turns m.queue.toList m'.queue.toList) (hentering : e.entered = a.entering)

lemma Section.tells (h : m.Section a m') : m.Tells a m' := by
  cases h with
  | push who e a hwho => exact .event _ rfl (Deque.turns_push who e a m.queue) rfl
  | pop who e p now x rest hwho hp htake => exact .event _ rfl (Deque.turns_of_take? who htake) rfl
  | find who e c x rest hwho hc htake => exact .event _ rfl (Deque.turns_of_take? who htake) rfl
  | overflow who => exact .event _ rfl (.overflow who m.queue.toList) rfl
  | clear who => exact .event _ rfl (.clear m.queue.toList) rfl
  | copy who => exact .event _ rfl (.copy who m.queue.toList) rfl
  | refuse who e now hwho htake =>
    refine .event _ rfl ?_ rfl
    rw [queue_record, Deque.toList, Deque.items_of_take?_eq_none htake]
    exact .giveUp who false
  | giveUp who e hwho htake =>
    refine .event _ rfl ?_ rfl
    rw [queue_place, queue_record, Deque.toList, Deque.items_of_take?_eq_none htake]
    exact .giveUp who true
  | notifyNobody | notify | park | parkTimed | wake | expire | parkAgain =>
    exact .nothing rfl rfl rfl

/-- The stored elements are what the sections have made of `xs`, and everything that callers brought
came in. -/
structure Replayed (xs : List α) (as : List (DequeAction α)) (m : Monitor α) : Prop where
  replays : Replays xs m.history m.queue.toList
  entered_eq : m.history.reverse.flatMap DequeEvent.entered = as.flatMap DequeAction.entering

lemma Section.replayed {xs : List α} {as : List (DequeAction α)} (h : m.Section a m')
    (hm : m.Replayed xs as) : m'.Replayed xs (as ++ [a]) := by
  cases h.tells with
  | nothing hhistory hqueue hentering =>
    refine ⟨?_, ?_⟩
    · rw [hhistory, hqueue]
      exact hm.replays
    · rw [hhistory, List.flatMap_append, List.flatMap_singleton, hentering, List.append_nil,
        hm.entered_eq]
  | event e hhistory hturns hentering =>
    refine ⟨?_, ?_⟩
    · rw [hhistory]
      exact .cons hm.replays hturns
    · rw [hhistory, List.reverse_cons, List.flatMap_append, List.flatMap_append,
        List.flatMap_singleton, List.flatMap_singleton, hm.entered_eq, hentering]

lemma replayed_of_run {as : List (DequeAction α)} (h : (start queue n).run as = some m) :
    m.Replayed queue.toList as :=
  run_induction id (P := fun bs u => u.Replayed queue.toList bs) ⟨.nil, rfl⟩
    (fun _ _ _ _ hu hsection => hsection.replayed hu) (by rwa [List.map_id])

/-- No element is lost and none is doubled. -/
lemma Replayed.perm {xs : List α} {as : List (DequeAction α)} (h : m.Replayed xs as) :
    (xs ++ as.flatMap DequeAction.entering).Perm (m.returned ++ m.removed ++ m.queue.toList) := by
  rw [← h.entered_eq]
  exact h.replays.perm

end Monitor

/-! ### Copies -/

namespace Deques

variable {s s' : Deques α} {queue : Deque α} {n : Nat} {acts : List (Nat × DequeAction α)}

/-- The steps of the callers of the `k`-th deque. -/
def own (k : Nat) (acts : List (Nat × DequeAction α)) : List (DequeAction α) :=
  acts.filterMap fun (i, a) => if i = k then some a else none

/-- What the `k`-th deque held in the beginning: the first one what there was, a copy what was in
the deque that was copied when it was copied. -/
inductive Origin (queue : Deque α) (n : Nat) (acts : List (Nat × DequeAction α)) :
    Nat → Deque α → Prop where
  | first : Origin queue n acts 0 queue
  | copy {before after : List (Nat × DequeAction α)} {i who : Nat} {s : Deques α} {m : Monitor α}
      (hacts : acts = before ++ (i, .copy who) :: after)
      (hrun : (start queue n).run before = some s) (hm : s.monitors[i]? = some m) :
      Origin queue n acts s.monitors.length m.queue

lemma runs : Runs (fun (s : Deques α) x => s.step x.1 x.2) run := ⟨fun _ => rfl, fun _ _ _ => rfl⟩

lemma own_concat_self (i : Nat) (a : DequeAction α) :
    own i (acts ++ [(i, a)]) = own i acts ++ [a] := by
  simp [own]

lemma own_concat_of_ne {i k : Nat} (h : i ≠ k) (a : DequeAction α) :
    own k (acts ++ [(i, a)]) = own k acts := by
  simp [own, h]

lemma Origin.concat {k : Nat} {q : Deque α} {x : Nat × DequeAction α}
    (h : Origin queue n acts k q) : Origin queue n (acts ++ [x]) k q := by
  cases h with
  | first => exact .first
  | @copy before after i who s m hacts hrun hm =>
    have hacts' : acts ++ [x] = before ++ (i, .copy who) :: (after ++ [x]) := by
      rw [hacts, List.append_assoc, List.cons_append]
    exact .copy hacts' hrun hm

lemma exists_of_step {i : Nat} {a : DequeAction α} (h : s.step i a = some s') :
    ∃ m m', s.monitors[i]? = some m ∧ m.step a = some m' ∧
      s' = { s with monitors := s.monitors.set i m' ++ s.made m a } := by
  rw [step] at h
  split at h
  · cases h
  · rename_i m hm
    obtain ⟨m', hstep, hs'⟩ := Option.map_eq_some_iff.mp h
    exact ⟨m, m', hm, hstep, hs'.symm⟩

/-- A step on one deque leaves the others as they are. -/
lemma get_step_of_ne {i k : Nat} {a : DequeAction α} {m : Monitor α} (h : s.step i a = some s')
    (hk : s.monitors[k]? = some m) (hne : i ≠ k) : s'.monitors[k]? = some m := by
  obtain ⟨m₁, m', -, -, rfl⟩ := exists_of_step h
  obtain ⟨hlt, -⟩ := List.getElem?_eq_some_iff.mp hk
  have hlt' : k < (s.monitors.set i m').length := by rwa [List.length_set]
  show (s.monitors.set i m' ++ s.made m₁ a)[k]? = some m
  rw [List.getElem?_append_left hlt', List.getElem?_set_ne hne, hk]

/-- Every deque is where its own sections have led it from what it held in the beginning. -/
structure Apart (queue : Deque α) (n : Nat) (acts : List (Nat × DequeAction α)) (s : Deques α) :
    Prop where
  threads_eq : s.threads = n
  lt_length : ∀ x ∈ acts, x.1 < s.monitors.length
  alone : ∀ {k m}, s.monitors[k]? = some m →
    ∃ q, Origin queue n acts k q ∧ (Monitor.start q n).run (own k acts) = some m

lemma apart_start (queue : Deque α) (n : Nat) : (start queue n).Apart queue n [] where
  threads_eq := rfl
  lt_length x hx := by cases hx
  alone {k m} hk := by
    cases k with
    | zero =>
      cases hk
      exact ⟨queue, .first, rfl⟩
    | succ k => cases hk

lemma own_eq_nil {k : Nat} (h : ∀ x ∈ acts, x.1 < k) : own k acts = [] := by
  rw [own, List.filterMap_eq_nil_iff]
  intro x hx
  exact if_neg (Nat.ne_of_lt (h x hx))

lemma Apart.step {i : Nat} {a : DequeAction α} (hs : s.Apart queue n acts)
    (hrun : (start queue n).run acts = some s) (h : s.step i a = some s') :
    s'.Apart queue n (acts ++ [(i, a)]) := by
  obtain ⟨m, m', hm, hstep, rfl⟩ := exists_of_step h
  have hi : i < s.monitors.length := (List.getElem?_eq_some_iff.mp hm).1
  refine ⟨hs.threads_eq, ?_, ?_⟩
  · intro x hx
    rw [List.length_append, List.length_set]
    rcases List.mem_append.mp hx with hx | hx
    · exact Nat.lt_add_right _ (hs.lt_length x hx)
    · rw [List.mem_singleton.mp hx]
      exact Nat.lt_add_right _ hi
  · intro k u hk
    rcases Nat.lt_or_ge k s.monitors.length with hlt | hge
    · -- a deque that was there before
      rw [List.getElem?_append_left (by rwa [List.length_set])] at hk
      by_cases heq : i = k
      · subst heq
        rw [List.getElem?_set_self hi] at hk
        cases hk
        obtain ⟨q, horigin, halone⟩ := hs.alone hm
        refine ⟨q, horigin.concat, ?_⟩
        rw [own_concat_self, Monitor.runs.concat, halone]
        exact hstep
      · rw [List.getElem?_set_ne heq] at hk
        obtain ⟨q, horigin, halone⟩ := hs.alone hk
        exact ⟨q, horigin.concat, by rw [own_concat_of_ne heq, halone]⟩
    · -- a deque that the step has made
      rw [List.getElem?_append_right (by rwa [List.length_set]), List.length_set] at hk
      cases a with
      | copy who =>
        obtain ⟨hlt, hu⟩ := List.getElem?_eq_some_iff.mp hk
        rw [made, List.length_singleton, Nat.lt_one_iff, Nat.sub_eq_zero_iff_le] at hlt
        obtain rfl : k = s.monitors.length := Nat.le_antisymm hlt hge
        rw [Nat.sub_self] at hk
        cases hk
        refine ⟨m.queue, .copy rfl hrun hm, ?_⟩
        rw [own_concat_of_ne (Nat.ne_of_lt hi), own_eq_nil hs.lt_length, hs.threads_eq]
        rfl
      | _ => cases hk

lemma apart_of_run (h : (start queue n).run acts = some s) : s.Apart queue n acts :=
  runs.invariant (P := Apart queue n) (apart_start queue n)
    (fun _ _ _ _ hrun hu hstep => hu.step hrun hstep) h

/-- Of every deque, the first and the copies alike: it is where its own sections have led it from
what it held in the beginning, what is stored is what they make of a list in the order in which they
took the lock, and what was there and what came in is what callers got, what was cleared away and
what is there, so that nobody gets an element twice. A step on another deque leaves it alone. -/
theorem elements_conserved (queue : Deque α) (n : Nat) {acts : List (Nat × DequeAction α)}
    {s : Deques α} (h : (start queue n).run acts = some s) {k : Nat} {m : Monitor α}
    (hk : s.monitors[k]? = some m) :
    (∃ q, Origin queue n acts k q ∧
      (Monitor.start q n).run (own k acts) = some m ∧
      Replays q.toList m.history m.queue.toList ∧
      (q.toList ++ (own k acts).flatMap DequeAction.entering).Perm
        (m.returned ++ m.removed ++ m.queue.toList) ∧
      m.returned.Subperm (q.toList ++ (own k acts).flatMap DequeAction.entering)) ∧
    ∀ i a s', i ≠ k → s.step i a = some s' → s'.monitors[k]? = some m := by
  refine ⟨?_, fun i a s' hne hstep => get_step_of_ne hstep hk hne⟩
  obtain ⟨q, horigin, halone⟩ := (apart_of_run h).alone hk
  have hreplayed := Monitor.replayed_of_run halone
  have hreturned : m.returned.Subperm (m.returned ++ m.removed ++ m.queue.toList) := by
    rw [List.append_assoc]
    exact (List.sublist_append_left _ _).subperm
  exact ⟨q, horigin, halone, hreplayed.replays, hreplayed.perm,
    hreturned.trans hreplayed.perm.symm.subperm⟩

/-- Two elements are pushed, somebody copies the deque, a caller of the copy takes one, and the
first deque is cleared. -/
def copyTaken : List (Nat × DequeAction Nat) :=
  [(0, .push 0 .back 1), (0, .notify 0 none), (0, .push 0 .front 2), (0, .notify 0 none),
    (0, .copy 1), (1, .pop 1 .back .never ⟨2, by decide⟩), (0, .clear 1)]

/-- The copy keeps what the taken element leaves, whatever becomes of the first deque. -/
theorem elements_conserved_copy :
    ∃ s m, (start (.ofList []) 2).run copyTaken = some s ∧ s.monitors[1]? = some m ∧
      m.queue.toList = [2] ∧ m.returned = [1] ∧
      (∃ q, Origin (.ofList []) 2 copyTaken 1 q ∧
        (Monitor.start q 2).run (own 1 copyTaken) = some m ∧
        Replays q.toList m.history m.queue.toList ∧
        (q.toList ++ (own 1 copyTaken).flatMap DequeAction.entering).Perm
          (m.returned ++ m.removed ++ m.queue.toList) ∧
        m.returned.Subperm (q.toList ++ (own 1 copyTaken).flatMap DequeAction.entering)) ∧
      ∀ i a s', i ≠ 1 → s.step i a = some s' → s'.monitors[1]? = some m :=
  ⟨_, _, rfl, rfl, rfl, rfl, elements_conserved _ _ rfl rfl⟩

end Deques

end Overseer
