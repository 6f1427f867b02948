import Overseer.Proofs.Runs
import Overseer.Queue.Monitor

/-!
# Sections under the lock

`Monitor.Section` says once what a step of a caller can do: from where the caller stands, what it
does to the queue and where it stands afterwards. Every invariant of the queue among threads is a
case analysis over it, and `Monitor.run_induction` carries it to all runs.
-/

namespace Overseer

variable {α : Type}

namespace Deque

variable {d rest : Deque α} {e : End} {a : α}

lemma size_push (e : End) (a : α) (d : Deque α) : (d.push e a).size = d.size + 1 := by
  cases e <;> simp [push, size]

lemma items_of_take?_eq_none (h : d.take? e = none) : d.items = [] := by
  cases e <;> simpa [take?, peek?] using h

lemma size_of_take? (h : d.take? e = some (a, rest)) : d.size = rest.size + 1 := by
  obtain ⟨x, hx, heq⟩ := Option.map_eq_some_iff.mp h
  obtain ⟨rfl, rfl⟩ := Prod.mk.inj heq
  have hne : d.items ≠ [] := by
    rintro hnil
    cases e <;> simp [peek?, hnil] at hx
  have hpos := List.length_pos_iff.mpr hne
  cases e <;> simp only [size, drop, List.length_tail, List.length_dropLast] <;> omega

end Deque

namespace Monitor

variable {m m' : Monitor α} {a : DequeAction α}

/-- The queue after an element was handed to a caller. -/
def hand (m : Monitor α) (who : Nat) (e : End) (x : α) (rest : Deque α) : Monitor α :=
  { m with queue := rest }.record (.popped who e x) |>.place who .outside

/-- What the steps can do. -/
inductive Section (m : Monitor α) : DequeAction α → Monitor α → Prop where
  | push (who e a) (h : m.callers[who]? = some .outside) :
      Section m (.push who e a)
        ({ m with queue := m.queue.push e a }.record (.pushed who e a) |>.place who .notifying)
  | notifyNobody (who) (h : m.callers[who]? = some .notifying)
      (hnone : ∀ c ∈ m.callers, c.isParked = false) :
      Section m (.notify who none) (m.place who .outside)
  | notify (who other e timed) (h : m.callers[who]? = some .notifying)
      (hother : m.callers[other]? = some (.parked e timed)) :
      Section m (.notify who (some other)) (m.place who .outside |>.place other (.woken e timed))
  | overflow (who e p now) (h : m.callers[who]? = some .outside)
      (hp : p.overflows now = true) :
      Section m (.pop who e p now) (m.record (.overflowed who))
  | pop (who e p now x rest) (h : m.callers[who]? = some .outside)
      (hp : p.overflows now = false) (htake : m.queue.take? e = some (x, rest)) :
      Section m (.pop who e p now) (m.hand who e x rest)
  | refuse (who e now) (h : m.callers[who]? = some .outside)
      (htake : m.queue.take? e = none) :
      Section m (.pop who e .never now) (m.record (.gaveUp who false))
  | park (who e now) (h : m.callers[who]? = some .outside) (htake : m.queue.take? e = none) :
      Section m (.pop who e .forever now) (m.place who (.parked e false))
  | parkTimed (who e t now) (h : m.callers[who]? = some .outside)
      (hp : (Patience.upTo t).overflows now = false) (htake : m.queue.take? e = none) :
      Section m (.pop who e (.upTo t) now) (m.place who (.parked e true))
  | wake (who e timed) (h : m.callers[who]? = some (.parked e timed)) :
      Section m (.wake who) (m.place who (.woken e timed))
  | expire (who e) (h : m.callers[who]? = some (.parked e true)) :
      Section m (.expire who) (m.place who (.expired e))
  | find (who e c x rest) (h : m.callers[who]? = some c)
      (hc : (∃ timed, c = .woken e timed) ∨ c = .expired e)
      (htake : m.queue.take? e = some (x, rest)) :
      Section m (.look who) (m.hand who e x rest)
  | parkAgain (who e timed) (h : m.callers[who]? = some (.woken e timed))
      (htake : m.queue.take? e = none) :
      Section m (.look who) (m.place who (.parked e timed))
  | giveUp (who e) (h : m.callers[who]? = some (.expired e)) (htake : m.queue.take? e = none) :
      Section m (.look who) (m.record (.gaveUp who true) |>.place who .outside)
  | clear (who) (h : m.callers[who]? = some .outside) :
      Section m (.clear who) ({ m with queue := m.queue.clear }.record (.cleared m.queue.toList))
  | copy (who) (h : m.callers[who]? = some .outside) :
      Section m (.copy who) (m.record (.copied who m.queue))

lemma serve_of_some {who : Nat} {e : End} {x : α} {rest : Deque α}
    (h : m.queue.take? e = some (x, rest)) (otherwise : Monitor α) :
    m.serve who e otherwise = m.hand who e x rest := by
  rw [serve, h]
  rfl

lemma serve_of_none {who : Nat} {e : End} (h : m.queue.take? e = none) (otherwise : Monitor α) :
    m.serve who e otherwise = otherwise := by
  rw [serve, h]

/-- A step that can be taken does one of the things it can do. -/
lemma section_of_step (h : m.step a = some m') : m.Section a m' := by
  cases a with
  | push who e a =>
    simp only [step] at h
    split at h <;> cases h
    exact .push who e a ‹_›
  | notify who whom =>
    simp only [step] at h
    split at h
    · rename_i hwho
      split at h <;> cases h
      rename_i hnone
      rw [Bool.not_eq_true, List.any_eq_false] at hnone
      exact .notifyNobody who hwho fun c hc => by simpa using hnone c hc
    · split at h <;> cases h
      exact .notify who _ _ _ ‹_› ‹_›
    · cases h
  | pop who e p now =>
    simp only [step] at h
    split at h
    · rename_i hwho
      split at h
      · cases h
        exact .overflow who e p now hwho ‹_›
      · rename_i hp
        rw [Bool.not_eq_true] at hp
        rcases htake : m.queue.take? e with _ | ⟨x, rest⟩
        · rw [serve_of_none htake] at h
          cases p with
          | never =>
            cases h
            exact .refuse who e now hwho htake
          | forever =>
            cases h
            exact .park who e now hwho htake
          | upTo t =>
            cases h
            exact .parkTimed who e t now hwho hp htake
        · rw [serve_of_some htake] at h
          cases h
          exact .pop who e p now x rest hwho hp htake
    · cases h
  | wake who =>
    simp only [step] at h
    split at h <;> cases h
    exact .wake who _ _ ‹_›
  | expire who =>
    simp only [step] at h
    split at h <;> cases h
    exact .expire who _ ‹_›
  | look who =>
    simp only [step] at h
    split at h
    · rename_i e timed hwho
      rcases htake : m.queue.take? e with _ | ⟨x, rest⟩
      · rw [serve_of_none htake] at h
        cases h
        exact .parkAgain who e timed hwho htake
      · rw [serve_of_some htake] at h
        cases h
        exact .find who e _ x rest hwho (.inl ⟨timed, rfl⟩) htake
    · rename_i e hwho
      rcases htake : m.queue.take? e with _ | ⟨x, rest⟩
      · rw [serve_of_none htake] at h
        cases h
        exact .giveUp who e hwho htake
      · rw [serve_of_some htake] at h
        cases h
        exact .find who e _ x rest hwho (.inr rfl) htake
    · cases h
  | clear who =>
    simp only [step] at h
    split at h <;> cases h
    exact .clear who ‹_›
  | copy who =>
    simp only [step] at h
    split at h <;> cases h
    exact .copy who ‹_›

/-! ### Where callers stand -/

@[simp] lemma callers_record (m : Monitor α) (e : DequeEvent α) :
    (m.record e).callers = m.callers := rfl

@[simp] lemma queue_record (m : Monitor α) (e : DequeEvent α) : (m.record e).queue = m.queue := rfl

@[simp] lemma queue_place (m : Monitor α) (who : Nat) (c : Caller) :
    (m.place who c).queue = m.queue := rfl

@[simp] lemma history_place (m : Monitor α) (who : Nat) (c : Caller) :
    (m.place who c).history = m.history := rfl

@[simp] lemma queue_hand (m : Monitor α) (who : Nat) (e : End) (x : α) (rest : Deque α) :
    (m.hand who e x rest).queue = rest := rfl

@[simp] lemma callers_hand (m : Monitor α) (who : Nat) (e : End) (x : α) (rest : Deque α) :
    (m.hand who e x rest).callers = m.callers.set who .outside := rfl

lemma callers_place {who : Nat} {c : Caller} (h : m.callers[who]? = some c) (c' : Caller)
    (other : Nat) :
    (m.callers.set who c')[other]? = if other = who then some c' else m.callers[other]? := by
  obtain ⟨hlt, -⟩ := List.getElem?_eq_some_iff.mp h
  rw [List.getElem?_set]
  by_cases hother : other = who
  · subst hother
    rw [if_pos rfl, if_pos hlt, if_pos rfl]
  · rw [if_neg (Ne.symm hother), if_neg hother]

/-- Moving one caller changes a count by what that caller counts. -/
lemma countP_place {who : Nat} {c : Caller} (h : m.callers[who]? = some c) (c' : Caller)
    (p : Caller → Bool) :
    (m.callers.set who c').countP p + (if p c then 1 else 0) =
      m.callers.countP p + (if p c' then 1 else 0) := by
  obtain ⟨hlt, hget⟩ := List.getElem?_eq_some_iff.mp h
  have hpos : p c = true → 0 < m.callers.countP p := by
    intro hpc
    exact List.countP_pos_iff.mpr ⟨c, hget ▸ List.getElem_mem hlt, hpc⟩
  rw [List.countP_set hlt, hget]
  split
  · have := hpos ‹_›
    omega
  · omega

/-! ### Runs -/

lemma runs : Runs (step (α := α)) run := ⟨fun _ => rfl, fun _ _ _ => rfl⟩

/-- What holds in the beginning and is kept by every section holds after every run. The actions may
come with more than what they do, as with the time at which they are taken. -/
lemma run_induction {β : Type} (f : β → DequeAction α) {P : List β → Monitor α → Prop}
    (hnil : P [] m) (hstep : ∀ bs b u u', P bs u → u.Section (f b) u' → P (bs ++ [b]) u')
    {bs : List β} (h : m.run (bs.map f) = some m') : P bs m' := by
  induction bs using List.reverseRecOn generalizing m' with
  | nil =>
    cases h
    exact hnil
  | append_singleton bs b ih =>
    rw [List.map_append, List.map_singleton, runs.concat] at h
    obtain ⟨u, hrun, hlast⟩ := Option.bind_eq_some_iff.mp h
    exact hstep bs b u m' (ih hrun) (section_of_step hlast)

end Monitor

end Overseer
