import Overseer.Proofs.Queue.Sections

/-!
# Nobody sleeps beside an element

A push notifies after it has released the lock, so an element and the notification that it causes
go separate ways. While callers are parked, the elements never outnumber the notifications under
way and the callers that are awake; so an element never lies there with everybody asleep.
-/

namespace Overseer

variable {α : Type}

/-- A caller that brings or has got a wake-up: it is to notify somebody, or it is to look again. -/
def Caller.isRoused : Caller → Bool
  | notifying | woken .. => true
  | _ => false

namespace Monitor

variable {m m' : Monitor α} {a : DequeAction α}

/-- While somebody is parked, there are no more elements than callers to see to them. -/
def Balanced (m : Monitor α) : Prop :=
  0 < m.callers.countP Caller.isParked → m.queue.size ≤ m.callers.countP Caller.isRoused

lemma balanced_start (queue : Deque α) (n : Nat) : (start queue n).Balanced := by
  intro hparked
  simp [start, List.countP_replicate, Caller.isParked] at hparked

/-- An empty queue is balanced, whoever is parked. -/
lemma balanced_of_empty (h : m.queue.size = 0) : m.Balanced := by
  intro _
  omega

lemma size_of_take?_eq_none {e : End} (h : m.queue.take? e = none) : m.queue.size = 0 := by
  rw [Deque.size, Deque.items_of_take?_eq_none h, List.length_nil]

/-- One caller moves, and the elements grow by no more than the callers that are roused. -/
lemma Balanced.move {who : Nat} {c c' : Caller} (hm : m.Balanced)
    (hwho : m.callers[who]? = some c) (hcallers : m'.callers = m.callers.set who c')
    (hparked : c'.isParked = true → c.isParked = true)
    (hsize : m'.queue.size + (if c.isRoused then 1 else 0) ≤
      m.queue.size + (if c'.isRoused then 1 else 0)) : m'.Balanced := by
  unfold Balanced at hm ⊢
  intro hpos
  rw [hcallers] at hpos ⊢
  have hp := countP_place hwho c' Caller.isParked
  have hr := countP_place hwho c' Caller.isRoused
  have hle : (if c'.isParked then 1 else 0) ≤ (if c.isParked then 1 else 0) := by
    split
    · exact Nat.le_of_eq (if_pos (hparked ‹_›)).symm
    · omega
  omega

/-- The caller that notifies leaves, and the one that it notifies is awake instead. -/
lemma Balanced.notify {who other : Nat} {e : End} {timed : Bool} (hm : m.Balanced)
    (hwho : m.callers[who]? = some .notifying)
    (hother : m.callers[other]? = some (.parked e timed)) :
    (m.place who .outside |>.place other (.woken e timed)).Balanced := by
  unfold Balanced at hm ⊢
  intro hpos
  have hne : other ≠ who := by
    rintro rfl
    rw [hwho] at hother
    cases hother
  have hother' : (m.place who .outside).callers[other]? = some (.parked e timed) := by
    rw [place, callers_place hwho, if_neg hne, hother]
  have hp := countP_place hwho .outside Caller.isParked
  have hr := countP_place hwho .outside Caller.isRoused
  have hp' := countP_place hother' (.woken e timed) Caller.isParked
  have hr' := countP_place hother' (.woken e timed) Caller.isRoused
  simp only [place, Caller.isParked, Caller.isRoused, if_true, Bool.false_eq_true,
    if_false] at hp hr hp' hr' hpos ⊢
  omega

lemma Section.balanced (h : m.Section a m') (hm : m.Balanced) : m'.Balanced := by
  cases h with
  | push who e a hwho =>
    refine hm.move hwho rfl (by simp [Caller.isParked]) ?_
    simp [Deque.size_push, Caller.isRoused]
  | notifyNobody who hwho hnone =>
    intro hpos
    obtain ⟨c, hc, hparked⟩ := List.countP_pos_iff.mp hpos
    rcases List.mem_or_eq_of_mem_set hc with hc | rfl
    · rw [hnone c hc] at hparked
      cases hparked
    · cases hparked
  | notify who other e timed hwho hother => exact hm.notify hwho hother
  | overflow | refuse | copy => exact hm
  | pop who e p now x rest hwho hp htake =>
    refine hm.move hwho rfl id ?_
    have hsize := Deque.size_of_take? htake
    simp [Caller.isRoused]
    omega
  | find who e c x rest hwho hc htake =>
    refine hm.move hwho rfl (by simp [Caller.isParked]) ?_
    have hsize := Deque.size_of_take? htake
    have hle : (if c.isRoused then 1 else 0) ≤ 1 := by split <;> omega
    have hnone : (if Caller.outside.isRoused then 1 else 0) = 0 := rfl
    rw [queue_hand]
    omega
  | wake who e timed hwho =>
    refine hm.move hwho rfl (by simp [Caller.isParked]) ?_
    simp [Caller.isRoused]
  | expire who e hwho =>
    refine hm.move hwho rfl (by simp [Caller.isParked]) ?_
    simp [Caller.isRoused]
  | park who e now hwho htake => exact balanced_of_empty (size_of_take?_eq_none htake)
  | parkTimed who e t now hwho hp htake => exact balanced_of_empty (size_of_take?_eq_none htake)
  | parkAgain who e timed hwho htake => exact balanced_of_empty (size_of_take?_eq_none htake)
  | giveUp who e hwho htake => exact balanced_of_empty (size_of_take?_eq_none htake)
  | clear who hwho => exact balanced_of_empty rfl

/-- No interleaving leaves an element, a parked caller, and nobody to see to the element. -/
lemma exists_roused {β : Type} (f : β → DequeAction α) {queue : Deque α} {n : Nat} {bs : List β}
    (h : (start queue n).run (bs.map f) = some m) (hitems : m.queue.items ≠ [])
    (hparked : ∃ c ∈ m.callers, c.isParked = true) :
    ∃ c ∈ m.callers, c.isRoused = true := by
  have hbalanced : m.Balanced :=
    run_induction f (P := fun _ u => u.Balanced) (balanced_start queue n)
      (fun _ _ _ _ hu hsection => hsection.balanced hu) h
  have hsize : 0 < m.queue.size := List.length_pos_iff.mpr hitems
  have hcount := hbalanced (List.countP_pos_iff.mpr hparked)
  exact List.countP_pos_iff.mp (by omega)

end Monitor

end Overseer
