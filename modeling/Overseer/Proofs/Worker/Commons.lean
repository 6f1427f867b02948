import Overseer.Proofs.Runs
import Overseer.Worker.Commons

/-!
# Who has a lock

`Commons.Move` says once what a step of a thread can do. Whoever stands inside of a lock has it, and
nobody else has: `Commons.Guards` is kept by every move. Such a thread lets go of the lock by itself
within two steps, whether it returns, waits or unwinds.
-/

namespace Overseer

variable {α κ : Type}

/-- The lock that a thread has. -/
def Standing.held? : Standing α κ → Option Lock
  | inside _ l _ | leaving _ l _ => some l
  | idle | wanting .. | notifying _ | parked .. => none

lemma Standing.held?_roused (l : Lock) (s : Standing α κ) : (s.roused l).held? = s.held? := by
  cases s with
  | parked v l' timed =>
    rw [roused]
    split <;> rfl
  | _ => rfl

lemma Visit.held?_next (l : Lock) (v : Visit α κ) : (v.next l).held? = none := by
  cases v <;> rfl

namespace CommonsAction

/-- Who takes the step. -/
def who : CommonsAction α κ → Nat
  | prompt w _ | arrive w _ | take w | work w | leave w | notify w _ | wake w | expire w => w

end CommonsAction

namespace Commons

/-- What the steps can do. -/
inductive Move [DecidableEq κ] (c : Commons α κ) : CommonsAction α κ → Commons α κ → Prop where
  | prompt (who p u c₁) (h : c.threads[who]? = some .idle) (hp : c.perform p = some (u, c₁)) :
      Move c (.prompt who p) (c₁.tell who (.prompt p) u)
  | refuse (who v l) (h : c.threads[who]? = some .idle) (hlock : c.lock? v = some l)
      (hv : v.isPrecluded = true) :
      Move c (.arrive who v) (c.tell who (.visit v) (.panicked Moment.overflow))
  | arrive (who v l) (h : c.threads[who]? = some .idle) (hlock : c.lock? v = some l)
      (hv : v.isPrecluded = false) :
      Move c (.arrive who v) (c.place who (.wanting v l false))
  | take (who v l late) (h : c.threads[who]? = some (.wanting v l late))
      (hfree : c.holder l = none) :
      Move c (.take who) ((c.hand l (some who)).place who (.inside v l late))
  | finish (who v l late u c₁) (h : c.threads[who]? = some (.inside v l late))
      (hwork : c.work l late v = (.over u, c₁)) :
      Move c (.work who) (c₁.place who (.leaving v l u))
  | park (who v l late timed c₁) (h : c.threads[who]? = some (.inside v l late))
      (hwork : c.work l late v = (.waits timed, c₁)) :
      Move c (.work who) ((c₁.hand l none).place who (.parked v l timed))
  | leave (who v l u) (h : c.threads[who]? = some (.leaving v l u)) :
      Move c (.leave who) (((c.tell who (.visit v) u).hand l none).place who (v.next l))
  | notifyNobody (who l) (h : c.threads[who]? = some (.notifying l))
      (hnone : c.threads.any (Standing.isParkedAt l) = false) :
      Move c (.notify who none) (c.place who .idle)
  | notify (who other v l timed) (h : c.threads[who]? = some (.notifying l))
      (hother : c.threads[other]? = some (.parked v l timed)) :
      Move c (.notify who (some other)) ((c.place who .idle).place other (.wanting v l false))
  | wake (who v l timed) (h : c.threads[who]? = some (.parked v l timed)) :
      Move c (.wake who) (c.place who (.wanting v l false))
  | expire (who v l) (h : c.threads[who]? = some (.parked v l true)) :
      Move c (.expire who) (c.place who (.wanting v l true))

variable {c c₁ c' : Commons α κ} {a : CommonsAction α κ} {who w : Nat} {l l' : Lock}
  {s s₀ : Standing α κ} {v : Visit α κ} {late timed : Bool} {u : Upshot α}
  {done : WorkEnd α}

/-! ### Threads -/

/-- The lock that the thread `w` has. -/
def held? (c : Commons α κ) (w : Nat) : Option Lock := (c.threads[w]?).bind Standing.held?

lemma held?_of_threads (h : c.threads[who]? = some s) : c.held? who = s.held? := by
  rw [held?, h, Option.bind_some]

lemma threads_place (h : c.threads[who]? = some s₀) (s : Standing α κ) (w : Nat) :
    (c.place who s).threads[w]? = if w = who then some s else c.threads[w]? := by
  obtain ⟨hlt, -⟩ := List.getElem?_eq_some_iff.mp h
  rw [place, List.getElem?_set]
  by_cases hw : w = who
  · subst hw
    rw [if_pos rfl, if_pos hlt, if_pos rfl]
  · rw [if_neg (Ne.symm hw), if_neg hw]

lemma held?_place (h : c.threads[who]? = some s₀) (s : Standing α κ) (w : Nat) :
    (c.place who s).held? w = if w = who then s.held? else c.held? w := by
  rw [held?, threads_place h]
  split <;> rfl

lemma place_self (h : c.threads[who]? = some s) : c.place who s = c := by
  obtain ⟨hlt, rfl⟩ := List.getElem?_eq_some_iff.mp h
  rw [place, List.set_getElem_self]

lemma hand_self (c : Commons α κ) (l : Lock) : c.hand l (c.holder l) = c := by
  have hholder : (fun l' => if l' = l then c.holder l else c.holder l') = c.holder := by
    funext l'
    split
    · rw [‹l' = l›]
    · rfl
  rw [hand, hholder]

lemma holder_released (c : Commons α κ) (l : Lock) (who : Nat) (s : Standing α κ) :
    ((c.hand l none).place who s).holder l = none := if_pos rfl

/-! ### Work under a lock -/

/-- The work of a call leaves threads where they stand, or wakes those that wait at the lock. -/
lemma threads_work (c : Commons α κ) (l : Lock) (late : Bool) (v : Visit α κ) :
    (c.work l late v).2.threads = c.threads ∨
      (c.work l late v).2.threads = c.threads.map (Standing.roused l) := by
  cases v with
  | cancel => exact .inr rfl
  | _ => exact .inl rfl

lemma holder_work (c : Commons α κ) (l : Lock) (late : Bool) (v : Visit α κ) :
    (c.work l late v).2.holder = c.holder := by
  cases v <;> rfl

lemma told_work (c : Commons α κ) (l : Lock) (late : Bool) (v : Visit α κ) :
    (c.work l late v).2.told = c.told := by
  cases v <;> rfl

lemma held?_work (c : Commons α κ) (l : Lock) (late : Bool) (v : Visit α κ) (w : Nat) :
    (c.work l late v).2.held? w = c.held? w := by
  rcases threads_work c l late v with h | h
  · rw [held?, h, held?]
  · rw [held?, h, List.getElem?_map, Option.bind_map, held?]
    exact Option.bind_congr fun s _ => s.held?_roused l

/-- A thread that has a lock stays where it stands while it works. -/
lemma threads_of_work (h : c.threads[who]? = some (.inside v l late))
    (hwork : c.work l late v = (done, c₁)) : c₁.threads[who]? = some (.inside v l late) := by
  have hthreads := threads_work c l late v
  rw [hwork] at hthreads
  rcases hthreads with hsame | hroused
  · rw [hsame, h]
  · rw [hroused, List.getElem?_map, h]
    rfl

variable [DecidableEq κ]

/-! ### Steps -/

/-- A step that can be taken does one of the things it can do. -/
lemma move_of_step (h : c.step a = some c') : c.Move a c' := by
  cases a with
  | prompt who p =>
    simp only [step] at h
    split at h
    · obtain ⟨⟨u, c₁⟩, hp, rfl⟩ := Option.map_eq_some_iff.mp h
      exact .prompt who p u c₁ ‹_› hp
    · cases h
  | arrive who v =>
    simp only [step] at h
    split at h
    · split at h <;> cases h
      · exact .refuse who v _ ‹_› ‹_› ‹_›
      · exact .arrive who v _ ‹_› ‹_› (Bool.eq_false_iff.mpr ‹_›)
    · cases h
  | take who =>
    simp only [step] at h
    split at h
    · split at h <;> cases h
      exact .take who _ _ _ ‹_› (Option.not_isSome_iff_eq_none.mp ‹_›)
    · cases h
  | work who =>
    simp only [step] at h
    split at h
    · split at h <;> cases h
      · exact .finish who _ _ _ _ _ ‹_› ‹_›
      · exact .park who _ _ _ _ _ ‹_› ‹_›
    · cases h
  | leave who =>
    simp only [step] at h
    split at h <;> cases h
    exact .leave who _ _ _ ‹_›
  | notify who whom =>
    cases whom with
    | none =>
      simp only [step] at h
      split at h
      · split at h <;> cases h
        exact .notifyNobody who _ ‹_› (Bool.eq_false_iff.mpr ‹_›)
      · cases h
    | some other =>
      simp only [step] at h
      split at h
      · split at h <;> cases h
        subst ‹_ = _›
        exact .notify who other _ _ _ ‹_› ‹_›
      · cases h
  | wake who =>
    simp only [step] at h
    split at h <;> cases h
    exact .wake who _ _ _ ‹_›
  | expire who =>
    simp only [step] at h
    split at h <;> cases h
    exact .expire who _ _ ‹_›

lemma Move.step_eq (h : c.Move a c') : c.step a = some c' := by
  cases h with
  | prompt who p u c₁ h hp => simp only [step, h, hp, Option.map_some]
  | refuse who v l h hlock hv => simp only [step, h, hlock, if_pos hv]
  | arrive who v l h hlock hv => simp only [step, h, hlock, hv, Bool.false_eq_true, if_false]
  | take who v l late h hfree =>
    simp only [step, h, hfree, Option.isSome_none, Bool.false_eq_true, if_false]
  | finish who v l late u c₁ h hwork => simp only [step, h, hwork]
  | park who v l late timed c₁ h hwork => simp only [step, h, hwork]
  | leave who v l u h => simp only [step, h]
  | notifyNobody who l h hnone => simp only [step, h, hnone, Bool.false_eq_true, if_false]
  | notify who other v l timed h hother => simp only [step, h, hother, if_true]
  | wake who v l timed h => simp only [step, h]
  | expire who v l h => simp only [step, h]

lemma runs : Runs (step (α := α) (κ := κ)) run := ⟨fun _ => rfl, fun _ _ _ => rfl⟩

/-- What a call that needs no lock leaves as it is. -/
lemma perform_frame {p : Prompt α κ} (h : c.perform p = some (u, c₁)) :
    c₁.holder = c.holder ∧ c₁.threads = c.threads ∧ c₁.told = c.told := by
  cases p with
  | make | fresh | drop =>
    cases h
    exact ⟨rfl, rfl, rfl⟩
  | copy k source =>
    obtain ⟨t, -, heq⟩ := Option.map_eq_some_iff.mp h
    cases heq
    exact ⟨rfl, rfl, rfl⟩
  | ask k =>
    obtain ⟨b, -, heq⟩ := Option.map_eq_some_iff.mp h
    cases heq
    exact ⟨rfl, rfl, rfl⟩

/-! ### Holders of locks -/

/-- Whoever stands inside of a lock has it, and nobody else has. -/
def Guards (c : Commons α κ) : Prop := ∀ l w, c.holder l = some w ↔ c.held? w = some l

omit [DecidableEq κ] in
lemma guards_opened (deques : List (Deque α)) (tokens : Tokens κ) (n : Nat) :
    (opened deques tokens n).Guards := by
  intro l w
  rw [held?, opened, List.getElem?_replicate]
  split <;> exact ⟨by simp, by simp [Standing.held?]⟩

namespace Guards

omit [DecidableEq κ]

lemma congr (h : c.Guards) (hholder : c'.holder = c.holder) (hheld : ∀ w, c'.held? w = c.held? w) :
    c'.Guards := by
  intro l w
  rw [hholder, hheld]
  exact h l w

/-- The work under a lock changes no lock. -/
lemma work (h : c.Guards) (hwork : c.work l late v = (done, c₁)) : c₁.Guards := by
  have hworked : (c.work l late v).2.Guards := h.congr (holder_work ..) (held?_work c l late v)
  rwa [hwork] at hworked

/-- A thread goes on with the locks that it had. -/
lemma place (h : c.Guards) (hwho : c.threads[who]? = some s₀) (hs : s.held? = s₀.held?) :
    (c.place who s).Guards := by
  refine h.congr rfl fun w => ?_
  rw [held?_place hwho]
  split
  · rw [‹w = who›, held?_of_threads hwho, hs]
  · rfl

/-- A thread takes a lock that nobody has. -/
lemma take (h : c.Guards) (hwho : c.threads[who]? = some s₀) (hs₀ : s₀.held? = none)
    (hs : s.held? = some l) (hfree : c.holder l = none) :
    ((c.hand l (some who)).place who s).Guards := by
  intro l' w
  rw [held?_place (c := c.hand l (some who)) hwho]
  show (if l' = l then some who else c.holder l') = some w ↔
    (if w = who then s.held? else c.held? w) = some l'
  have hwho' : c.held? who = none := (held?_of_threads hwho).trans hs₀
  have hothers := h l' w
  have hl := h l w
  grind

/-- A thread lets go of its lock. -/
lemma release (h : c.Guards) (hwho : c.threads[who]? = some s₀) (hs₀ : s₀.held? = some l)
    (hs : s.held? = none) : ((c.hand l none).place who s).Guards := by
  intro l' w
  rw [held?_place (c := c.hand l none) hwho]
  show (if l' = l then none else c.holder l') = some w ↔
    (if w = who then s.held? else c.held? w) = some l'
  have hwho' : c.held? who = some l := (held?_of_threads hwho).trans hs₀
  have hheld : c.holder l = some who := (h l who).mpr hwho'
  have hothers := h l' w
  have hl := h l w
  grind

end Guards

lemma Move.guards (h : c.Move a c') (hc : c.Guards) : c'.Guards := by
  cases h with
  | prompt who p u c₁ h hp =>
    obtain ⟨hholder, hthreads, -⟩ := perform_frame hp
    have hperformed : c₁.Guards := hc.congr hholder fun w => by rw [held?, hthreads, held?]
    exact hperformed.congr rfl fun _ => rfl
  | refuse => exact hc.congr rfl fun _ => rfl
  | arrive who v l h => exact hc.place h rfl
  | take who v l late h hfree => exact hc.take h rfl rfl hfree
  | finish who v l late u c₁ h hwork =>
    exact (hc.work hwork).place (threads_of_work h hwork) rfl
  | park who v l late timed c₁ h hwork =>
    exact (hc.work hwork).release (threads_of_work h hwork) rfl rfl
  | leave who v l u h =>
    have htold : (c.tell who (.visit v) u).Guards := hc.congr rfl fun _ => rfl
    have hleaving : (c.tell who (.visit v) u).threads[who]? = some (.leaving v l u) := h
    exact htold.release hleaving rfl (Visit.held?_next l v)
  | notifyNobody who l h => exact hc.place h rfl
  | notify who other v l timed h hother =>
    have hother' : (c.place who .idle).threads[other]? = some (.parked v l timed) := by
      rw [threads_place h, if_neg, hother]
      rintro rfl
      cases h.symm.trans hother
    have hidle : (c.place who .idle).Guards := hc.place h rfl
    exact hidle.place hother' rfl
  | wake who v l timed h => exact hc.place h rfl
  | expire who v l h => exact hc.place h rfl

/-- Whoever has a lock lets go of it by itself. -/
lemma Guards.frees (hc : c.Guards) (h : c.holder l = some who) :
    ∃ steps c', (∀ a ∈ steps, a.who = who) ∧ c.run steps = some c' ∧ c'.holder l = none := by
  obtain ⟨s, hs, hheld⟩ := Option.bind_eq_some_iff.mp ((hc l who).mp h)
  have hleaving {c : Commons α κ} {v : Visit α κ} {u : Upshot α}
      (h : c.threads[who]? = some (.leaving v l u)) :
      ∃ c', c.run [.leave who] = some c' ∧ c'.holder l = none := by
    refine ⟨_, ?_, holder_released (c.tell who (.visit v) u) l who (v.next l)⟩
    rw [run, (Move.leave who v l u h).step_eq]
    rfl
  cases s with
  | inside v l' late =>
    obtain rfl : l' = l := Option.some.inj hheld
    rcases hwork : c.work l' late v with ⟨u | timed, c₁⟩
    · have hplaced : (c₁.place who (.leaving v l' u)).threads[who]? = some (.leaving v l' u) := by
        rw [threads_place (threads_of_work hs hwork), if_pos rfl]
      obtain ⟨c', hrun, hfree⟩ := hleaving hplaced
      refine ⟨[.work who, .leave who], c', by simp [CommonsAction.who], ?_, hfree⟩
      rw [run, (Move.finish who v l' late u c₁ hs hwork).step_eq, Option.bind_some, hrun]
    · refine ⟨[.work who], _, by simp [CommonsAction.who], ?_,
        holder_released c₁ l' who (.parked v l' timed)⟩
      rw [run, (Move.park who v l' late timed c₁ hs hwork).step_eq]
      rfl
  | leaving v l' u =>
    obtain rfl : l' = l := Option.some.inj hheld
    obtain ⟨c', hrun, hfree⟩ := hleaving hs
    exact ⟨[.leave who], c', by simp [CommonsAction.who], hrun, hfree⟩
  | idle | wanting | notifying | parked => cases hheld

end Commons

end Overseer
