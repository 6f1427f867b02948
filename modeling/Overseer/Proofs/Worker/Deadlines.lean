import Overseer.Proofs.Worker.Commons

/-!
# Calls whose deadline does not exist

A timed pop and a wait for cancellation panic where the clock cannot show their deadline, the pop
while it has the lock of the deque. `Commons.spared` is what there is without these calls: whoever
is inside of one is outside, and has no lock. Every step either belongs to such a call, and there is
no difference without the call, or it can be taken without them as well and does the same.
-/

namespace Overseer

variable {α κ : Type}

/-- The deadline of the call does not exist. -/
def Visit.overflows : Visit α κ → Bool
  | pop _ _ p now => p.overflows now
  | wait _ timeout now => (now.after? timeout).isNone
  | _ => false

def Request.overflows : Request α κ → Bool
  | visit v => v.overflows
  | prompt _ => false

lemma Visit.overflows_of_isPrecluded {v : Visit α κ} (h : v.isPrecluded = true) :
    v.overflows = true := by
  cases v with
  | wait => exact h
  | _ => cases h

lemma Visit.next_of_overflows {v : Visit α κ} (h : v.overflows = true) (l : Lock) :
    v.next l = .idle := by
  cases v with
  | push => cases h
  | _ => rfl

namespace Standing

variable {s : Standing α κ}

/-- The thread is inside a call whose deadline does not exist. -/
def isDoomed : Standing α κ → Bool
  | wanting v _ _ | inside v _ _ | leaving v _ _ | parked v _ _ => v.overflows
  | idle | notifying _ => false

/-- Where the thread stands without such a call. -/
def spared (s : Standing α κ) : Standing α κ := if s.isDoomed then idle else s

/-- Nobody waits in a call whose deadline does not exist, and whoever has worked in one is
unwinding. -/
def IsFit : Standing α κ → Prop
  | wanting v _ late | inside v _ late =>
    v.isPrecluded = false ∧ (late = true → v.overflows = false)
  | leaving v _ u => v.overflows = true → u = .panicked Moment.overflow
  | parked v _ _ => v.isPrecluded = false ∧ v.overflows = false
  | idle | notifying _ => True

lemma spared_of_not_isDoomed (h : s.isDoomed = false) : s.spared = s := by
  rw [spared, h, if_neg Bool.false_ne_true]

lemma isDoomed_roused (l : Lock) (s : Standing α κ) : (s.roused l).isDoomed = s.isDoomed := by
  cases s with
  | parked v l' timed =>
    rw [roused]
    split <;> rfl
  | _ => rfl

lemma spared_roused (l : Lock) (s : Standing α κ) : (s.roused l).spared = s.spared.roused l := by
  rw [spared, isDoomed_roused, spared]
  split <;> rfl

lemma isParkedAt_of_spared {l : Lock} (h : s.spared.isParkedAt l = true) :
    s.isParkedAt l = true := by
  rw [spared] at h
  split at h
  · cases h
  · exact h

lemma IsFit.roused (h : s.IsFit) (l : Lock) : (s.roused l).IsFit := by
  cases s with
  | parked v l' timed =>
    rw [Standing.roused]
    split
    · exact ⟨h.1, fun hlate => by cases hlate⟩
    · exact h
  | _ => exact h

lemma isFit_next (l : Lock) (v : Visit α κ) : (v.next l).IsFit := by
  cases v <;> trivial

end Standing

namespace Commons

variable {c c₁ c' : Commons α κ} {a : CommonsAction α κ} {who w : Nat} {l : Lock}
  {s s₀ : Standing α κ} {v : Visit α κ} {late : Bool} {u : Upshot α} {done : WorkEnd α}

/-- The thread `w` is inside a call whose deadline does not exist. -/
def isDoomed (c : Commons α κ) (w : Nat) : Bool := (c.threads[w]?).any Standing.isDoomed

/-- What there is without the calls whose deadline does not exist. -/
def spared (c : Commons α κ) : Commons α κ :=
  { c with
    holder := fun l => (c.holder l).bind fun w => if c.isDoomed w then none else some w
    threads := c.threads.map Standing.spared
    told := c.told.filter fun t => !t.2.1.overflows }

/-- The step belongs to a call whose deadline does not exist. -/
def isVoid (c : Commons α κ) : CommonsAction α κ → Bool
  | .arrive _ v => v.overflows
  | a => c.isDoomed a.who

/-- The steps that do not belong to such calls. -/
def spare [DecidableEq κ] (c : Commons α κ) : List (CommonsAction α κ) → List (CommonsAction α κ)
  | [] => []
  | a :: as =>
    let rest := match c.step a with
      | some c' => c'.spare as
      | none => []
    if c.isVoid a then rest else a :: rest

/-! ### Without the calls -/

lemma isDoomed_of_threads (h : c.threads[who]? = some s) : c.isDoomed who = s.isDoomed := by
  rw [isDoomed, h, Option.any_some]

lemma isDoomed_place (h : c.threads[who]? = some s₀) (s : Standing α κ) (w : Nat) :
    (c.place who s).isDoomed w = if w = who then s.isDoomed else c.isDoomed w := by
  rw [isDoomed, threads_place h]
  split <;> rfl

lemma threads_spared (h : c.threads[who]? = some s) : c.spared.threads[who]? = some s.spared := by
  rw [spared, List.getElem?_map, h, Option.map_some]

lemma threads_spared_of_not_isDoomed (h : c.threads[who]? = some s) (hs : s.isDoomed = false) :
    c.spared.threads[who]? = some s := by
  rw [threads_spared h, Standing.spared_of_not_isDoomed hs]

lemma holder_spared_of_none (h : c.holder l = none) : c.spared.holder l = none := by
  show (c.holder l).bind _ = none
  rw [h, Option.bind_none]

lemma spared_hand (c : Commons α κ) (l : Lock) (whom : Option Nat) :
    (c.hand l whom).spared =
      c.spared.hand l (whom.bind fun w => if c.isDoomed w then none else some w) := by
  refine Commons.ext rfl rfl (funext fun l' => ?_) rfl rfl
  show (if l' = l then whom else c.holder l').bind _ = if l' = l then _ else _
  split <;> rfl

/-- What is told of a call without a deadline that does not exist is told without the others. -/
lemma spared_tell {r : Request α κ} (h : r.overflows = false) (c : Commons α κ) (who : Nat)
    (u : Upshot α) : (c.tell who r u).spared = c.spared.tell who r u := by
  refine Commons.ext rfl rfl rfl rfl ?_
  simp only [spared, tell, List.filter_cons, h, Bool.not_false, if_true]

lemma spared_tell_of_overflows (h : v.overflows = true) (c : Commons α κ) (who : Nat)
    (u : Upshot α) : (c.tell who (.visit v) u).spared = c.spared := by
  refine Commons.ext rfl rfl rfl rfl ?_
  simp only [spared, tell, List.filter_cons, Request.overflows, h, Bool.not_true,
    Bool.false_eq_true, if_false]

/-- A thread that goes on in its call, or has no lock, moves without the calls as it does with
them. -/
lemma spared_place (h : c.threads[who]? = some s₀)
    (hs : s.isDoomed = s₀.isDoomed ∨ ∀ l, c.holder l ≠ some who) :
    (c.place who s).spared = c.spared.place who s.spared := by
  refine Commons.ext rfl rfl (funext fun l => ?_) List.map_set rfl
  refine Option.bind_congr fun w hw => ?_
  have hsame : (c.place who s).isDoomed w = c.isDoomed w := by
    rw [isDoomed_place h]
    split
    · subst ‹w = who›
      rcases hs with hsame | hfree
      · rw [hsame, isDoomed_of_threads h]
      · exact absurd hw (hfree l)
    · rfl
  rw [hsame]

lemma spared_place_of_clear (h : c.threads[who]? = some s₀) (hs₀ : s₀.isDoomed = false)
    (hs : s.isDoomed = false) : (c.place who s).spared = c.spared.place who s := by
  rw [spared_place h (.inl (hs.trans hs₀.symm)), Standing.spared_of_not_isDoomed hs]

/-- Where a thread stands in a call whose deadline does not exist makes no difference without the
call. -/
lemma spared_place_of_idle (h : c.threads[who]? = some s₀) (hs₀ : s₀.spared = .idle)
    (hs : s.spared = .idle) (hlocks : s.isDoomed = s₀.isDoomed ∨ ∀ l, c.holder l ≠ some who) :
    (c.place who s).spared = c.spared := by
  rw [spared_place h hlocks, hs, ← hs₀]
  exact place_self (threads_spared h)

/-- The work of a call does the same without the other calls. -/
lemma spared_work (hwork : c.work l late v = (done, c₁)) :
    c.spared.work l late v = (done, c₁.spared) := by
  cases v with
  | cancel k =>
    cases hwork
    refine Prod.ext rfl (Commons.ext rfl rfl (funext fun l' => ?_) ?_ rfl)
    · refine Option.bind_congr fun w _ => ?_
      have hsame : (c.work l late (.cancel k)).2.isDoomed w = c.isDoomed w := by
        rw [isDoomed, isDoomed, work, List.getElem?_map]
        cases c.threads[w]? with
        | none => rfl
        | some s => exact s.isDoomed_roused l
      exact congrArg (fun b : Bool => if b then none else some w) hsame.symm
    · show (c.threads.map Standing.spared).map _ = (c.threads.map _).map Standing.spared
      rw [List.map_map, List.map_map]
      exact List.map_congr_left fun s _ => (s.spared_roused l).symm
  | _ =>
    cases hwork
    rfl

lemma setDeque_deque (c : Commons α κ) (i : Nat) : c.setDeque i (c.deque i) = c := by
  rw [setDeque, deque, List.getD_eq_getElem?_getD]
  cases h : c.deques[i]? with
  | none => rw [List.set_eq_of_length_le (List.getElem?_eq_none_iff.mp h)]
  | some d =>
    obtain ⟨hlt, rfl⟩ := List.getElem?_eq_some_iff.mp h
    rw [Option.getD_some, List.set_getElem_self]

/-- The work of a call whose deadline does not exist is to panic. -/
lemma work_of_overflows (hv : v.overflows = true) (hp : v.isPrecluded = false) (c : Commons α κ)
    (l : Lock) : c.work l false v = (.over (.panicked Moment.overflow), c) := by
  cases v with
  | pop i e p now =>
    have hpop : (c.deque i).work e p now false =
        (.over (.panicked Moment.overflow), c.deque i) := by
      have hoverflow : (c.deque i).pop now e p = (.overflow, c.deque i) := if_pos hv
      rw [Deque.work, if_neg Bool.false_ne_true, hoverflow]
    rw [work, hpop]
    exact Prod.ext rfl (setDeque_deque c i)
  | wait => cases hv.symm.trans hp
  | _ => cases hv

variable [DecidableEq κ]

lemma spared_perform {p : Prompt α κ} (h : c.perform p = some (u, c₁)) :
    c.spared.perform p = some (u, c₁.spared) := by
  cases p with
  | make | fresh | drop =>
    cases h
    rfl
  | copy k source =>
    obtain ⟨t, ht, heq⟩ := Option.map_eq_some_iff.mp h
    cases heq
    exact Option.map_eq_some_iff.mpr ⟨t, ht, rfl⟩
  | ask k =>
    obtain ⟨b, hb, heq⟩ := Option.map_eq_some_iff.mp h
    cases heq
    exact Option.map_eq_some_iff.mpr ⟨b, hb, rfl⟩

/-! ### What holds of every state -/

/-- Whoever is inside of a lock has it, and a call whose deadline does not exist does nothing but
panic. -/
structure IsSound (c : Commons α κ) : Prop where
  guards : c.Guards
  fit : ∀ s ∈ c.threads, s.IsFit
  told : ∀ {who : Nat} {v : Visit α κ} {u : Upshot α}, (who, .visit v, u) ∈ c.told →
    v.overflows = true → u = .panicked Moment.overflow

omit [DecidableEq κ] in
lemma isSound_opened (deques : List (Deque α)) (tokens : Tokens κ) (n : Nat) :
    (opened deques tokens n).IsSound where
  guards := guards_opened deques tokens n
  fit s hs := by
    rw [List.eq_of_mem_replicate hs]
    trivial
  told h := by cases h

namespace IsSound

omit [DecidableEq κ]

lemma fit_of_threads (h : c.IsSound) (hwho : c.threads[who]? = some s) : s.IsFit :=
  h.fit s (List.mem_of_getElem? hwho)

/-- A thread that is not inside of a lock has none. -/
lemma holder_ne (h : c.IsSound) (hwho : c.threads[who]? = some s) (hs : s.held? = none) (l : Lock) :
    c.holder l ≠ some who := by
  intro hheld
  have hwho' := (h.guards l who).mp hheld
  rw [held?_of_threads hwho, hs] at hwho'
  cases hwho'

lemma fit_place (h : ∀ s ∈ c.threads, s.IsFit) (hs : s.IsFit) :
    ∀ s' ∈ (c.place who s).threads, s'.IsFit := by
  intro s' hmem
  rcases List.mem_or_eq_of_mem_set hmem with hmem | rfl
  · exact h s' hmem
  · exact hs

lemma fit_work (hwork : c.work l late v = (done, c₁)) (h : ∀ s ∈ c.threads, s.IsFit) :
    ∀ s ∈ c₁.threads, s.IsFit := by
  have hthreads := threads_work c l late v
  rw [hwork] at hthreads
  rcases hthreads with hsame | hroused
  · rw [hsame]
    exact h
  · rw [hroused]
    intro s hs
    obtain ⟨s₀, hs₀, rfl⟩ := List.mem_map.mp hs
    exact (h s₀ hs₀).roused l

/-- A call that comes out of its work is not late, or its deadline exists. -/
lemma work_eq (h : c.IsSound) (hwho : c.threads[who]? = some (.inside v l late))
    (hv : v.overflows = true) : c.work l late v = (.over (.panicked Moment.overflow), c) := by
  obtain ⟨hp, hlate⟩ := h.fit_of_threads hwho
  cases late with
  | true => cases hv.symm.trans (hlate rfl)
  | false => exact work_of_overflows hv hp c l

end IsSound

lemma Move.isSound (h : c.Move a c') (hc : c.IsSound) : c'.IsSound := by
  refine ⟨h.guards hc.guards, ?_, ?_⟩
  · cases h with
    | prompt who p u c₁ h hp =>
      intro s hs
      exact hc.fit s ((perform_frame hp).2.1 ▸ hs)
    | refuse => exact hc.fit
    | arrive who v l h hlock hv => exact IsSound.fit_place hc.fit ⟨hv, fun hlate => by cases hlate⟩
    | take who v l late h hfree =>
      have hfit := hc.fit_of_threads h
      exact IsSound.fit_place hc.fit hfit
    | finish who v l late u c₁ h hwork =>
      have hfit := IsSound.fit_work hwork hc.fit
      refine IsSound.fit_place hfit fun hv => ?_
      cases hwork.symm.trans (hc.work_eq h hv)
      rfl
    | park who v l late timed c₁ h hwork =>
      have hfit := IsSound.fit_work hwork hc.fit
      refine IsSound.fit_place hfit ⟨(hc.fit_of_threads h).1, Bool.eq_false_iff.mpr fun hv => ?_⟩
      cases hwork.symm.trans (hc.work_eq h hv)
    | leave who v l u h => exact IsSound.fit_place hc.fit (Standing.isFit_next l v)
    | notifyNobody who l h => exact IsSound.fit_place hc.fit trivial
    | notify who other v l timed h hother =>
      have hparked := hc.fit_of_threads hother
      exact IsSound.fit_place (IsSound.fit_place hc.fit trivial)
        ⟨hparked.1, fun hlate => by cases hlate⟩
    | wake who v l timed h =>
      exact IsSound.fit_place hc.fit ⟨(hc.fit_of_threads h).1, fun hlate => by cases hlate⟩
    | expire who v l h =>
      have hparked := hc.fit_of_threads h
      exact IsSound.fit_place hc.fit ⟨hparked.1, fun _ => hparked.2⟩
  · intro w v' u' hmem
    cases h with
    | prompt who p u c₁ h hp =>
      rcases List.mem_cons.mp hmem with heq | hmem
      · cases heq
      · exact hc.told ((perform_frame hp).2.2 ▸ hmem)
    | refuse =>
      rcases List.mem_cons.mp hmem with heq | hmem
      · cases heq
        exact fun _ => rfl
      · exact hc.told hmem
    | finish who v l late u c₁ h hwork | park who v l late u c₁ h hwork =>
      have htold := told_work c l late v
      rw [hwork] at htold
      exact hc.told (htold ▸ hmem)
    | leave who v l u h =>
      rcases List.mem_cons.mp hmem with heq | hmem
      · cases heq
        exact hc.fit_of_threads h
      · exact hc.told hmem
    | arrive | take | notifyNobody | notify | wake | expire => exact hc.told hmem

/-! ### Steps with and without the calls -/

/-- A step of a call whose deadline does not exist makes no difference without the call. -/
lemma Move.spared_eq (h : c.Move a c') (hc : c.IsSound) (hvoid : c.isVoid a = true) :
    c'.spared = c.spared := by
  cases h with
  | prompt who p u c₁ h hp => cases (isDoomed_of_threads h).symm.trans hvoid
  | refuse who v l h hlock hv => exact spared_tell_of_overflows hvoid c who _
  | arrive who v l h hlock hv =>
    exact spared_place_of_idle h rfl (if_pos hvoid) (.inr (hc.holder_ne h rfl))
  | take who v l late h hfree =>
    have hdoomed : v.overflows = true := (isDoomed_of_threads h).symm.trans hvoid
    have hhanded : (c.hand l (some who)).threads[who]? = some (.wanting v l late) := h
    have hlock : (c.hand l (some who)).spared = c.spared := by
      have hwho : c.isDoomed who = true := hvoid
      rw [spared_hand, Option.bind_some, if_pos hwho, ← holder_spared_of_none hfree, hand_self]
    have hinside : (Standing.inside v l late).spared = .idle := if_pos hdoomed
    rw [spared_place_of_idle hhanded (if_pos hdoomed) hinside (.inl rfl), hlock]
  | finish who v l late u c₁ h hwork =>
    have hdoomed : v.overflows = true := (isDoomed_of_threads h).symm.trans hvoid
    cases hwork.symm.trans (hc.work_eq h hdoomed)
    exact spared_place_of_idle h (if_pos hdoomed) (if_pos hdoomed) (.inl rfl)
  | park who v l late timed c₁ h hwork =>
    have hdoomed : v.overflows = true := (isDoomed_of_threads h).symm.trans hvoid
    cases hwork.symm.trans (hc.work_eq h hdoomed)
  | leave who v l u h =>
    have hdoomed : v.overflows = true := (isDoomed_of_threads h).symm.trans hvoid
    have hleaving : ((c.tell who (.visit v) u).hand l none).threads[who]? =
        some (.leaving v l u) := h
    have hlocks : ∀ l', ((c.tell who (.visit v) u).hand l none).holder l' ≠ some who := by
      intro l' hl'
      by_cases hl : l' = l
      · cases (if_pos hl).symm.trans hl'
      · have hheld := (hc.guards l' who).mp ((if_neg hl).symm.trans hl')
        cases (held?_of_threads h).symm.trans hheld
        exact hl rfl
    have hfree : c.spared.holder l = none := by
      have hheld : c.holder l = some who := (hc.guards l who).mpr (held?_of_threads h)
      show (c.holder l).bind _ = none
      rw [hheld, Option.bind_some]
      exact if_pos hvoid
    have hlock : ((c.tell who (.visit v) u).hand l none).spared = c.spared := by
      rw [spared_hand, spared_tell_of_overflows hdoomed, Option.bind_none, ← hfree, hand_self]
    have hnext : (v.next l : Standing α κ).spared = .idle := by
      rw [Visit.next_of_overflows hdoomed]
      rfl
    rw [spared_place_of_idle hleaving (if_pos hdoomed) hnext (.inr hlocks), hlock]
  | notifyNobody who l h => cases (isDoomed_of_threads h).symm.trans hvoid
  | notify who other v l timed h hother => cases (isDoomed_of_threads h).symm.trans hvoid
  | wake who v l timed h =>
    cases (hc.fit_of_threads h).2.symm.trans ((isDoomed_of_threads h).symm.trans hvoid)
  | expire who v l h =>
    cases (hc.fit_of_threads h).2.symm.trans ((isDoomed_of_threads h).symm.trans hvoid)

/-- Any other step can be taken without the calls, and does the same. -/
lemma Move.spared (h : c.Move a c') (hc : c.IsSound) (hvoid : c.isVoid a = false) :
    c.spared.Move a c'.spared := by
  cases h with
  | prompt who p u c₁ h hp =>
    rw [spared_tell rfl]
    exact .prompt who p u _ (threads_spared h) (spared_perform hp)
  | refuse who v l h hlock hv =>
    cases (Visit.overflows_of_isPrecluded hv).symm.trans hvoid
  | arrive who v l h hlock hv =>
    rw [spared_place_of_clear h rfl (s := .wanting v l false) hvoid]
    exact .arrive who v l (threads_spared h) hlock hv
  | take who v l late h hfree =>
    have hclear : v.overflows = false := (isDoomed_of_threads h).symm.trans hvoid
    have hhanded : (c.hand l (some who)).threads[who]? = some (.wanting v l late) := h
    have hlock : (c.hand l (some who)).spared = c.spared.hand l (some who) := by
      have hwho : c.isDoomed who = false := hvoid
      rw [spared_hand, Option.bind_some, if_neg (Bool.eq_false_iff.mp hwho)]
    rw [spared_place_of_clear hhanded hclear (s := .inside v l late) hclear, hlock]
    exact .take who v l late (threads_spared_of_not_isDoomed h hclear) (holder_spared_of_none hfree)
  | finish who v l late u c₁ h hwork =>
    have hclear : v.overflows = false := (isDoomed_of_threads h).symm.trans hvoid
    rw [spared_place_of_clear (threads_of_work h hwork) hclear (s := .leaving v l u) hclear]
    exact .finish who v l late u _ (threads_spared_of_not_isDoomed h hclear) (spared_work hwork)
  | park who v l late timed c₁ h hwork =>
    have hclear : v.overflows = false := (isDoomed_of_threads h).symm.trans hvoid
    have hinside := threads_of_work h hwork
    rw [spared_place_of_clear (c := c₁.hand l none) hinside hclear (s := .parked v l timed) hclear,
      spared_hand, Option.bind_none]
    exact .park who v l late timed _ (threads_spared_of_not_isDoomed h hclear) (spared_work hwork)
  | leave who v l u h =>
    have hclear : v.overflows = false := (isDoomed_of_threads h).symm.trans hvoid
    have hnext : (v.next l : Standing α κ).isDoomed = false := by cases v <;> rfl
    rw [spared_place_of_clear (c := (c.tell who (.visit v) u).hand l none) h hclear hnext,
      spared_hand, Option.bind_none, spared_tell (r := .visit v) hclear]
    exact .leave who v l u (threads_spared_of_not_isDoomed h hclear)
  | notifyNobody who l h hnone =>
    rw [spared_place_of_clear h rfl (s := .idle) rfl]
    refine .notifyNobody who l (threads_spared h) ?_
    rw [List.any_eq_false] at hnone ⊢
    intro s hs hparked
    obtain ⟨s₀, hs₀, rfl⟩ := List.mem_map.mp hs
    exact hnone s₀ hs₀ (Standing.isParkedAt_of_spared hparked)
  | notify who other v l timed h hother =>
    have hclear : v.overflows = false := (hc.fit_of_threads hother).2
    have hother' : (c.place who .idle).threads[other]? = some (.parked v l timed) := by
      rw [threads_place h, if_neg, hother]
      rintro rfl
      cases h.symm.trans hother
    rw [spared_place_of_clear hother' hclear (s := .wanting v l false) hclear,
      spared_place_of_clear h rfl (s := .idle) rfl]
    exact .notify who other v l timed (threads_spared h)
      (threads_spared_of_not_isDoomed hother hclear)
  | wake who v l timed h =>
    have hclear : v.overflows = false := (hc.fit_of_threads h).2
    rw [spared_place_of_clear h hclear (s := .wanting v l false) hclear]
    exact .wake who v l timed (threads_spared_of_not_isDoomed h hclear)
  | expire who v l h =>
    have hclear : v.overflows = false := (hc.fit_of_threads h).2
    rw [spared_place_of_clear h hclear (s := .wanting v l true) hclear]
    exact .expire who v l (threads_spared_of_not_isDoomed h hclear)

/-! ### Runs with and without the calls -/

lemma isSound_of_run {acts : List (CommonsAction α κ)} (hc : c.IsSound)
    (h : c.run acts = some c') : c'.IsSound :=
  runs.invariant (P := fun _ c => c.IsSound) hc
    (fun _ _ _ _ _ hu hstep => (move_of_step hstep).isSound hu) h

/-- The other steps of a run are a run without the calls. -/
lemma run_spare {acts : List (CommonsAction α κ)} (hc : c.IsSound) (h : c.run acts = some c') :
    c.spared.run (c.spare acts) = some c'.spared := by
  induction acts generalizing c with
  | nil =>
    cases h
    rfl
  | cons a as ih =>
    rw [run] at h
    obtain ⟨c₁, hstep, hrest⟩ := Option.bind_eq_some_iff.mp h
    have hmove := move_of_step hstep
    have hspared := ih (hmove.isSound hc) hrest
    simp only [spare, hstep]
    cases hvoid : c.isVoid a with
    | true =>
      rw [if_pos rfl, ← hmove.spared_eq hc hvoid]
      exact hspared
    | false =>
      rw [if_neg Bool.false_ne_true, run, (hmove.spared hc hvoid).step_eq, Option.bind_some]
      exact hspared

omit [DecidableEq κ] in
lemma spared_opened (deques : List (Deque α)) (tokens : Tokens κ) (n : Nat) :
    (opened deques tokens n).spared = opened deques tokens n :=
  Commons.ext rfl rfl rfl List.map_replicate rfl

/-- A call whose deadline does not exist panics where its lock is free, and does nothing else. -/
lemma exists_run_of_overflows (hidle : c.threads[who]? = some .idle) (hlock : c.lock? v = some l)
    (hfree : c.holder l = none) (hv : v.overflows = true) :
    ∃ steps, (∀ a ∈ steps, a.who = who) ∧
      c.run steps = some (c.tell who (.visit v) (.panicked Moment.overflow)) := by
  cases hp : v.isPrecluded with
  | true =>
    refine ⟨[.arrive who v], List.forall_mem_singleton.mpr rfl, ?_⟩
    rw [run, (Move.refuse who v l hidle hlock hp).step_eq]
    rfl
  | false =>
    let wanting := c.place who (.wanting v l false)
    let inside := (wanting.hand l (some who)).place who (.inside v l false)
    let leaving := inside.place who (.leaving v l (.panicked Moment.overflow))
    have hwanting : wanting.threads[who]? = some (.wanting v l false) := by
      rw [threads_place hidle, if_pos rfl]
    have hinside : inside.threads[who]? = some (.inside v l false) := by
      rw [threads_place (c := wanting.hand l (some who)) hwanting, if_pos rfl]
    have hleaving : leaving.threads[who]? =
        some (.leaving v l (.panicked Moment.overflow)) := by
      rw [threads_place hinside, if_pos rfl]
    refine ⟨[.arrive who v, .take who, .work who, .leave who], by simp [CommonsAction.who], ?_⟩
    rw [run, (Move.arrive who v l hidle hlock hp).step_eq, Option.bind_some,
      run, (Move.take who v l false hwanting hfree).step_eq, Option.bind_some,
      run, (Move.finish who v l false _ inside hinside (work_of_overflows hv hp _ l)).step_eq,
      Option.bind_some, run, (Move.leave who v l _ hleaving).step_eq, Option.bind_some, run,
      Visit.next_of_overflows hv]
    refine congrArg some (Commons.ext rfl rfl (funext fun l' => ?_) ?_ rfl)
    · show (if l' = l then none else if l' = l then some who else c.holder l') = c.holder l'
      split
      · rw [‹l' = l›, hfree]
      · rfl
    · show (((c.threads.set who _).set who _).set who _).set who .idle = c.threads
      rw [List.set_set, List.set_set, List.set_set]
      exact congrArg Commons.threads (place_self hidle)

/-- Whatever the threads do with the deques and tokens that there are and that they make: each call
whose deadline does not exist ends with its panic, and where no one else has its lock it comes to
that end by itself, whatever it finds. Without the steps of these calls, the others are a run that
tells the same of the other calls and leaves the same elements in the deques and the same tokens
cancelled. Whoever has a lock can let go of it by itself. -/
theorem overflowing_calls_leave_no_trace {deques : List (Deque α)} {tokens : Tokens κ} {n : Nat}
    {acts : List (CommonsAction α κ)} (h : (opened deques tokens n).run acts = some c) :
    (∀ who v u, (who, .visit v, u) ∈ c.told → v.overflows = true →
      u = .panicked Moment.overflow) ∧
    (∀ who v l, c.threads[who]? = some .idle → c.lock? v = some l → c.holder l = none →
      v.overflows = true → ∃ steps, (∀ a ∈ steps, a.who = who) ∧
        c.run steps = some (c.tell who (.visit v) (.panicked Moment.overflow))) ∧
    (∃ c', (opened deques tokens n).run ((opened deques tokens n).spare acts) = some c' ∧
      c'.told = c.told.filter (fun t => !t.2.1.overflows) ∧ c'.deques = c.deques ∧
      c'.tokens = c.tokens ∧ ∀ l, c.holder l = none → c'.holder l = none) ∧
    ∀ l who, c.holder l = some who →
      ∃ steps c', (∀ a ∈ steps, a.who = who) ∧ c.run steps = some c' ∧ c'.holder l = none := by
  have hopened := isSound_opened deques tokens n
  have hsound := isSound_of_run hopened h
  have hspare := run_spare hopened h
  rw [spared_opened] at hspare
  refine ⟨fun who v u hmem => hsound.told hmem,
    fun who v l hidle hlock hfree hv => exists_run_of_overflows hidle hlock hfree hv,
    ⟨c.spared, hspare, rfl, rfl, rfl, fun l => holder_spared_of_none⟩,
    fun l who => hsound.guards.frees⟩

/-- A thread pops with a deadline that the clock cannot show, while another one wants the lock to
push. That one then waits as long for a cancellation, and the first one takes the element. -/
def hurried : List (CommonsAction Nat Nat) :=
  [.prompt 0 (.fresh 5), .arrive 0 (.pop 0 .front (.upTo .longest) ⟨31, by decide⟩), .take 0,
    .arrive 1 (.push 0 .back 8), .work 0, .leave 0, .take 1, .work 1, .leave 1, .notify 1 none,
    .arrive 1 (.wait 5 .longest ⟨31, by decide⟩),
    .arrive 0 (.pop 0 .front .never ⟨31, by decide⟩), .take 0, .work 0, .leave 0]

/-- The two calls panic, and the other three tell the same without them. -/
theorem overflowing_calls_leave_no_trace_hurried :
    ∃ c c' : Commons Nat Nat, (opened [⟨[7]⟩] {} 2).run hurried = some c ∧
      (opened [⟨[7]⟩] {} 2).run ((opened [⟨[7]⟩] {} 2).spare hurried) = some c' ∧
      c.told.map (·.2.2) = [.element (some 7), .panicked Moment.overflow, .unit,
        .panicked Moment.overflow, .unit] ∧
      c'.told.map (·.2.2) = [.element (some 7), .unit, .unit] ∧ c'.deques = [⟨[8]⟩] := by
  have hrun : (opened [⟨[7]⟩] {} 2).run hurried = some _ := rfl
  obtain ⟨-, -, ⟨c', hspare, htold, hdeques, -⟩, -⟩ := overflowing_calls_leave_no_trace hrun
  refine ⟨_, c', hrun, hspare, rfl, ?_, hdeques⟩
  rw [htold]
  rfl

end Commons

end Overseer
