import Overseer.Proofs.Worker.Scope

/-!
# Threads are joined on every path

Every step of an owner or of a body keeps who has which thread, and what was told of the threads:
`Scope.Move.isSound`. So whatever becomes of a handle, its thread is joined once, after its body has
run, and there is always a thread to join.
-/

namespace Overseer

open OwnerEvent

namespace Scope

variable {κ α : Type} {s s' : Scope κ α} {a : OwnerAction κ α} {k : κ} {t : ScopedThread} {i : Nat}
  {v : Verdict α} {e : OwnerEvent α} {es : List (OwnerEvent α)}

/-! ### What every step keeps -/

lemma IsNamed.mono (h : s.IsNamed i t) (hevents : s.events ⊆ s'.events) : s'.IsNamed i t := by
  obtain ⟨v, hv⟩ := h
  exact ⟨v, hevents hv⟩

/-- The owner goes on knowing what it knew while threads go on. -/
lemma Knows.mono {stage : OwnerAt α} (h : s.Knows stage) (hevents : s.events ⊆ s'.events)
    (hjoined : ∀ (i : Nat) (v : Verdict α), s.crew.threads[i]? = some (.joined v) →
      s'.crew.threads[i]? = some (.joined v)) : s'.Knows stage := by
  cases stage with
  | free => trivial
  | joining t i | dropping t i => exact ⟨h.1, h.2.mono hevents⟩
  | leaving t i r =>
    obtain ⟨hnone, hnamed, v, hv, hr⟩ := h
    exact ⟨hnone, hnamed.mono hevents, v, hjoined i v hv, hr⟩

lemma isSound_empty : ({} : Scope κ α).IsSound where
  owned := by
    have hempty : ∀ p i, ({} : Scope κ α).thread? p ≠ some i := by
      intro p i hp
      cases p <;> cases hp
    refine ⟨fun {p q i} hp => absurd hp (hempty p i), fun i => ⟨?_, ?_⟩⟩
    · rintro ⟨st, hst, -⟩
      cases hst
    · rintro ⟨p, hp⟩
      exact absurd hp (hempty p i)
  places k t ht := by cases ht
  stage := trivial
  verdicts i name v hmem := by cases hmem
  tallies i := rfl
  backed later e earlier h := by cases later <;> cases h

namespace IsTold

/-- Handles go from hand to hand. -/
lemma rearrange (h : s.IsTold) (hcrew : s'.crew = s.crew) (hevents : s'.events = s.events)
    (howned : Owned s'.thread? s.IsAlive)
    (hplaces : ∀ k t, s'.held k = some t → ∃ i, t.thread = some i ∧ s.IsNamed i t)
    (hstage : s.Knows s'.stage) : s'.IsSound := by
  obtain ⟨crew, held, stage, unwinding, log, events⟩ := s'
  cases hcrew
  cases hevents
  exact ⟨⟨h.verdicts, h.tallies, h.backed⟩, howned, hplaces, hstage⟩

lemma backed_cons (h : s.IsTold) (he : e.IsBacked s.events) :
    ∀ later e' earlier, e :: s.events = later ++ e' :: earlier → e'.IsBacked earlier := by
  intro later e' earlier heq
  cases later with
  | nil =>
    cases heq
    exact he
  | cons e₀ later => exact h.backed later e' earlier (List.cons.inj heq).2

/-- A thread that was joined has run once and was joined once. -/
lemma settled (h : s.IsTold) (hv : s.crew.threads[i]? = some (.joined v)) : Settled s.events i := by
  have htally : tally s.events i = (1, 1, 1) := by rw [h.tallies, hv]; rfl
  simp only [tally, Prod.mk.injEq] at htally
  exact htally.2

end IsTold

namespace IsSound

/-- Something is told that changes no thread. -/
lemma tell (h : s.IsSound) (he : e.IsBacked s.events)
    (hquiet : ∀ i, e.isSpawn i = false ∧ e.isRun i = false ∧ e.isJoin i = false) :
    (s.tell e).IsSound where
  owned := h.owned
  places k t ht := by
    obtain ⟨i, hi, v, hv⟩ := h.places k t ht
    exact ⟨i, hi, v, List.mem_cons_of_mem e hv⟩
  stage := Knows.mono h.stage (List.subset_cons_self e s.events) fun _ _ hv => hv
  verdicts i name v hmem := by
    rcases List.mem_cons.mp hmem with rfl | hmem
    · have hspawn := (hquiet i).1
      rw [isSpawn, decide_eq_false_iff_not] at hspawn
      exact absurd rfl hspawn
    · exact h.verdicts i name v hmem
  tallies i := by
    obtain ⟨hspawn, hrun, hjoin⟩ := hquiet i
    exact (tally_cons_of_quiet hspawn hrun hjoin s.events).trans (h.tallies i)
  backed := h.backed_cons he

/-- A thread goes on, which is told. -/
lemma advance (h : s.IsSound) {st st' : ThreadAt α} (hi : s.crew.threads[i]? = some st)
    (hcrew : s'.crew = ⟨s.crew.threads.set i st'⟩) (hevents : s'.events = e :: s.events)
    (hverdict : st'.verdict = st.verdict) (he : e.IsBacked s.events)
    (hself : tally (e :: s.events) i = ThreadAt.tally (some st'))
    (hquiet : ∀ j name v, e.isSpawn j = false ∧ e ≠ .spawned j name v)
    (hothers : ∀ j ≠ i, e.isRun j = false ∧ e.isJoin j = false)
    (howned : Owned s'.thread? s'.IsAlive) (hheld : s'.held = s.held)
    (hstage : s'.Knows s'.stage) : s'.IsSound := by
  have hthreads : ∀ j, s'.crew.threads[j]? = if j = i then some st' else s.crew.threads[j]? := by
    intro j
    obtain ⟨hlt, -⟩ := List.getElem?_eq_some_iff.mp hi
    rw [hcrew, List.getElem?_set]
    by_cases hj : j = i
    · subst hj
      rw [if_pos rfl, if_pos hlt, if_pos rfl]
    · rw [if_neg (Ne.symm hj), if_neg hj]
  refine ⟨⟨fun j name v hmem => ?_, fun j => ?_, ?_⟩, howned, fun k t ht => ?_, hstage⟩
  · rw [hevents] at hmem
    rcases List.mem_cons.mp hmem with heq | hmem
    · exact absurd heq.symm (hquiet j name v).2
    · obtain ⟨st₀, hst₀, hv⟩ := h.verdicts j name v hmem
      rw [hthreads]
      split
      · subst ‹j = i›
        cases hi.symm.trans hst₀
        exact ⟨st', rfl, hverdict.trans hv⟩
      · exact ⟨st₀, hst₀, hv⟩
  · rw [hevents, hthreads]
    by_cases hj : j = i
    · subst hj
      rw [if_pos rfl, hself]
    · obtain ⟨hrun, hjoin⟩ := hothers j hj
      rw [if_neg hj, ← h.tallies j]
      exact tally_cons_of_quiet (hquiet j "" (st'.verdict)).1 hrun hjoin s.events
  · rw [hevents]
    exact h.backed_cons he
  · obtain ⟨j, hj, v, hv⟩ := h.places k t (hheld ▸ ht)
    exact ⟨j, hj, v, hevents ▸ List.mem_cons_of_mem e hv⟩

lemma isAlive_set {st st' : ThreadAt α} (hi : s.crew.threads[i]? = some st)
    (hcrew : s'.crew = ⟨s.crew.threads.set i st'⟩) (j : Nat) :
    s'.IsAlive j ↔ if j = i then st'.isJoined = false else s.IsAlive j := by
  obtain ⟨hlt, -⟩ := List.getElem?_eq_some_iff.mp hi
  rw [IsAlive, hcrew]
  by_cases hj : j = i
  · subst hj
    rw [if_pos rfl, List.getElem?_set_self hlt]
    exact ⟨fun ⟨_, hst, hjoined⟩ => Option.some.inj hst ▸ hjoined,
      fun hjoined => ⟨st', rfl, hjoined⟩⟩
  · rw [if_neg hj, List.getElem?_set_ne (Ne.symm hj), IsAlive]

/-- The thread that the owner waits for is joined. -/
lemma takeOut [DecidableEq κ] (h : s.IsSound) (hi : s.stage.awaits? = some i)
    (hv : s.crew.threads[i]? = some (.finished v)) (stage : OwnerAt α)
    (hawaits : stage.awaits? = none) (records : Records)
    (hstage : (s.takeOut i v stage records).Knows stage) :
    (s.takeOut i v stage records).IsSound := by
  have htally : tally s.events i = (1, 1, 0) := by rw [h.tallies, hv]; rfl
  have hthread : (s.takeOut i v stage records).thread? = Function.update s.thread? none none := by
    rw [← hawaits]
    exact thread?_stage s stage
  refine h.advance hv rfl rfl rfl trivial ?_ ?_ ?_ ?_ rfl hstage
  · simp only [tally, Prod.mk.injEq] at htally
    obtain ⟨hspawn, hrun, hjoin⟩ := htally
    simp [tally, ThreadAt.tally, isSpawn, isRun, isJoin, hspawn, hrun, hjoin]
  · exact fun _ _ _ => ⟨rfl, by simp⟩
  · exact fun j hj => ⟨rfl, decide_eq_false hj.symm⟩
  · have hnone : s.thread? none = some i := hi
    rw [hthread]
    refine (h.owned.remove hnone).congr fun j => ?_
    rw [isAlive_set hv rfl]
    by_cases hj : j = i
    · rw [if_pos hj]
      exact iff_of_false (by simp [ThreadAt.isJoined]) fun hlive => hlive.2 hj
    · rw [if_neg hj]
      exact ⟨fun hlive => ⟨hlive, hj⟩, fun hlive => hlive.1⟩

/-- A body comes to its end. -/
lemma finish (h : s.IsSound) (hv : s.crew.threads[i]? = some (.running v)) :
    IsSound { s with
      crew := ⟨s.crew.threads.set i (.finished v)⟩, events := .ran i :: s.events } := by
  have htally : tally s.events i = (1, 0, 0) := by rw [h.tallies, hv]; rfl
  refine h.advance hv rfl rfl rfl trivial ?_ ?_ ?_ ?_ rfl ?_
  · simp only [tally, Prod.mk.injEq] at htally
    obtain ⟨hspawn, hrun, hjoin⟩ := htally
    simp [tally, ThreadAt.tally, isSpawn, isRun, isJoin, hspawn, hrun, hjoin]
  · exact fun _ _ _ => ⟨rfl, by simp⟩
  · exact fun j hj => ⟨decide_eq_false hj.symm, rfl⟩
  · refine h.owned.congr fun j => ?_
    rw [isAlive_set hv rfl]
    split
    · subst ‹j = i›
      exact iff_of_true rfl ⟨_, hv, rfl⟩
    · exact Iff.rfl
  · refine Knows.mono h.stage (List.subset_cons_self _ s.events) fun j v' hj => ?_
    have hne : i ≠ j := by
      rintro rfl
      cases hv.symm.trans hj
    exact (List.getElem?_set_ne hne).trans hj

lemma threads_enlist (s : Scope κ α) (name : String) (v : Verdict α) (records : Records) (i : Nat) :
    (s.enlist name v records).crew.threads[i]? =
      if i = s.crew.threads.length then some (.running v) else s.crew.threads[i]? := by
  show (s.crew.threads ++ [.running v])[i]? = _
  split
  · rw [‹i = _›, List.getElem?_concat_length]
  · by_cases hi : i < s.crew.threads.length
    · rw [List.getElem?_append_left hi]
    · have hlength : (s.crew.threads ++ [ThreadAt.running v]).length ≤ i := by
        rw [List.length_append, List.length_singleton]
        omega
      rw [List.getElem?_eq_none hlength, List.getElem?_eq_none (by omega)]

lemma isAlive_enlist (s : Scope κ α) (name : String) (v : Verdict α) (records : Records) (i : Nat) :
    (s.enlist name v records).IsAlive i ↔ i = s.crew.threads.length ∨ s.IsAlive i := by
  rw [IsAlive, threads_enlist]
  by_cases hi : i = s.crew.threads.length
  · rw [if_pos hi]
    exact iff_of_true ⟨_, rfl, rfl⟩ (.inl hi)
  · rw [if_neg hi]
    exact ⟨.inr, fun hlive => hlive.resolve_left hi⟩

/-- A new thread is told of. -/
lemma isTold_enlist (h : s.IsSound) (name : String) (v : Verdict α) (records : Records) :
    (s.enlist name v records).IsTold := by
  have hnone : s.crew.threads[s.crew.threads.length]? = none :=
    List.getElem?_eq_none (Nat.le_refl _)
  refine ⟨fun i name' v' hmem => ?_, fun i => ?_, h.backed_cons trivial⟩
  · rw [threads_enlist]
    rcases List.mem_cons.mp hmem with heq | hmem
    · cases heq
      exact ⟨.running v, if_pos rfl, rfl⟩
    · obtain ⟨st, hst, hv⟩ := h.verdicts i name' v' hmem
      rw [if_neg, hst]
      · exact ⟨st, rfl, hv⟩
      · rintro rfl
        cases hnone.symm.trans hst
  · rw [threads_enlist]
    show tally (.spawned s.crew.threads.length name v :: s.events) i = _
    by_cases hi : i = s.crew.threads.length
    · have htally := h.tallies i
      rw [hi, hnone] at htally
      simp only [tally, ThreadAt.tally, Prod.mk.injEq] at htally
      obtain ⟨hspawn, hrun, hjoin⟩ := htally
      rw [hi, if_pos rfl]
      simp [tally, ThreadAt.tally, isSpawn, isRun, isJoin, hspawn, hrun, hjoin]
    · rw [if_neg hi, ← h.tallies i]
      have hspawn : (OwnerEvent.spawned s.crew.threads.length name v).isSpawn i = false :=
        decide_eq_false (Ne.symm hi)
      exact tally_cons_of_quiet hspawn rfl rfl s.events

end IsSound

variable [DecidableEq κ]

namespace IsSound

/-- A new thread comes into a place. -/
lemma spawn (h : s.IsSound) (hstage : s.stage = .free) (k : κ) (name : String) (v : Verdict α)
    (records : Records) :
    ((s.enlist name v records).put k ⟨name, some s.crew.threads.length⟩).IsSound := by
  set s₁ := s.enlist name v records with hs₁
  have hmono : s.events ⊆ s₁.events := List.subset_cons_self _ s.events
  obtain ⟨hcrew, hheld, hevents, -⟩ := s₁.put_frame k ⟨name, some s.crew.threads.length⟩
  refine (h.isTold_enlist name v records).rearrange hcrew hevents ?_ ?_ ?_
  · have hnew : ¬ s.IsAlive s.crew.threads.length := by
      rintro ⟨st, hst, -⟩
      rw [List.getElem?_eq_none (Nat.le_refl _)] at hst
      cases hst
    rw [thread?_put (s := s₁) hstage]
    exact (h.owned.replace (thread?_none hstage) (Option.some_ne_none k) hnew).congr
      fun i => isAlive_enlist s name v records i
  · intro k' t' ht'
    rw [hheld] at ht'
    replace ht' : (if k' = k then _ else s.held k') = some t' := ht'
    split at ht'
    · cases ht'
      exact ⟨_, rfl, v, List.mem_cons_self⟩
    · obtain ⟨i, hi, hnamed⟩ := h.places k' t' ht'
      exact ⟨i, hi, hnamed.mono hmono⟩
  · refine knows_put hstage fun old i hold hi => ?_
    obtain ⟨j, hj, hnamed⟩ := h.places k old hold
    obtain rfl : j = i := Option.some.inj (hj.symm.trans hi)
    exact hnamed.mono hmono

/-- A place that is emptied has nothing, and the others have what they had. -/
lemma places_setPlace (h : s.IsSound) (k : κ) :
    ∀ k' t, (s.setPlace k none).held k' = some t → ∃ i, t.thread = some i ∧ s.IsNamed i t := by
  intro k' t ht
  replace ht : (if k' = k then none else s.held k') = some t := ht
  split at ht
  · cases ht
  · exact h.places k' t ht

/-- The handle of one place comes into another one. -/
lemma move (h : s.IsSound) (hstage : s.stage = .free) {source : κ} (ht : s.held source = some t)
    (k : κ) : ((s.setPlace source none).put k t).IsSound := by
  set s₁ := s.setPlace source none with hs₁
  obtain ⟨i, hi, hnamed⟩ := h.places source t ht
  obtain ⟨hcrew, hheld, hevents, -⟩ := s₁.put_frame k t
  have hplaces := h.places_setPlace source
  refine h.rearrange hcrew hevents ?_ ?_ ?_
  · have hsource : s.thread? (some source) = some i := (thread?_some ht).trans hi
    have hlive : s.IsAlive i := (h.owned.live_iff i).mpr ⟨_, hsource⟩
    have howned := h.owned.remove hsource
    have hnone : Function.update s.thread? (some source) none none = none := by
      rw [Function.update_of_ne (Option.some_ne_none source).symm, thread?_none hstage]
    rw [thread?_put (s := s₁) hstage, hs₁, thread?_setPlace, hi]
    refine (howned.replace hnone (Option.some_ne_none k) fun hout => hout.2 rfl).congr fun j => ?_
    by_cases hj : j = i
    · exact iff_of_true (hj ▸ hlive) (.inl hj)
    · exact ⟨fun hlive => .inr ⟨hlive, hj⟩, fun hlive => (hlive.resolve_left hj).1⟩
  · intro k' t' ht'
    rw [hheld] at ht'
    replace ht' : (if k' = k then _ else s₁.held k') = some t' := ht'
    split at ht'
    · cases ht'
      exact ⟨i, hi, hnamed⟩
    · exact hplaces k' t' ht'
  · refine knows_put (s := s₁) hstage fun old j hold hj => ?_
    obtain ⟨j', hj', hnamed'⟩ := hplaces k old hold
    obtain rfl : j' = j := Option.some.inj (hj'.symm.trans hj)
    exact hnamed'

/-- The thread of a place comes into the join or the drop that the owner begins. -/
lemma owned_take (h : s.IsSound) (hstage : s.stage = .free) (ht : s.held k = some t) :
    Owned (Function.update (Function.update s.thread? (some k) none) none t.thread) s.IsAlive := by
  rw [← thread?_some ht]
  exact h.owned.shift (thread?_none hstage) (Option.some_ne_none k)

/-- The handle of a place is joined. -/
lemma join (h : s.IsSound) (hstage : s.stage = .free) (ht : s.held k = some t)
    (hi : t.thread = some i) :
    IsSound { s.setPlace k none with stage := .joining { t with thread := none } i } := by
  obtain ⟨j, hj, hnamed⟩ := h.places k t ht
  obtain rfl : j = i := Option.some.inj (hj.symm.trans hi)
  refine h.rearrange rfl rfl ?_ (h.places_setPlace k) ⟨rfl, hnamed⟩
  rw [thread?_stage, thread?_setPlace, OwnerAt.awaits?, ← hi]
  exact h.owned_take hstage ht

/-- The handle of a place is dropped. -/
lemma drop (h : s.IsSound) (hstage : s.stage = .free) (ht : s.held k = some t) :
    ((s.setPlace k none).release t).IsSound := by
  obtain ⟨i, hi, hnamed⟩ := h.places k t ht
  obtain ⟨hcrew, hheld, hevents, -⟩ := (s.setPlace k none).release_frame t
  refine h.rearrange hcrew hevents ?_ ?_ ?_
  · rw [thread?_release, thread?_setPlace]
    exact h.owned_take hstage ht
  · rw [hheld]
    exact h.places_setPlace k
  · refine knows_release (s := s.setPlace k none) fun j hj => ?_
    obtain rfl : i = j := Option.some.inj (hi.symm.trans hj)
    exact hnamed

/-- The thread that a join has taken was settled before it returns. -/
lemma leave (h : s.IsSound) {r : Except WorkerFailure α} (hstage : s.stage = .leaving t i r) :
    ((s.release t).tell (.returned i r)).IsSound := by
  obtain ⟨hnone, ⟨v', hspawned⟩, v, hv, rfl⟩ : s.Knows (.leaving t i r) := hstage ▸ h.stage
  have hfree : s.release t = { s with stage := .free } := by rw [release, hnone]
  obtain ⟨st, hst, hverdict⟩ := h.verdicts i t.name v' hspawned
  cases hv.symm.trans hst
  cases hverdict
  rw [hfree]
  refine tell (h.rearrange rfl rfl ?_ h.places trivial) ?_ fun _ => ⟨rfl, rfl, rfl⟩
  · have hawaits : s.thread? none = none := by rw [thread?, hstage, OwnerAt.awaits?]
    rw [thread?_stage, OwnerAt.awaits?, ← hawaits, Function.update_eq_self]
    exact h.owned
  · exact ⟨h.settled hv, t.name, v, hspawned, v.gives_result t.name⟩

/-- The thread that a drop has taken is settled when it returns. -/
lemma settle (h : s.IsSound) (hstage : s.stage = .dropping t i)
    (hv : s.crew.threads[i]? = some (.finished v)) (records : Records) :
    ((s.takeOut i v .free records).tell (.dropped i)).IsSound := by
  have hi : s.stage.awaits? = some i := by rw [hstage, OwnerAt.awaits?]
  have htaken := h.takeOut hi hv .free rfl records trivial
  obtain ⟨hlt, -⟩ := List.getElem?_eq_some_iff.mp hv
  exact htaken.tell (htaken.settled (List.getElem?_set_self hlt)) fun _ => ⟨rfl, rfl, rfl⟩

end IsSound

lemma Move.isSound (h : s.Move a s') (hs : s.IsSound) : s'.IsSound := by
  cases h with
  | spawn k name v records hstage hname => exact hs.spawn hstage k name v records
  | refuse k name v reason => exact hs.tell trivial fun _ => ⟨rfl, rfl, rfl⟩
  | fault | panic | recover => exact hs.rearrange rfl rfl hs.owned hs.places hs.stage
  | move k source t hstage ht => exact hs.move hstage ht k
  | join k t i hstage ht hi => exact hs.join hstage ht hi
  | drop k t hstage ht => exact hs.drop hstage ht
  | take t i v hstage hv =>
    have hi : s.stage.awaits? = some i := by rw [hstage, OwnerAt.awaits?]
    obtain ⟨hnone, hnamed⟩ : s.Knows (.joining t i) := hstage ▸ hs.stage
    obtain ⟨hlt, -⟩ := List.getElem?_eq_some_iff.mp hv
    refine hs.takeOut hi hv _ rfl [] ⟨hnone, ?_, v, List.getElem?_set_self hlt, rfl⟩
    exact hnamed.mono (List.subset_cons_self _ s.events)
  | leave t i r hstage => exact hs.leave hstage
  | settle t i v records hstage hv => exact hs.settle hstage hv records
  | finish i v hv => exact hs.finish hv

lemma runs : Runs (step (κ := κ) (α := α)) run := ⟨fun _ => rfl, fun _ _ _ => rfl⟩

lemma isSound_of_run {acts : List (OwnerAction κ α)} (h : run {} acts = some s) : s.IsSound :=
  runs.invariant (P := fun _ s => s.IsSound) isSound_empty
    (fun _ _ _ _ _ hu hstep => (hu.move_of_step hstep).isSound hu) h

/-- Only a spawn, a panic of the owner and a catch of it change what the owner unwinds from. -/
lemma Move.unwinding_eq (h : s.Move a s') :
    s'.unwinding = s.unwinding ∨ (∃ k name v refusal, a = .spawn k name v refusal) ∨
      (∃ m, a = .panic m) ∨ a = .recover := by
  cases h with
  | spawn k name v records => exact .inr (.inl ⟨k, name, v, _, rfl⟩)
  | refuse => exact .inl rfl
  | fault k name v refusal => exact .inr (.inl ⟨k, name, v, refusal, rfl⟩)
  | move k source t => exact .inl (put_frame _ k t).2.2.2
  | drop k t => exact .inl (release_frame _ t).2.2.2
  | leave t => exact .inl (release_frame _ t).2.2.2
  | join | take | settle | finish => exact .inl rfl
  | panic m => exact .inr (.inr (.inl ⟨m, rfl⟩))
  | recover => exact .inr (.inr (.inr rfl))

omit [DecidableEq κ] in
/-- In a join or a drop the owner goes on, or it waits for a body that runs. -/
lemma IsSound.exists_running (h : s.IsSound) (hstage : s.stage ≠ .free)
    (hwaits : s.proceed = none) :
    ∃ i v, s.stage.awaits? = some i ∧ s.crew.threads[i]? = some (.running v) := by
  rw [proceed] at hwaits
  split at hwaits
  · exact absurd ‹s.stage = .free› hstage
  · rename_i t i hjoining
    have hi : s.stage.awaits? = some i := by rw [hjoining, OwnerAt.awaits?]
    rcases h.exists_live hi with ⟨v, hv⟩ | ⟨v, hv⟩
    · exact ⟨i, v, hi, hv⟩
    · simp only [Crew.join, hv] at hwaits
      cases hwaits
  · cases hwaits
  · rename_i t i hdropping
    have hi : s.stage.awaits? = some i := by rw [hdropping, OwnerAt.awaits?]
    rcases h.exists_live hi with ⟨v, hv⟩ | ⟨v, hv⟩
    · exact ⟨i, v, hi, hv⟩
    · simp only [Crew.drop, Crew.join, hv] at hwaits
      cases v <;> cases hwaits

/-- A spawn that fails leaves the threads, the handles and the owner as they are. -/
lemma IsSound.of_failed_spawn (h : s.IsSound) {name : String} {refusal : Option String}
    (hstep : s.step (.spawn k name v refusal) = some s')
    (hfails : (nameFault? name).isSome ∨ refusal.isSome) :
    s'.crew = s.crew ∧ s'.held = s.held ∧ s'.stage = s.stage := by
  cases h.move_of_step hstep with
  | spawn _ _ _ records hstage hname =>
    rw [hname] at hfails
    rcases hfails with hfails | hfails <;> cases hfails
  | refuse | fault => exact ⟨rfl, rfl, rfl⟩

/-- Whatever the owner does with its handles, and whenever bodies end: a join and a drop return when
the body of their thread has run once and was joined once, and a join returns what the body ended
with; there is always a thread to join; no thread runs, or is joined, twice; and threads are all
joined when the owner has no handle any more. In a join or a drop the owner waits for nothing but a
body that runs. Joins and drops do not change what the owner unwinds from, and a spawn that fails
leaves everything as it is. -/
theorem joined_on_every_path {acts : List (OwnerAction κ α)} (h : run {} acts = some s) :
    (∀ later e earlier, s.events = later ++ e :: earlier → e.IsBacked earlier) ∧
    (∀ i, s.events.countP (isSpawn i) ≤ 1 ∧ s.events.countP (isRun i) ≤ 1 ∧
      s.events.countP (isJoin i) ≤ 1) ∧
    ((∀ k, s.held k = none) → s.stage = .free →
      ∀ i < s.crew.threads.length, Settled s.events i) ∧
    (s.stage ≠ .free → s.proceed = none →
      ∃ i v, s.stage.awaits? = some i ∧ s.crew.threads[i]? = some (.running v)) ∧
    (∀ a s', s.step a = some s' → s'.unwinding = s.unwinding ∨
      (∃ k name v refusal, a = .spawn k name v refusal) ∨ (∃ m, a = .panic m) ∨ a = .recover) ∧
    ∀ k name v refusal s', s.step (.spawn k name v refusal) = some s' →
      (nameFault? name).isSome ∨ refusal.isSome →
        s'.crew = s.crew ∧ s'.held = s.held ∧ s'.stage = s.stage := by
  have hsound := isSound_of_run h
  refine ⟨hsound.backed, fun i => ?_, fun hheld hstage i hi => ?_, hsound.exists_running,
    fun a s' hstep => (hsound.move_of_step hstep).unwinding_eq,
    fun k name v refusal s' => hsound.of_failed_spawn⟩
  · have htally := hsound.tallies i
    cases hi : s.crew.threads[i]? with
    | none =>
      rw [hi] at htally
      simp only [tally, ThreadAt.tally, Prod.mk.injEq] at htally
      omega
    | some st =>
      rw [hi] at htally
      cases st <;> simp only [tally, ThreadAt.tally, Prod.mk.injEq] at htally <;> omega
  · have hget := List.getElem?_eq_getElem hi
    cases hst : s.crew.threads[i] with
    | joined v => exact hsound.settled (hget.trans (congrArg some hst))
    | running v | finished v =>
      rw [hst] at hget
      obtain ⟨p, hp⟩ := (hsound.owned.live_iff i).mp ⟨_, hget, rfl⟩
      cases p with
      | none => rw [thread?_none hstage] at hp; cases hp
      | some k => rw [thread?, hheld k] at hp; cases hp

/-- An owner puts a handle in the place of another one, joins a thread while its body still runs,
and panics. -/
def farewell : List (OwnerAction Bool Nat) :=
  [.spawn false "a" (.panicked (.text "boom")) none, .spawn true "b" (.value 7) none, .finish 0,
    .spawn false "c" (.panicked .other) none, .proceed, .join true, .finish 1, .proceed, .proceed,
    .panic "own", .drop false, .finish 2, .proceed]

/-- The three threads are joined, the value is handed out, and the owner has its own panic. -/
theorem joined_on_every_path_farewell : ∃ s, run {} farewell = some s ∧ s.unwinding = some "own" ∧
    (∀ i < 3, Settled s.events i) ∧ ∃ later earlier,
      s.events = later ++ .returned 1 (.ok 7) :: earlier ∧
        IsBacked earlier (.returned 1 (.ok 7)) := by
  have hrun : run {} farewell = some _ := rfl
  obtain ⟨hbacked, -, hsettled, -⟩ := joined_on_every_path hrun
  exact ⟨_, hrun, rfl, hsettled (fun k => by cases k <;> rfl) rfl,
    [.dropped 2, .joined 2, .ran 2], _, rfl, hbacked [.dropped 2, .joined 2, .ran 2] _ _ rfl⟩

end Scope

end Overseer
