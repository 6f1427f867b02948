import Overseer.Proofs.Queue.Interleaving

/-!
# Each end on its own

A push takes six steps of the producer, whatever the consumer does, and the value is out with the
last one. The consumer, wherever it stands and wherever the producer has been left, can take out
all that was published: each of its moves brings it nearer to the last value, by `ahead`, until it
has got it.
-/

namespace Overseer

variable {α : Type}

/-- The move is one of the consumer's. -/
def Move.isReading : Move α → Bool
  | consume _ | proceed => true
  | _ => false

/-- The value that is being pushed, and how many accesses the push still takes. -/
def ProducerAt.underway? : ProducerAt α → Option (α × Nat)
  | pushing v => some (v, 5)
  | allocated v _ => some (v, 4)
  | located v _ _ => some (v, 3)
  | written v _ _ => some (v, 2)
  | linked v _ => some (v, 1)
  | _ => none

namespace ConsumerAt

/-- The next move of a consumer that wants to pop. -/
def next : ConsumerAt → Move α
  | idle => .consume .pop
  | _ => .proceed

/-- How many moves are left before it holds a value, if there is one. A consumer that has come for
something else begins again. -/
def rank : ConsumerAt → Nat
  | advanced _ => 1
  | followed _ _ => 2
  | found .pop _ => 3
  | located .pop _ => 4
  | begun .pop => 5
  | idle => 6
  | found _ _ => 7
  | located _ _ => 8
  | begun _ => 9

lemma isReading_next (k : ConsumerAt) : (k.next : Move α).isReading = true := by
  cases k <;> rfl

end ConsumerAt

namespace EndsAtWork

variable {w w' : EndsAtWork α} {sent returned : List α} {m : Move α}

/-- How far the consumer is from having received all that was pushed. -/
def ahead (sent returned : List α) (w : EndsAtWork α) : Nat :=
  10 * ((sent ++ w.pushed).length - (returned ++ w.received).length) + w.consumer.rank

/-! ### The producer -/

lemma step_push (hidle : w.producer = .idle) (v : α) (h : w.step (.push v) = .ok w') :
    w'.producer = .pushing v ∧ w'.pushed = w.pushed := by
  simp only [step, hidle] at h
  cases h
  exact ⟨rfl, rfl⟩

/-- An access of a push that is not the last one brings it one step on. -/
lemma produce_underway {v : α} {k : Nat} (hv : w.producer.underway? = some (v, k + 2))
    (h : w.produce = .ok w') :
    w'.producer.underway? = some (v, k + 1) ∧ w'.pushed = w.pushed := by
  unfold produce at h
  cases hproducer : w.producer with
  | idle | asking | compared | linked =>
    rw [hproducer] at hv
    cases hv
  | pushing | allocated =>
    rw [hproducer] at hv h
    cases hv
    cases h
    exact ⟨rfl, rfl⟩
  | located u next tail =>
    rw [hproducer] at hv h
    cases hv
    simp only at h
    cases hwrite : w.chain.setValue tail v <;> rw [hwrite] at h <;> cases h
    exact ⟨rfl, rfl⟩
  | written u next tail =>
    rw [hproducer] at hv h
    cases hv
    simp only at h
    cases hwrite : w.chain.setNext tail next <;> rw [hwrite] at h <;> cases h
    exact ⟨rfl, rfl⟩

/-- The last access of a push is the one that publishes. -/
lemma underway?_eq_some {p : ProducerAt α} {v : α} {k : Nat} (h : p.underway? = some (v, k)) :
    (∃ next, p = .linked v next) ∨ ∃ j, k = j + 2 := by
  cases p with
  | idle | asking | compared => cases h
  | linked u next =>
    cases h
    exact .inl ⟨next, rfl⟩
  | pushing | allocated | located | written =>
    cases h
    exact .inr ⟨_, rfl⟩

/-- With the last access the value is out. -/
lemma produce_linked {v : α} {next : Nat} (hlinked : w.producer = .linked v next)
    (h : w.produce = .ok w') : w'.producer = .idle ∧ w'.pushed = w.pushed ++ [v] := by
  simp only [produce, hlinked] at h
  cases h
  exact ⟨rfl, pushed_record _ _⟩

/-! ### The consumer -/

lemma ahead_lt (hpushed : w'.pushed = w.pushed) (hreceived : w'.received = w.received)
    (hrank : w'.consumer.rank < w.consumer.rank) :
    w'.ahead sent returned < w.ahead sent returned := by
  rw [ahead, ahead, hpushed, hreceived]
  exact Nat.add_lt_add_left hrank _

lemma pushed_record_of_none {e : EndsEvent α} (he : e.sent = none) :
    (w.record e).pushed = w.pushed := by
  rw [pushed_record, he, Option.toList_none, List.append_nil]

lemma received_record_of_none {e : EndsEvent α} (he : e.given = none) :
    (w.record e).received = w.received := by
  rw [received_record, he, Option.toList_none, List.append_nil]

/-- Of a move of the consumer the producer sees nothing. -/
lemma proceed_keeps (h : w.proceed = .ok w') :
    w'.producer = w.producer ∧ w'.pushed = w.pushed := by
  unfold proceed at h
  cases hconsumer : w.consumer with
  | idle | begun | followed =>
    rw [hconsumer] at h
    cases h
    exact ⟨rfl, rfl⟩
  | located errand head =>
    rw [hconsumer] at h
    simp only at h
    split at h
    · cases h
      cases errand <;> exact ⟨rfl, pushed_record_of_none rfl⟩
    · split at h <;> cases h
      · exact ⟨rfl, pushed_record_of_none rfl⟩
      · exact ⟨rfl, rfl⟩
  | found errand head =>
    rw [hconsumer] at h
    cases errand with
    | pop =>
      simp only at h
      cases hnext : w.chain.nextOf head <;> rw [hnext] at h <;> cases h
      exact ⟨rfl, rfl⟩
    | front | isEmpty =>
      simp only at h
      cases hvalue : w.chain.valueAt head <;> rw [hvalue] at h <;> cases h
      exact ⟨rfl, pushed_record_of_none rfl⟩
  | advanced head =>
    rw [hconsumer] at h
    simp only at h
    cases hfree : w.chain.free head <;> rw [hfree] at h <;> cases h
    exact ⟨rfl, pushed_record_of_none rfl⟩

lemma step_isReading (hm : m.isReading = true) (h : w.step m = .ok w') :
    w'.producer = w.producer ∧ w'.pushed = w.pushed := by
  cases m with
  | push | askEmpty | produce => cases hm
  | proceed => exact proceed_keeps h
  | consume errand =>
    simp only [step] at h
    split at h <;> cases h <;> exact ⟨rfl, rfl⟩

namespace Coherent

lemma of_step (h : w.Coherent sent returned) (hstep : w.step m = .ok w') :
    w'.Coherent sent returned := by
  obtain ⟨u, hu, hfollows⟩ := h.step m
  cases hstep.symm.trans hu
  exact hfollows.coherent

/-- As long as something is left to be received, the consumer comes nearer to it. -/
lemma nears (h : w.Coherent sent returned) (hleft : returned ++ w.received ≠ sent ++ w.pushed) :
    ∃ w', w.step w.consumer.next = .ok w' ∧ w'.ahead sent returned < w.ahead sent returned := by
  have hholds := h.holds
  have hfits := h.consumer
  cases hconsumer : w.consumer with
  | idle =>
    simp only [ConsumerAt.next, EndsAtWork.step, hconsumer]
    exact ⟨_, rfl, ahead_lt rfl rfl (by rw [hconsumer]; exact Nat.lt_succ_self _)⟩
  | begun errand =>
    simp only [ConsumerAt.next, EndsAtWork.step, EndsAtWork.proceed, hconsumer]
    refine ⟨_, rfl, ahead_lt rfl rfl ?_⟩
    rw [hconsumer]
    cases errand <;> exact Nat.lt_succ_self _
  | located errand head =>
    have hfreed : w.freed = w.chain.head := by rw [freed, hconsumer]
    rw [hconsumer] at hfits
    cases (hfits : head = w.chain.head)
    have hne : w.chain.head ≠ w.chain.tail := by
      intro hempty
      exact hleft (h.given_of_empty (hfreed.trans hempty))
    simp only [ConsumerAt.next, EndsAtWork.step, EndsAtWork.proceed, hconsumer, if_neg hne]
    cases errand with
    | pop | front =>
      exact ⟨_, rfl, ahead_lt rfl rfl (by rw [hconsumer]; exact Nat.lt_succ_self _)⟩
    | isEmpty =>
      refine ⟨_, rfl, ahead_lt (pushed_record_of_none rfl) (received_record_of_none rfl) ?_⟩
      rw [hconsumer]
      exact Nat.lt_succ_of_lt (Nat.lt_succ_self _)
  | found errand head =>
    rw [hconsumer] at hfits
    obtain ⟨rfl, hlt⟩ := hfits
    cases errand with
    | pop =>
      have hnext := hholds.nextOf hholds.freed_le hlt
      simp only [ConsumerAt.next, EndsAtWork.step, EndsAtWork.proceed, hconsumer, hnext,
        Chain.ok_bind]
      exact ⟨_, rfl, ahead_lt rfl rfl (by rw [hconsumer]; exact Nat.lt_succ_self _)⟩
    | front | isEmpty =>
      have hvalue := hholds.valueAt hholds.freed_le hlt
      simp only [ConsumerAt.next, EndsAtWork.step, EndsAtWork.proceed, hconsumer, hvalue,
        Chain.ok_bind]
      refine ⟨_, rfl, ahead_lt (pushed_record_of_none rfl) (received_record_of_none rfl) ?_⟩
      rw [hconsumer]
      exact Nat.lt_succ_self _
  | followed head next =>
    simp only [ConsumerAt.next, EndsAtWork.step, EndsAtWork.proceed, hconsumer]
    exact ⟨_, rfl, ahead_lt rfl rfl (by rw [hconsumer]; exact Nat.lt_succ_self _)⟩
  | advanced head =>
    obtain ⟨x, c, hfree, hsome, -⟩ := h.deliver hconsumer
    obtain ⟨v, hv⟩ := Option.isSome_iff_exists.mp hsome
    have hlt : (returned ++ w.received).length < (sent ++ w.pushed).length := by
      refine Nat.lt_of_le_of_ne h.given_isPrefix.length_le fun heq => ?_
      exact hleft (h.given_isPrefix.eq_of_length heq)
    simp only [ConsumerAt.next, EndsAtWork.step, EndsAtWork.proceed, hconsumer, hfree,
      Chain.ok_bind, hv]
    refine ⟨_, rfl, ?_⟩
    -- one value less is left, which outweighs that the consumer is to begin again
    have hone : (returned ++ (w.received ++ [v])).length = (returned ++ w.received).length + 1 := by
      rw [← List.append_assoc, List.length_append, List.length_singleton]
    have hpushed : ({ w with chain := c, consumer := .idle }.record (.popped (some v))).pushed =
        w.pushed := pushed_record_of_none rfl
    have hreceived :
        ({ w with chain := c, consumer := .idle }.record (.popped (some v))).received =
          w.received ++ [v] := received_record _ _
    rw [ahead, ahead, hpushed, hreceived, hone, hconsumer]
    change 10 * _ + 6 < 10 * _ + 1
    omega

/-- The consumer alone can take out all that was pushed. -/
lemma drains (h : w.Coherent sent returned) :
    ∃ (ms : List (Move α)) (w' : EndsAtWork α), (∀ m ∈ ms, m.isReading = true) ∧
      w.run ms = .ok w' ∧ w'.producer = w.producer ∧ w'.pushed = w.pushed ∧
      returned ++ w'.received = sent ++ w.pushed := by
  induction hahead : w.ahead sent returned using Nat.strong_induction_on generalizing w with
  | h n ih =>
    by_cases hleft : returned ++ w.received = sent ++ w.pushed
    · exact ⟨[], w, nofun, rfl, rfl, rfl, hleft⟩
    · obtain ⟨u, hstep, hlt⟩ := h.nears hleft
      obtain ⟨hproducer, hpushed⟩ := step_isReading (ConsumerAt.isReading_next _) hstep
      obtain ⟨ms, w', hms, hrun, hproducer', hpushed', hall⟩ :=
        ih _ (hahead ▸ hlt) (h.of_step hstep) rfl
      refine ⟨w.consumer.next :: ms, w', ?_, ?_, hproducer'.trans hproducer,
        hpushed'.trans hpushed, ?_⟩
      · exact List.forall_mem_cons.mpr ⟨ConsumerAt.isReading_next _, hms⟩
      · rw [EndsAtWork.run, hstep]
        exact hrun
      · rw [hall, hpushed]

end Coherent

end EndsAtWork

end Overseer
