import Overseer.Proofs.Queue.Fifo
import Overseer.Queue.Ends

/-!
# The two ends, access by access

Whatever the order in which the producer and the consumer take their accesses, the cells hold what
was published, but for the cell at the tail, which is as far as the push under way has brought it,
and for the cell that a pop has left and not freed yet. `Coherent` says so, and each access of
either side keeps it; in particular no access meets a cell that is not there.
-/

namespace Overseer

variable {α : Type}

/-- What the cell at the tail holds by now. -/
def ProducerAt.last : ProducerAt α → Cell α
  | written v _ _ => ⟨some v, none⟩
  | linked v next => ⟨some v, some next⟩
  | _ => {}

/-- How many cells the producer has to itself. -/
def ProducerAt.fresh : ProducerAt α → Nat
  | allocated .. | located .. | written .. | linked .. => 1
  | _ => 0

/-- What the producer remembers is still so. -/
def ProducerAt.Fits (c : Chain α) : ProducerAt α → Prop
  | allocated _ next | linked _ next => next = c.tail + 1
  | located _ next tail | written _ next tail => next = c.tail + 1 ∧ tail = c.tail
  | compared head => head ≤ c.head
  | _ => True

/-- What the consumer remembers is still so. -/
def ConsumerAt.Fits (c : Chain α) : ConsumerAt → Prop
  | located _ head => head = c.head
  | found _ head => head = c.head ∧ head < c.tail
  | followed head next => head = c.head ∧ next = head + 1 ∧ head < c.tail
  | advanced head => c.head = head + 1
  | _ => True

/-- The cell that the consumer's next access reads or frees. -/
def ConsumerAt.touches : ConsumerAt → Option Nat
  | found _ head | advanced head => some head
  | _ => none

/-- The value that an event says was pushed. -/
def EndsEvent.sent : EndsEvent α → Option α
  | pushed v => some v
  | _ => none

/-- The value that an event says was popped. -/
def EndsEvent.given : EndsEvent α → Option α
  | popped v => v
  | _ => none

namespace EndsAtWork

variable {w w' : EndsAtWork α} {e : EndsEvent α} {sent returned : List α}

/-- The values pushed so far, in order. -/
def pushed (w : EndsAtWork α) : List α := w.history.reverse.filterMap EndsEvent.sent

/-- The cells that the producer is filling in or has taken to do so. -/
def busy (w : EndsAtWork α) : List Nat :=
  match w.producer with
  | .pushing _ => [w.chain.tail]
  | .allocated _ next | .linked _ next => [w.chain.tail, next]
  | .located _ next tail | .written _ next tail => [tail, next]
  | .idle | .asking | .compared _ => []

/-- The first cell that has not been freed. -/
def freed (w : EndsAtWork α) : Nat :=
  match w.consumer with
  | .advanced head => head
  | _ => w.chain.head

/-- The value of a pop that has moved the head on and not ended yet. -/
def inHand (w : EndsAtWork α) : List α :=
  match w.consumer with
  | .advanced head => ((w.chain.cell? head).bind Cell.value).toList
  | _ => []

lemma pushed_record (w : EndsAtWork α) (e : EndsEvent α) :
    (w.record e).pushed = w.pushed ++ e.sent.toList := by
  rw [pushed, record, List.reverse_cons, List.filterMap_append, pushed]
  cases h : e.sent <;> simp [h]

lemma received_record (w : EndsAtWork α) (e : EndsEvent α) :
    (w.record e).received = w.received ++ e.given.toList := by
  rw [received, record, List.reverse_cons, List.filterMap_append, received]
  cases e with
  | popped v => cases v <;> rfl
  | _ => simp [EndsEvent.given]

/-- The cells and what the two ends remember go together with the values that were pushed: `sent`
before the queue was split and the others since then. -/
structure Coherent (sent returned : List α) (w : EndsAtWork α) : Prop where
  holds : w.chain.Holds (sent ++ w.pushed) w.freed w.producer.last w.producer.fresh
  received_eq : returned ++ w.received = (sent ++ w.pushed).take w.freed
  producer : w.producer.Fits w.chain
  consumer : w.consumer.Fits w.chain

/-- What an event that follows on `w` says about the values. -/
def Justified (sent returned : List α) (w : EndsAtWork α) : EndsEvent α → Prop
  | .popped none | .peeked none | .consumerFoundEmpty true =>
    returned ++ w.received = sent ++ w.pushed
  | .producerFoundEmpty true => returned ++ w.received ++ w.inHand = sent ++ w.pushed
  | _ => True

/-- A step from `w` leads to `w'`, and what it tells, if it tells anything, is so. -/
structure Follows (sent returned : List α) (w w' : EndsAtWork α) : Prop where
  coherent : w'.Coherent sent returned
  told : w'.history = w.history ∨
    ∃ e, w'.history = e :: w.history ∧ Justified sent returned w e

namespace Coherent

/-- Events without a value leave the values alone. -/
lemma record (h : w.Coherent sent returned) (hsent : e.sent = none) (hgiven : e.given = none) :
    (w.record e).Coherent sent returned where
  holds := by
    rw [pushed_record, hsent, Option.toList_none, List.append_nil]
    exact h.holds
  received_eq := by
    rw [received_record, hgiven, Option.toList_none, List.append_nil, pushed_record, hsent,
      Option.toList_none, List.append_nil]
    exact h.received_eq
  producer := h.producer
  consumer := h.consumer

/-- What was given and what is in the consumer's hand is what the head has passed. -/
lemma given_eq (h : w.Coherent sent returned) :
    returned ++ w.received ++ w.inHand = (sent ++ w.pushed).take w.chain.head := by
  have hfits := h.consumer
  have hholds := h.holds
  rw [h.received_eq]
  cases hconsumer : w.consumer with
  | advanced head =>
    have hhead : w.chain.head = head + 1 := by rwa [hconsumer] at hfits
    have hfreed : w.freed = head := by rw [freed, hconsumer]
    rw [hfreed] at hholds ⊢
    have hlt : head < w.chain.tail := by
      have := hholds.head_le
      omega
    obtain ⟨v, hv⟩ := hholds.exists_value hlt
    have hhand : w.inHand = [v] := by
      simp only [inHand, hconsumer, hholds.stored head v (Nat.le_refl _) hv]
      rfl
    rw [hhand, hhead, List.take_add_one, hv]
    rfl
  | _ => simp [freed, inHand, hconsumer]

lemma touches_lt (h : w.Coherent sent returned) {a : Nat} (ha : w.consumer.touches = some a) :
    a < w.chain.tail := by
  have hfits := h.consumer
  have hle := h.holds.head_le
  cases hconsumer : w.consumer with
  | found errand head =>
    rw [hconsumer] at ha hfits
    cases ha
    exact hfits.2
  | advanced head =>
    rw [hconsumer] at ha hfits
    cases ha
    have hhead : w.chain.head = a + 1 := hfits
    omega
  | _ =>
    rw [hconsumer] at ha
    cases ha

lemma le_of_busy (h : w.Coherent sent returned) {a : Nat} (ha : a ∈ w.busy) :
    w.chain.tail ≤ a := by
  have hfits := h.producer
  cases hproducer : w.producer with
  | idle | asking | compared => simp [busy, hproducer] at ha
  | pushing | allocated | located | written | linked =>
    simp only [busy, hproducer, List.mem_cons, List.not_mem_nil, or_false] at ha
    simp only [hproducer, ProducerAt.Fits] at hfits
    omega

/-- The consumer keeps away from the cells of the push under way. -/
lemma not_busy (h : w.Coherent sent returned) {a : Nat} (ha : w.consumer.touches = some a) :
    a ∉ w.busy := by
  intro hbusy
  exact absurd (h.le_of_busy hbusy) (Nat.not_le_of_lt (h.touches_lt ha))

/-! ### The producer's accesses -/

/-- The producer goes on in a chain that grows at the tail. -/
lemma move_producer (h : w.Coherent sent returned) {c : Chain α} {p : ProducerAt α}
    (hhead : c.head = w.chain.head) (htail : c.tail = w.chain.tail)
    (hholds : c.Holds (sent ++ w.pushed) w.freed p.last p.fresh) (hp : p.Fits c) :
    ({ w with chain := c, producer := p } : EndsAtWork α).Coherent sent returned := by
  have hfreed : ({ w with chain := c, producer := p } : EndsAtWork α).freed = w.freed := by
    simp only [freed, hhead]
  refine ⟨?_, ?_, hp, ?_⟩
  · rw [hfreed]
    exact hholds
  · rw [hfreed]
    exact h.received_eq
  · have hfits := h.consumer
    revert hfits
    cases w.consumer <;> simp only [ConsumerAt.Fits, hhead, htail] <;> exact id

/-- The tail moves on, and one more value has been pushed. -/
lemma publish (h : w.Coherent sent returned) {v : α} {next : Nat}
    (hproducer : w.producer = .linked v next) :
    ({ w with chain := w.chain.setTail next, producer := .idle }.record (.pushed v)).Coherent
      sent returned := by
  obtain ⟨hholds, hreceived, hfits, hconsumer⟩ := h
  rw [hproducer] at hholds hfits
  cases (hfits : next = w.chain.tail + 1)
  have hle : w.freed ≤ (sent ++ w.pushed).length := by
    rw [← hholds.tail_eq]
    exact Nat.le_trans hholds.freed_le hholds.head_le
  have hpushed : sent ++ ({ w with
      chain := w.chain.setTail (w.chain.tail + 1),
      producer := .idle }.record (.pushed v)).pushed = sent ++ w.pushed ++ [v] := by
    rw [pushed_record, ← List.append_assoc]
    rfl
  refine ⟨?_, ?_, trivial, ?_⟩
  · rw [hpushed]
    exact hholds.setTail
  · rw [hpushed, received_record]
    refine (List.append_assoc _ _ _).symm.trans ((List.append_nil _).trans ?_)
    exact hreceived.trans (List.take_append_of_le_length hle).symm
  · revert hconsumer
    cases hc : w.consumer with
    | found errand head => exact fun hfound => ⟨hfound.1, Nat.lt_succ_of_lt hfound.2⟩
    | followed head next =>
      exact fun hfollowed => ⟨hfollowed.1, hfollowed.2.1, Nat.lt_succ_of_lt hfollowed.2.2⟩
    | idle | begun | located | advanced => exact id

/-- Every access of the producer can be made. -/
lemma produce (h : w.Coherent sent returned) :
    ∃ w', w.produce = .ok w' ∧ Follows sent returned w w' := by
  have hholds := h.holds
  have hfits := h.producer
  cases hproducer : w.producer with
  | idle =>
    simp only [EndsAtWork.produce, hproducer]
    exact ⟨w, rfl, h, .inl rfl⟩
  | pushing v =>
    rw [hproducer] at hholds
    simp only [EndsAtWork.produce, hproducer]
    exact ⟨_, rfl, h.move_producer rfl rfl hholds.allocate hholds.size_eq, .inl rfl⟩
  | allocated v next =>
    rw [hproducer] at hholds hfits
    simp only [EndsAtWork.produce, hproducer]
    exact ⟨_, rfl, h.move_producer rfl rfl hholds ⟨hfits, rfl⟩, .inl rfl⟩
  | located v next tail =>
    rw [hproducer] at hholds hfits
    obtain ⟨hnext, rfl⟩ := hfits
    obtain ⟨c, hvalue, hhead, htail, hc⟩ := hholds.update fun x => { x with value := some v }
    simp only [EndsAtWork.produce, hproducer, Chain.setValue, hvalue, Chain.ok_bind]
    refine ⟨_, rfl, h.move_producer hhead htail hc ⟨?_, htail.symm⟩, .inl rfl⟩
    rw [htail, hnext]
  | written v next tail =>
    rw [hproducer] at hholds hfits
    obtain ⟨hnext, rfl⟩ := hfits
    obtain ⟨c, hlink, hhead, htail, hc⟩ := hholds.update fun x => { x with next := some next }
    simp only [EndsAtWork.produce, hproducer, Chain.setNext, hlink, Chain.ok_bind]
    refine ⟨_, rfl, h.move_producer hhead htail hc ?_, .inl rfl⟩
    rw [ProducerAt.Fits, htail, hnext]
  | linked v next =>
    simp only [EndsAtWork.produce, hproducer]
    exact ⟨_, rfl, h.publish hproducer, .inr ⟨_, rfl, trivial⟩⟩
  | asking =>
    rw [hproducer] at hholds
    simp only [EndsAtWork.produce, hproducer]
    exact ⟨_, rfl, h.move_producer rfl rfl hholds (Nat.le_refl _), .inl rfl⟩
  | compared head =>
    rw [hproducer] at hholds hfits
    simp only [EndsAtWork.produce, hproducer]
    have hidle := h.move_producer (p := .idle) rfl rfl hholds trivial
    refine ⟨_, rfl, hidle.record rfl rfl, .inr ⟨_, rfl, ?_⟩⟩
    -- the head can only have come nearer to the tail since the producer read it
    by_cases hempty : head = w.chain.tail
    · have hhead : w.chain.head = (sent ++ w.pushed).length := by
        have hle : head ≤ w.chain.head := hfits
        have := hholds.head_le
        have := hholds.tail_eq
        omega
      rw [decide_eq_true hempty, Justified, h.given_eq, hhead, List.take_length]
    · rw [decide_eq_false hempty]
      trivial

/-! ### The consumer's accesses -/

lemma producer_fits (h : w.Coherent sent returned) {c : Chain α} (htail : c.tail = w.chain.tail)
    (hhead : w.chain.head ≤ c.head) : w.producer.Fits c := by
  have hfits := h.producer
  revert hfits
  cases w.producer with
  | compared head => exact fun hle => Nat.le_trans hle hhead
  | _ =>
    simp only [ProducerAt.Fits, htail]
    exact id

/-- The consumer goes on, and no cell is freed. -/
lemma move_consumer (h : w.Coherent sent returned) {c : Chain α} {k : ConsumerAt}
    (htail : c.tail = w.chain.tail) (hhead : w.chain.head ≤ c.head)
    (hfreed : ({ w with chain := c, consumer := k } : EndsAtWork α).freed = w.freed)
    (hholds : c.Holds (sent ++ w.pushed) w.freed w.producer.last w.producer.fresh)
    (hk : k.Fits c) :
    ({ w with chain := c, consumer := k } : EndsAtWork α).Coherent sent returned where
  holds := by
    rw [hfreed]
    exact hholds
  received_eq := by
    rw [hfreed]
    exact h.received_eq
  producer := h.producer_fits htail hhead
  consumer := hk

/-- The consumer goes on in a chain that stays as it is. -/
lemma look_consumer (h : w.Coherent sent returned) (hfreed : w.freed = w.chain.head)
    {k : ConsumerAt} (hk : ({ w with consumer := k } : EndsAtWork α).freed = w.chain.head)
    (hfits : k.Fits w.chain) : ({ w with consumer := k } : EndsAtWork α).Coherent sent returned :=
  h.move_consumer rfl (Nat.le_refl _) (hk.trans hfreed.symm) h.holds hfits

/-- A pop ends with the value of the first cell that was not free yet. -/
lemma deliver (h : w.Coherent sent returned) {head : Nat}
    (hconsumer : w.consumer = .advanced head) :
    ∃ x c, w.chain.free head = .ok (x, c) ∧ x.value.isSome ∧
      ({ w with chain := c, consumer := .idle }.record (.popped x.value)).Coherent
        sent returned := by
  have hfits := h.consumer
  have hholds := h.holds
  have hreceived := h.received_eq
  have hfreed : w.freed = head := by rw [freed, hconsumer]
  have hhead : w.chain.head = head + 1 := by rwa [hconsumer] at hfits
  rw [hfreed] at hholds hreceived
  obtain ⟨x, c, hfree, hvalue, hsome, hhead', htail', hc⟩ := hholds.free (by omega)
  refine ⟨x, c, hfree, hsome, ?_⟩
  have hpushed : sent ++ ({ w with chain := c, consumer := .idle }.record
      (.popped x.value)).pushed = sent ++ w.pushed := by
    rw [pushed_record]
    exact congrArg (sent ++ ·) (List.append_nil _)
  have hfreed' : ({ w with chain := c, consumer := .idle }.record (.popped x.value)).freed =
      head + 1 := hhead'.trans hhead
  refine ⟨?_, ?_, h.producer_fits htail' (Nat.le_of_eq hhead'.symm), trivial⟩
  · rw [hpushed, hfreed']
    exact hc
  · rw [hpushed, hfreed', received_record, List.take_add_one, ← hreceived, ← hvalue,
      List.append_assoc]
    rfl

/-- Where the head is the tail, everything pushed so far was given away. -/
lemma given_of_empty (h : w.Coherent sent returned) (hfreed : w.freed = w.chain.tail) :
    returned ++ w.received = sent ++ w.pushed := by
  rw [h.received_eq, hfreed, h.holds.tail_eq, List.take_length]

/-- Every access of the consumer can be made. -/
lemma proceed (h : w.Coherent sent returned) :
    ∃ w', w.proceed = .ok w' ∧ Follows sent returned w w' := by
  have hholds := h.holds
  have hfits := h.consumer
  cases hconsumer : w.consumer with
  | idle =>
    simp only [EndsAtWork.proceed, hconsumer]
    exact ⟨w, rfl, h, .inl rfl⟩
  | begun errand =>
    have hfreed : w.freed = w.chain.head := by rw [freed, hconsumer]
    simp only [EndsAtWork.proceed, hconsumer]
    exact ⟨_, rfl, h.look_consumer hfreed rfl rfl, .inl rfl⟩
  | located errand head =>
    have hfreed : w.freed = w.chain.head := by rw [freed, hconsumer]
    have hidle := h.look_consumer (k := .idle) hfreed rfl trivial
    rw [hconsumer] at hfits
    cases (hfits : head = w.chain.head)
    simp only [EndsAtWork.proceed, hconsumer]
    split
    · rename_i hempty
      refine ⟨_, rfl, ?_, .inr ⟨_, rfl, ?_⟩⟩
      · cases errand <;> exact hidle.record rfl rfl
      · have hgiven := h.given_of_empty (hfreed.trans hempty)
        cases errand <;> exact hgiven
    · rename_i hne
      split
      · exact ⟨_, rfl, hidle.record rfl rfl, .inr ⟨_, rfl, trivial⟩⟩
      · have hlt : w.chain.head < w.chain.tail := Nat.lt_of_le_of_ne hholds.head_le hne
        exact ⟨_, rfl, h.look_consumer hfreed rfl ⟨rfl, hlt⟩, .inl rfl⟩
  | found errand head =>
    have hfreed : w.freed = w.chain.head := by rw [freed, hconsumer]
    rw [hconsumer] at hfits
    obtain ⟨rfl, hlt⟩ := hfits
    cases errand with
    | pop =>
      have hnext := hholds.nextOf hholds.freed_le hlt
      simp only [EndsAtWork.proceed, hconsumer, hnext, Chain.ok_bind]
      exact ⟨_, rfl, h.look_consumer hfreed rfl ⟨rfl, rfl, hlt⟩, .inl rfl⟩
    | front | isEmpty =>
      obtain ⟨v, hv⟩ := hholds.exists_value hlt
      have hvalue := hholds.valueAt hholds.freed_le hlt
      have hidle := h.look_consumer (k := .idle) hfreed rfl trivial
      simp only [EndsAtWork.proceed, hconsumer, hvalue, hv, Chain.ok_bind]
      exact ⟨_, rfl, hidle.record rfl rfl, .inr ⟨_, rfl, trivial⟩⟩
  | followed head next =>
    have hfreed : w.freed = w.chain.head := by rw [freed, hconsumer]
    rw [hconsumer] at hfits
    obtain ⟨rfl, rfl, hlt⟩ := hfits
    simp only [EndsAtWork.proceed, hconsumer]
    exact ⟨_, rfl, h.move_consumer rfl (Nat.le_succ _) hfreed.symm (hholds.setHead hlt) rfl,
      .inl rfl⟩
  | advanced head =>
    obtain ⟨x, c, hfree, hsome, hc⟩ := h.deliver hconsumer
    simp only [EndsAtWork.proceed, hconsumer, hfree, Chain.ok_bind]
    refine ⟨_, rfl, hc, .inr ⟨_, rfl, ?_⟩⟩
    obtain ⟨v, hv⟩ := Option.isSome_iff_exists.mp hsome
    rw [hv]
    trivial

/-! ### Steps and runs -/

lemma step (h : w.Coherent sent returned) (m : Move α) :
    ∃ w', w.step m = .ok w' ∧ Follows sent returned w w' := by
  cases m with
  | produce => exact h.produce
  | proceed => exact h.proceed
  | push v =>
    cases hproducer : w.producer with
    | idle =>
      have hholds := h.holds
      rw [hproducer] at hholds
      simp only [EndsAtWork.step, hproducer]
      exact ⟨_, rfl, h.move_producer (p := .pushing v) rfl rfl hholds trivial, .inl rfl⟩
    | _ =>
      simp only [EndsAtWork.step, hproducer]
      exact ⟨w, rfl, h, .inl rfl⟩
  | askEmpty =>
    cases hproducer : w.producer with
    | idle =>
      have hholds := h.holds
      rw [hproducer] at hholds
      simp only [EndsAtWork.step, hproducer]
      exact ⟨_, rfl, h.move_producer (p := .asking) rfl rfl hholds trivial, .inl rfl⟩
    | _ =>
      simp only [EndsAtWork.step, hproducer]
      exact ⟨w, rfl, h, .inl rfl⟩
  | consume errand =>
    cases hconsumer : w.consumer with
    | idle =>
      have hfreed : w.freed = w.chain.head := by rw [freed, hconsumer]
      simp only [EndsAtWork.step, hconsumer]
      exact ⟨_, rfl, h.look_consumer (k := .begun errand) hfreed rfl trivial, .inl rfl⟩
    | _ =>
      simp only [EndsAtWork.step, hconsumer]
      exact ⟨w, rfl, h, .inl rfl⟩

lemma run (h : w.Coherent sent returned) (ms : List (Move α)) :
    ∃ w', w.run ms = .ok w' ∧ w'.Coherent sent returned := by
  induction ms generalizing w with
  | nil => exact ⟨w, rfl, h⟩
  | cons m ms ih =>
    obtain ⟨w₁, hstep, hfollows⟩ := h.step m
    obtain ⟨w', hrun, hw'⟩ := ih hfollows.coherent
    refine ⟨w', ?_, hw'⟩
    rw [EndsAtWork.run, hstep]
    exact hrun

lemma given_isPrefix (h : w.Coherent sent returned) :
    returned ++ w.received <+: sent ++ w.pushed := by
  rw [h.received_eq]
  exact List.take_prefix _ _

end Coherent

/-- The two ends begin where the whole queue has ended. -/
lemma coherent_start {c : Chain α} (h : c.Settled sent) (hreturned : returned = sent.take c.head) :
    ({ chain := c } : EndsAtWork α).Coherent sent returned := by
  have hlog : sent ++ ({ chain := c } : EndsAtWork α).pushed = sent := List.append_nil sent
  refine ⟨?_, ?_, trivial, trivial⟩
  · rw [hlog]
    exact h
  · rw [hlog]
    exact (List.append_nil returned).trans hreturned

/-- However the accesses of the two ends follow one another, each can be made, what was popped is
the first part of what was pushed, and the consumer keeps away from the cells that the producer is
filling. A pop that returns nothing has everything that was pushed behind it, and where the
producer finds the queue empty at most one value is missing, which is in the consumer's hand. -/
theorem ends_keep_order {ops : List (QueueOp α)} {as : List (QueueAnswer α)} {l : QueueLife α}
    {q : LinkedQueue α} (hrun : ({} : QueueLife α).run ops = .ok (as, l))
    (howner : l.owner = .one q) (ms : List (Move α)) :
    ∃ w, run { chain := q.split.chain } ms = .ok w ∧
      l.returned ++ w.received <+: ops.flatMap QueueOp.pushes ++ w.pushed ∧
      (∀ a, w.consumer.touches = some a → a ∉ w.busy) ∧
      ∀ m, ∃ w', w.step m = .ok w' ∧
        (w'.history = w.history ∨
          ∃ e, w'.history = e :: w.history ∧
            Justified (ops.flatMap QueueOp.pushes) l.returned w e) := by
  obtain ⟨hsettled, hreturned⟩ := QueueLife.settled_of_run hrun howner
  obtain ⟨w, hw, hcoherent⟩ := (coherent_start hsettled hreturned).run ms
  refine ⟨w, hw, hcoherent.given_isPrefix, fun a => hcoherent.not_busy, ?_⟩
  intro m
  obtain ⟨w', hstep, hfollows⟩ := hcoherent.step m
  exact ⟨w', hstep, hfollows.told⟩

/-- A push that has written its value and a pop that has moved the head, both half done. -/
def halfway : List (Move Nat) :=
  [.push 3, .consume .pop] ++ (List.replicate 4 [.produce, .proceed]).flatten

/-- Two values were pushed and one was popped before the queue was split. -/
theorem ends_keep_order_halfway :
    ∃ (l : QueueLife Nat) (q : LinkedQueue Nat) (w : EndsAtWork Nat),
      l.owner = .one q ∧ run { chain := q.split.chain } halfway = .ok w ∧
      l.returned ++ w.received <+: [1, 2] ++ w.pushed ∧
      ∀ a, w.consumer.touches = some a → a ∉ w.busy := by
  have hrun : ∃ as l, ({} : QueueLife Nat).run [.push [1, 2], .pop] = .ok (as, l) ∧
      ∃ q, l.owner = .one q := ⟨_, _, rfl, _, rfl⟩
  obtain ⟨as, l, hrun, q, howner⟩ := hrun
  obtain ⟨w, hw, hprefix, hbusy, -⟩ := ends_keep_order hrun howner halfway
  exact ⟨l, q, w, howner, hw, hprefix, hbusy⟩

end EndsAtWork

end Overseer
