import Overseer.Proofs.Console.Lines
import Overseer.Queue.Deque

/-!
# Taking the input in

The console has a buffered reader, keeps the bytes of the line that has not ended, and pushes the
commands into a queue. Reads can end in the middle of a line or of a character, and one read can
hold many lines; what is queued in the end depends on the bytes alone.
-/

namespace Overseer.Console

/-! ### The lines of a buffer -/

/-- The line up to the first newline, and what follows it. -/
def takeLine? (buffer : Bytes) : Option (Bytes × Bytes) :=
  (buffer.findIdx? (· = newline)).map fun pos => (buffer.take (pos + 1), buffer.drop (pos + 1))

/-- Lines are taken out of a buffer as long as it has one, and this leaves `rest`. -/
inductive Drained : Bytes → List Bytes → Bytes → Prop where
  | stop {buffer : Bytes} (h : takeLine? buffer = none) : Drained buffer [] buffer
  | turn {buffer line buffer' rest : Bytes} {lines : List Bytes}
      (h : takeLine? buffer = some (line, buffer')) (hs : Drained buffer' lines rest) :
      Drained buffer (line :: lines) rest

/-- The bytes after the last newline, which are all if there is no newline. -/
def IsTail (stream rest : Bytes) : Prop :=
  newline ∉ rest ∧ (stream = rest ∨ ∃ before, stream = before ++ newline :: rest)

section

variable {b : UInt8} {bs line buffer rest : Bytes} {lines : List Bytes}

lemma takeLine?_newline (bs : Bytes) : takeLine? (newline :: bs) = some ([newline], bs) := by
  simp only [takeLine?, List.findIdx?_cons, decide_true, if_true]
  rfl

lemma takeLine?_cons (hb : b ≠ newline) (bs : Bytes) :
    takeLine? (b :: bs) = (takeLine? bs).map fun (line, rest) => (b :: line, rest) := by
  simp only [takeLine?, List.findIdx?_cons, hb, decide_false, if_neg Bool.false_ne_true,
    Option.map_map]
  rfl

/-- A line is taken if there is a newline, and ends with the first. -/
lemma takeLine?_eq (buffer : Bytes) :
    (takeLine? buffer = none ∧ newline ∉ buffer) ∨
      ∃ content rest, buffer = content ++ newline :: rest ∧ newline ∉ content ∧
        takeLine? buffer = some (content ++ [newline], rest) := by
  induction buffer with
  | nil => exact .inl ⟨rfl, List.not_mem_nil⟩
  | cons b bs ih =>
    by_cases hb : b = newline
    · rw [hb, takeLine?_newline]
      exact .inr ⟨[], bs, rfl, List.not_mem_nil, rfl⟩
    · rw [takeLine?_cons hb]
      obtain ⟨hnone, hbs⟩ | ⟨content, rest, rfl, hcontent, hsome⟩ := ih
      · exact .inl ⟨by rw [hnone]; rfl, List.not_mem_cons_of_ne_of_not_mem (Ne.symm hb) hbs⟩
      · exact .inr ⟨b :: content, rest, rfl,
          List.not_mem_cons_of_ne_of_not_mem (Ne.symm hb) hcontent, by rw [hsome]; rfl⟩

/-- A byte before a buffer without a line is left with it. -/
lemma Drained.cons_rest (hb : b ≠ newline) (h : Drained bs [] rest) :
    Drained (b :: bs) [] (b :: rest) := by
  cases h with
  | stop h => exact .stop (by rw [takeLine?_cons hb, h]; rfl)

/-- A byte before a buffer joins its first line. -/
lemma Drained.cons_line (hb : b ≠ newline) (h : Drained bs (line :: lines) rest) :
    Drained (b :: bs) ((b :: line) :: lines) rest := by
  cases h with
  | turn h hs => exact .turn (by rw [takeLine?_cons hb, h]; rfl) hs

/-- The loop ends whatever the buffer holds, with the buffer cut into lines. -/
lemma drained_splitLines (buffer : Bytes) :
    Drained buffer (splitLines buffer).1 (splitLines buffer).2 := by
  induction buffer with
  | nil => exact .stop rfl
  | cons b bs ih =>
    by_cases hb : b = newline
    · rw [hb, splitLines_newline]
      exact .turn (takeLine?_newline bs) ih
    · rcases hbs : splitLines bs with ⟨lines, rest⟩
      simp only [hbs] at ih
      cases lines with
      | nil =>
        rw [splitLines_of_nil hb hbs]
        exact ih.cons_rest hb
      | cons line lines =>
        rw [splitLines_of_cons hb hbs]
        exact ih.cons_line hb

lemma Drained.isTail (h : Drained buffer lines rest) : IsTail buffer rest := by
  induction h with
  | @stop buffer h =>
    obtain ⟨-, hbuffer⟩ | ⟨content, rest, -, -, hsome⟩ := takeLine?_eq buffer
    · exact ⟨hbuffer, .inl rfl⟩
    · rw [h] at hsome
      cases hsome
  | @turn buffer line buffer' rest lines h hs ih =>
    obtain ⟨hrest, hcut⟩ := ih
    obtain ⟨hnone, -⟩ | ⟨content, rest', rfl, -, hsome⟩ := takeLine?_eq buffer
    · rw [h] at hnone
      cases hnone
    rw [h] at hsome
    cases hsome
    obtain rfl | ⟨before, rfl⟩ := hcut
    · exact ⟨hrest, .inr ⟨content, rfl⟩⟩
    · exact ⟨hrest, .inr ⟨content ++ newline :: before, by simp⟩⟩

lemma isTail_splitLines (stream : Bytes) : IsTail stream (splitLines stream).2 :=
  (drained_splitLines stream).isTail

end

/-! ### The reader -/

/-- A reader with what it has read and not given away, and what reading on will bring. The input
ends where this ends. -/
structure Reader where
  buffer : Bytes := []
  source : List Chunk := []

/-- What the reader has, for which it reads on if it has nothing. -/
def Reader.fill (r : Reader) : Chunk × Reader :=
  match r.buffer, r.source with
  | b :: bs, _ => (.bytes (b :: bs), r)
  | [], [] => (.bytes [], r)
  | [], .bytes bs :: source => (.bytes bs, ⟨bs, source⟩)
  | [], .failed message :: source => (.failed message, ⟨[], source⟩)

def Reader.consume (n : Nat) (r : Reader) : Reader := { r with buffer := r.buffer.drop n }

/-- The reader, the bytes of the line that has not ended, and the queue of commands. -/
structure Intake where
  reader : Reader
  pending : Bytes
  commands : Deque Command

namespace Intake

/-- Takes in what is there, and tells whether there can be more. -/
def forwardAvailable (i : Intake) : Except String Bool × Intake :=
  let (chunk, reader) := i.reader.fill
  let (answer, reading) := forward i.pending chunk
  (answer,
    ⟨reader.consume chunk.content.length, reading.pending,
      i.commands.pushAll .back reading.commands⟩)

/-- What there is after some calls. -/
def after (i : Intake) : Nat → Intake
  | 0 => i
  | n + 1 => (i.after n).forwardAvailable.2

/-- What the call after some calls tells. -/
def answer (i : Intake) (n : Nat) : Except String Bool := (i.after n).forwardAvailable.1

variable {stream bs : Bytes} {source : List Chunk} {queue : Deque Command} {i : Intake}

/-- All of the stream has been read, its lines have been taken in and the commands that they ask for
are in the queue. -/
structure HasTakenIn (i : Intake) (stream : Bytes) (queue : Deque Command) : Prop where
  isRead : i.reader.buffer = []
  pending : i.pending = (splitLines stream).2
  commands : i.commands.toList = queue.toList ++ Console.commands stream false

/-- A call that reads bytes. -/
lemma HasTakenIn.read (h : i.HasTakenIn stream queue) (hbs : bs ≠ [])
    (hsource : i.reader.source = .bytes bs :: source) :
    i.forwardAvailable.1 = .ok true ∧ i.forwardAvailable.2.reader.source = source ∧
      i.forwardAvailable.2.HasTakenIn (stream ++ bs) queue := by
  obtain ⟨⟨buffer, _⟩, pending, q⟩ := i
  obtain ⟨rfl, rfl, hcommands⟩ := h
  cases hsource
  obtain ⟨b, bs, rfl⟩ := List.exists_cons_of_ne_nil hbs
  have hlines := splitLines_append stream (b :: bs)
  refine ⟨rfl, rfl, ⟨List.drop_length, ?_, ?_⟩⟩
  · exact (congrArg Prod.snd hlines).symm
  · rw [commands_open] at hcommands ⊢
    rw [hlines, List.filterMap_append, ← List.append_assoc, ← hcommands,
      ← readLines_fst (splitLines ((splitLines stream).2 ++ b :: bs)).1]
    rfl

/-- A call at the end of the input. -/
lemma HasTakenIn.close (h : i.HasTakenIn stream queue) (hsource : i.reader.source = []) :
    i.forwardAvailable.1 = .ok false ∧ i.forwardAvailable.2.pending = [] ∧
      i.forwardAvailable.2.commands.toList = queue.toList ++ Console.commands stream true := by
  obtain ⟨⟨buffer, _⟩, pending, q⟩ := i
  obtain ⟨rfl, rfl, hcommands⟩ := h
  cases hsource
  refine ⟨rfl, rfl, ?_⟩
  rw [commands_closed, ← List.append_assoc, ← hcommands, ← readLine_fst]
  rfl

/-- As many calls as there are reads take in all of them. -/
lemma HasTakenIn.after {chunks : List Bytes} (h : i.HasTakenIn stream queue)
    (hsource : i.reader.source = chunks.map .bytes) (hchunks : ∀ c ∈ chunks, c ≠ []) :
    ∀ n ≤ chunks.length, (i.after n).HasTakenIn (stream ++ (chunks.take n).flatten) queue ∧
      (i.after n).reader.source = (chunks.drop n).map .bytes
  | 0, _ => by simpa using ⟨h, hsource⟩
  | n + 1, hn => by
    obtain ⟨htaken, hrest⟩ := h.after hsource hchunks n (by omega)
    rw [List.drop_eq_getElem_cons hn, List.map_cons] at hrest
    obtain ⟨-, hsource', htaken'⟩ :=
      htaken.read (hchunks _ (List.getElem_mem hn)) hrest
    rw [List.append_assoc] at htaken'
    rw [List.take_succ_eq_append_getElem hn, List.flatten_append, List.flatten_singleton]
    exact ⟨htaken', hsource'⟩

lemma splitLines_of_not_mem {bs : Bytes} (h : newline ∉ bs) : splitLines bs = ([], bs) := by
  induction bs with
  | nil => rfl
  | cons b bs ih =>
    rw [List.mem_cons, not_or] at h
    exact splitLines_of_nil (Ne.symm h.1) (ih h.2)

/-- Before the first call. -/
lemma hasTakenIn_start {pending : Bytes} (h : newline ∉ pending) (source : List Chunk)
    (queue : Deque Command) : HasTakenIn ⟨⟨[], source⟩, pending, queue⟩ pending queue where
  isRead := rfl
  pending := by rw [splitLines_of_not_mem h]
  commands := by simp [commands_open, splitLines_of_not_mem h]

/-- However the input is cut into reads, the calls up to the first that tells of its end queue the
commands that the bytes ask for. In between what is pending is the line that has not ended. A read
that fails changes nothing, and the loop over the lines ends on every buffer. -/
theorem forwardAvailable_chunks {pending : Bytes} (hpending : newline ∉ pending)
    {chunks : List Bytes} (hchunks : ∀ c ∈ chunks, c ≠ []) (queue : Deque Command) :
    let start : Intake := ⟨⟨[], chunks.map .bytes⟩, pending, queue⟩
    (∀ n < chunks.length, start.answer n = .ok true ∧
      (start.after (n + 1)).reader.buffer = [] ∧
      IsTail (pending ++ (chunks.take (n + 1)).flatten) (start.after (n + 1)).pending) ∧
    start.answer chunks.length = .ok false ∧
    (start.after (chunks.length + 1)).pending = [] ∧
    (start.after (chunks.length + 1)).commands.toList =
      queue.toList ++ Console.commands (pending ++ chunks.flatten) true ∧
    (∀ message source pending queue,
      forwardAvailable ⟨⟨[], .failed message :: source⟩, pending, queue⟩ =
        (.error message, ⟨⟨[], source⟩, pending, queue⟩)) ∧
    ∀ buffer, Drained buffer (splitLines buffer).1 (splitLines buffer).2 := by
  intro start
  have hafter := (hasTakenIn_start hpending (chunks.map .bytes) queue).after rfl hchunks
  refine ⟨fun n hn => ?_, ?_⟩
  · obtain ⟨htaken, hsource⟩ := hafter n (by omega)
    rw [List.drop_eq_getElem_cons hn, List.map_cons] at hsource
    obtain ⟨hanswer, -, -⟩ := htaken.read (hchunks _ (List.getElem_mem hn)) hsource
    obtain ⟨⟨hread, hrest, -⟩, -⟩ := hafter (n + 1) hn
    exact ⟨hanswer, hread, hrest ▸ isTail_splitLines _⟩
  · obtain ⟨htaken, hsource⟩ := hafter chunks.length (Nat.le_refl _)
    rw [List.drop_length, List.map_nil] at hsource
    rw [List.take_length] at htaken
    obtain ⟨hanswer, hnone, hcommands⟩ := htaken.close hsource
    refine ⟨hanswer, hnone, hcommands, fun message source pending queue => ?_, drained_splitLines⟩
    simp [forwardAvailable, Reader.fill, forward, Reader.consume, Deque.pushAll]

/-- The two bytes of a character in two reads, and a line in three. -/
theorem forwardAvailable_chunks_cut :
    let start : Intake :=
      ⟨⟨[], [.bytes [0xc3], .bytes [0xa9, 10, 32], .bytes [82, 10, 113]]⟩, [32], .ofList [.help]⟩
    start.answer 2 = .ok true ∧ start.answer 3 = .ok false ∧
      (start.after 4).commands.toList = [.help, .reload, .quit] := by
  obtain ⟨htrue, hfalse, -, hcommands, -, -⟩ :=
    forwardAvailable_chunks (show newline ∉ [32] by decide)
      (show ∀ c ∈ ([[0xc3], [0xa9, 10, 32], [82, 10, 113]] : List Bytes), c ≠ [] by decide)
      (.ofList [.help])
  refine ⟨(htrue 2 (by decide)).1, hfalse, hcommands.trans ?_⟩
  decide

end Intake

end Overseer.Console
