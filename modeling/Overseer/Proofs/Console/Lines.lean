import Mathlib.Tactic.Common
import Overseer.Console

/-!
# Lines at the console

What a stream of bytes asks for can be told from the stream alone: it is cut at its newlines, and
each line is a command or none. The console comes to the same commands in whatever chunks the
stream is read.
-/

namespace Overseer

/-! ### A newline after some bytes -/

namespace Text

variable {b : UInt8} {p q : Pending}

lemma low_of_firstByte (h : firstByte b = .more q) : 128 ≤ q.low := by
  simp only [firstByte] at h
  split at h
  · cases h
  split at h
  · cases h
  split at h
  · cases h
    exact Nat.le_refl _
  split at h
  · cases h
    simp only
    split <;> decide
  split at h
  · cases h
    simp only
    split <;> decide
  · cases h

lemma low_of_next (h : p.next b = .more q) : 128 ≤ q.low := by
  simp only [Pending.next] at h
  split at h
  · split at h
    · cases h
    · cases h
      exact Nat.le_refl _
  · cases h

/-- A newline is no byte that a character under way can be owed. -/
lemma next_newline (hp : 128 ≤ p.low) : p.next Console.newline = .broken := by
  have hlow : ¬ (p.low ≤ Console.newline.toNat ∧ Console.newline.toNat ≤ p.high) := by
    rintro ⟨hle, -⟩
    exact absurd (Nat.le_trans hp hle) (by decide)
  rw [Pending.next, if_neg hlow]

/-- Whatever is under way, a newline is read for what it is. -/
lemma decodeLossyFrom_newline (p : Option Pending) (bs : Bytes)
    (hp : ∀ q, p = some q → 128 ≤ q.low) :
    decodeLossyFrom p (bs ++ [Console.newline]) = decodeLossyFrom p bs ++ ['\n'] := by
  have hfirst : firstByte Console.newline = .done '\n' := by decide
  fun_induction decodeLossyFrom p bs with
  | case1 =>
    rw [List.nil_append, decodeLossyFrom, hfirst]
    rfl
  | case2 p =>
    rw [List.nil_append, decodeLossyFrom, next_newline (hp p rfl), hfirst]
    rfl
  | case3 b bs c hb ih => rw [List.cons_append, decodeLossyFrom, hb, ih nofun, List.cons_append]
  | case4 b bs q hb ih =>
    rw [List.cons_append, decodeLossyFrom, hb]
    refine ih fun q' hq => ?_
    cases hq
    exact low_of_firstByte hb
  | case5 b bs hb ih => rw [List.cons_append, decodeLossyFrom, hb, ih nofun, List.cons_append]
  | case6 p b bs c hb ih => rw [List.cons_append, decodeLossyFrom, hb, ih nofun, List.cons_append]
  | case7 p b bs q hb ih =>
    rw [List.cons_append, decodeLossyFrom, hb]
    refine ih fun q' hq => ?_
    cases hq
    exact low_of_next hb
  | case8 p b bs hbroken ihDone ihMore =>
    -- the byte that breaks a character is read again as a first byte
    rw [List.cons_append, decodeLossyFrom, hbroken]
    simp only [List.cons_append, List.cons.injEq, true_and]
    cases hb : firstByte b with
    | done c => simp only [ihDone nofun, List.cons_append]
    | broken => simp only [ihDone nofun, List.cons_append]
    | more q =>
      refine ihMore q fun q' hq => ?_
      cases hq
      exact low_of_firstByte hb

lemma decodeLossy_newline (bs : Bytes) :
    decodeLossy (bs ++ [Console.newline]) = decodeLossy bs ++ ['\n'] :=
  decodeLossyFrom_newline none bs nofun

end Text

/-- White space at the end of a line makes no difference. -/
lemma Command.parse_newline (line : List Char) : parse (line ++ ['\n']) = parse line := by
  simp only [parse, Text.trimStart, List.dropWhile_append]
  split
  · rename_i hblank
    rw [List.isEmpty_iff] at hblank
    rw [hblank]
    rfl
  · rename_i hvisible
    rw [List.isEmpty_iff] at hvisible
    obtain ⟨c, cs, hcs⟩ := List.exists_cons_of_ne_nil hvisible
    rw [hcs, List.cons_append, List.head?_cons, List.head?_cons]

namespace Console

/-! ### What a stream asks for -/

/-- The command that a line asks for. -/
def command? (line : Bytes) : Option Command := Command.parse (Text.decodeLossy line)

/-- The bytes that were read. -/
def Chunk.content : Chunk → Bytes
  | bytes bs => bs
  | failed _ => []

/-- Whether the input has ended. -/
def Chunk.isEnd : Chunk → Bool
  | bytes [] => true
  | _ => false

/-- The stream that comes in some chunks. -/
def stream (chunks : List Chunk) : Bytes := chunks.flatMap Chunk.content

/-- Whether the end of the stream was read, too. -/
def isClosed (chunks : List Chunk) : Bool := chunks.any Chunk.isEnd

/-- The commands that a stream asks for, one line after another. A line ends with its newline or
with the stream. -/
def commands (stream : Bytes) (closed : Bool) : List Command :=
  let lines := stream.splitOn newline
  (if closed then lines else lines.dropLast).filterMap command?

/-- What is asked for by what was read so far. -/
def asked (chunks : List Chunk) : List Command := commands (stream chunks) (isClosed chunks)

variable {chunks : List Chunk}

lemma command?_newline (line : Bytes) : command? (line ++ [newline]) = command? line := by
  rw [command?, Text.decodeLossy_newline, Command.parse_newline, command?]

lemma readLine_fst (line : Bytes) : (readLine line).1 = command? line := by
  simp only [readLine]
  split
  · rename_i c hparse
    exact hparse.symm
  · rename_i hparse
    rw [command?, hparse]
    split <;> rfl

/-! ### How lines are cut -/

section

variable {b : UInt8} {bs rest line : Bytes} {lines : List Bytes}

lemma splitLines_newline (bs : Bytes) : splitLines (newline :: bs) =
    ([newline] :: (splitLines bs).1, (splitLines bs).2) := by
  rw [splitLines]
  rfl

lemma splitLines_of_nil (hb : b ≠ newline) (h : splitLines bs = ([], rest)) :
    splitLines (b :: bs) = ([], b :: rest) := by
  simp only [splitLines, h, if_neg hb]

lemma splitLines_of_cons (hb : b ≠ newline) (h : splitLines bs = (line :: lines, rest)) :
    splitLines (b :: bs) = ((b :: line) :: lines, rest) := by
  simp only [splitLines, h, if_neg hb]

/-- The lines that end are those that the stream is cut into at its newlines, and the bytes that are
left are the last piece. -/
lemma splitOn_newline (bs : Bytes) : ∃ lines, (splitLines bs).1 = lines.map (· ++ [newline]) ∧
    bs.splitOn newline = lines ++ [(splitLines bs).2] := by
  induction bs with
  | nil => exact ⟨[], rfl, rfl⟩
  | cons b bs ih =>
    obtain ⟨lines, hlines, hsplit⟩ := ih
    rw [List.splitOn_cons_eq_if_modifyHead, hsplit]
    by_cases hb : b = newline
    · rw [if_pos (beq_iff_eq.mpr hb), hb, splitLines_newline, hlines]
      exact ⟨[] :: lines, rfl, rfl⟩
    · rw [if_neg (mt beq_iff_eq.mp hb)]
      cases lines with
      | nil =>
        rw [splitLines_of_nil hb (Prod.ext hlines rfl)]
        exact ⟨[], rfl, rfl⟩
      | cons line lines =>
        rw [splitLines_of_cons hb (Prod.ext hlines rfl)]
        exact ⟨(b :: line) :: lines, rfl, rfl⟩

/-- Lines are the same whether or not the bytes come in two parts. -/
lemma splitLines_append (bs bs' : Bytes) : splitLines (bs ++ bs') =
    ((splitLines bs).1 ++ (splitLines ((splitLines bs).2 ++ bs')).1,
      (splitLines ((splitLines bs).2 ++ bs')).2) := by
  induction bs with
  | nil => rfl
  | cons b bs ih =>
    rw [List.cons_append]
    by_cases hb : b = newline
    · rw [hb, splitLines_newline, splitLines_newline, ih]
      rfl
    · rcases hbs : splitLines bs with ⟨lines, rest⟩
      rw [hbs] at ih
      cases lines with
      | nil =>
        rw [splitLines_of_nil hb hbs, List.cons_append]
        rcases hrest : splitLines (rest ++ bs') with ⟨lines', rest'⟩
        rw [hrest] at ih
        cases lines' with
        | nil =>  rw [splitLines_of_nil hb ih, splitLines_of_nil hb hrest]; rfl
        | cons line' lines' =>  rw [splitLines_of_cons hb ih, splitLines_of_cons hb hrest]; rfl
      | cons line lines =>
        rw [splitLines_of_cons hb hbs, splitLines_of_cons hb ih]
        rfl

end

/-! ### What the console comes to -/

/-- The bytes of the line that has not ended. -/
def unfinished (chunks : List Chunk) : Bytes := (splitLines (stream chunks)).2

lemma commands_open (bs : Bytes) :
    commands bs false = (splitLines bs).1.filterMap command? := by
  obtain ⟨lines, hlines, hsplit⟩ := splitOn_newline bs
  have hcommand : (command? ∘ fun line => line ++ [newline]) = command? :=
    funext command?_newline
  rw [commands, hsplit, hlines, List.filterMap_map, hcommand]
  simp

/-- The end of a stream ends its last line. -/
lemma commands_closed (bs : Bytes) :
    commands bs true = commands bs false ++ (command? (splitLines bs).2).toList := by
  obtain ⟨lines, -, hsplit⟩ := splitOn_newline bs
  simp only [commands, hsplit, if_true, if_neg Bool.false_ne_true, List.dropLast_concat,
    List.filterMap_append]
  cases h : command? (splitLines bs).2 <;> simp [h]

lemma stream_concat (chunks : List Chunk) (c : Chunk) :
    stream (chunks ++ [c]) = stream chunks ++ c.content := by
  simp [stream]

lemma isClosed_concat (chunks : List Chunk) (c : Chunk) :
    isClosed (chunks ++ [c]) = (isClosed chunks || c.isEnd) := by
  simp [isClosed]

lemma readLines_fst (lines : List Bytes) :
    (readLines lines).1 = lines.filterMap command? := by
  have hread : ((fun x : Option Command × Records => x.1) ∘ readLine) = command? :=
    funext readLine_fst
  rw [readLines, List.filterMap_map, hread]

lemma commands_forward_end (pending : Bytes) :
    (forward pending (.bytes [])).2.commands = (command? pending).toList := by
  rw [← readLine_fst]
  rfl

lemma commands_forward (pending : Bytes) (b : UInt8) (bs : Bytes) :
    (forward pending (.bytes (b :: bs))).2.commands = commands (pending ++ b :: bs) false := by
  rw [commands_open, ← readLines_fst]
  rfl

/-- With what it kept of the last line, the console makes of each read just what the stream asks for
beyond what it has asked for before. -/
theorem asked_concat (h : isClosed chunks = false) (c : Chunk) :
    asked (chunks ++ [c]) = asked chunks ++ (forward (unfinished chunks) c).2.commands := by
  simp only [asked, stream_concat, isClosed_concat, h, Bool.false_or]
  match c with
  | .failed message => simp [Chunk.content, Chunk.isEnd, forward]
  | .bytes [] =>
    rw [Chunk.content, List.append_nil, Chunk.isEnd, commands_closed, commands_forward_end,
      unfinished]
  | .bytes (b :: bs) =>
    rw [commands_forward]
    simp only [Chunk.content, Chunk.isEnd, commands_open]
    rw [splitLines_append, List.filterMap_append, unfinished]

/-- If the console reads on, it keeps the line that has not ended. -/
theorem unfinished_concat (h : isClosed chunks = false) {c : Chunk} {reading : Reading}
    (hread : forward (unfinished chunks) c = (.ok true, reading)) :
    isClosed (chunks ++ [c]) = false ∧ reading.pending = unfinished (chunks ++ [c]) := by
  match c with
  | .failed message => cases hread
  | .bytes [] => cases hread
  | .bytes (b :: bs) =>
    refine ⟨by rw [isClosed_concat, h]; rfl, ?_⟩
    have hpending : reading.pending = (splitLines (unfinished chunks ++ b :: bs)).2 :=
      (congrArg (fun r => r.2.pending) hread).symm
    simp only [hpending, unfinished, stream_concat, Chunk.content]
    rw [splitLines_append (stream chunks)]

end Console

end Overseer
