import Mathlib.Data.List.TakeWhile
import Overseer.Proofs.Text.Decoding
import Overseer.Proofs.Text.Numerals

/-!
# What is read from a PID file

The bytes of a file stand for the number of a process if they spell a text that is a numeral below
the limit, white space around it left out. Of any other bytes it is said what is wrong with them,
and where they spell a text the first character at fault decides what that is.
-/

namespace Overseer

open String (utf8EncodeChar)

namespace Text

/-! ### White space at the ends -/

/-- The other text is the first one without the white space at its ends. -/
def IsTrimmed (text cs : List Char) : Prop :=
  ∃ before after, text = before ++ cs ++ after ∧
    (∀ c ∈ before, isBlank c = true) ∧ (∀ c ∈ after, isBlank c = true) ∧
    (∀ c ∈ cs.head?, isBlank c = false) ∧ ∀ c ∈ cs.getLast?, isBlank c = false

lemma dropWhile_append {before cs : List Char} (hbefore : ∀ c ∈ before, isBlank c = true)
    (hcs : ∀ c ∈ cs.head?, isBlank c = false) : (before ++ cs).dropWhile isBlank = cs := by
  rw [List.dropWhile_append_of_pos hbefore]
  cases cs with
  | nil => rfl
  | cons c cs => rw [List.dropWhile_cons_of_neg (by simpa using hcs c rfl)]

lemma trimEnd_append {cs after : List Char} (hafter : ∀ c ∈ after, isBlank c = true)
    (hcs : ∀ c ∈ cs.getLast?, isBlank c = false) : trimEnd (cs ++ after) = cs := by
  rw [trimEnd, List.reverse_append, dropWhile_append (by simpa using hafter), List.reverse_reverse]
  rwa [List.head?_reverse]

lemma isTrimmed_trim (text : List Char) : IsTrimmed text (trim text) := by
  have hstart := List.takeWhile_append_dropWhile (p := isBlank) (l := text)
  have hend := List.takeWhile_append_dropWhile (p := isBlank) (l := (trimStart text).reverse)
  have hwhole : trimStart text =
      trim text ++ ((trimStart text).reverse.takeWhile isBlank).reverse := by
    rw [trim, trimEnd, ← List.reverse_append, hend, List.reverse_reverse]
  refine ⟨text.takeWhile isBlank, ((trimStart text).reverse.takeWhile isBlank).reverse,
    ?_, fun c hc => List.mem_takeWhile_imp hc, fun c hc => ?_, fun c hc => ?_, fun c hc => ?_⟩
  · rw [List.append_assoc, ← hwhole]
    exact hstart.symm
  · exact List.mem_takeWhile_imp (List.mem_reverse.mp hc)
  · have hhead : (trimStart text).head? = some c := by
      rw [hwhole, List.head?_append, hc, Option.some_or]
    have hnot := List.head?_dropWhile_not isBlank text
    rw [← trimStart, hhead] at hnot
    simpa using hnot
  · rw [trim, trimEnd, List.getLast?_reverse] at hc
    have hnot := List.head?_dropWhile_not isBlank (trimStart text).reverse
    rw [hc] at hnot
    simpa using hnot

/-- Trimming leaves just the text without the white space at its ends. -/
lemma trim_eq_iff {text cs : List Char} : trim text = cs ↔ IsTrimmed text cs := by
  constructor
  · rintro rfl
    exact isTrimmed_trim text
  · rintro ⟨before, after, rfl, hbefore, hafter, hhead, hlast⟩
    rw [trim, trimStart, List.append_assoc]
    cases cs with
    | nil =>
      -- all of it is white space, also what stands behind
      rw [List.nil_append, List.dropWhile_append_of_pos hbefore]
      have hnone : after.dropWhile isBlank = [] := List.dropWhile_eq_nil_iff.mpr hafter
      rw [hnone]
      rfl
    | cons c cs =>
      rw [dropWhile_append hbefore (by simpa using hhead)]
      exact trimEnd_append hafter hlast

end Text

namespace PidFile

/-- The bytes spell the number, white space around it left out. -/
def IsPidText (content : Bytes) (n : Nat) : Prop :=
  ∃ text cs, content = text.flatMap utf8EncodeChar ∧ Text.IsTrimmed text cs ∧ Text.IsNumeral cs n

/-- What is said of bytes that are not the number of a process. -/
inductive Explains (content : Bytes) : String → Prop where
  | notText (h : ∀ text : List Char, content ≠ text.flatMap utf8EncodeChar) :
      Explains content FileFault.notText.message
  | notNumber {text cs : List Char} {f : Text.NumberFault}
      (htext : content = text.flatMap utf8EncodeChar) (hcs : Text.IsTrimmed text cs)
      (h : Text.Faulty pidLimit cs f) : Explains content ("Invalid PID format: " ++ f.message)

/-- Bytes that are read as a number spell it. -/
lemma isPidText_iff {content : Bytes} {n : Nat} : IsPidText content n ↔
    ∃ text, Text.decode? content = some text ∧ Text.IsNumeral (Text.trim text) n := by
  constructor
  · rintro ⟨text, cs, hcontent, hcs, hnumeral⟩
    obtain rfl := Text.trim_eq_iff.mpr hcs
    exact ⟨text, Text.decode?_eq_some_iff.mpr hcontent, hnumeral⟩
  · rintro ⟨text, htext, hnumeral⟩
    exact ⟨text, _, Text.decode?_eq_some_iff.mp htext, Text.isTrimmed_trim text, hnumeral⟩

/-- What is read where a file with such bytes stands. -/
lemma read_of_find {p : PidFile} {h : Host} {l : Location} {content : Bytes}
    (hfind : h.find p.path = .ok (l, .file content)) :
    p.read h = match Text.decode? content with
      | none => .error (.pidFileRead p.path FileFault.notText.message)
      | some text => match Text.readNumber pidLimit (Text.trim text) with
        | .ok n => .ok (some n)
        | .error f => .error (.pidFileRead p.path ("Invalid PID format: " ++ f.message)) := by
  have hread : h.read p.path = .ok content := by rw [Host.read, hfind]
  cases hdecode : Text.decode? content with
  | none =>
    have htext : h.readText p.path = .error .notText := by
      rw [Host.readText, hread]
      simp only [bind, Except.bind, hdecode]
      rfl
    rw [read, htext]
  | some text =>
    have htext : h.readText p.path = .ok text :=
      Host.readText_eq_ok.mpr ⟨content, hread, hdecode⟩
    rw [read, htext]
    rfl

lemma read_eq_error {p : PidFile} {h : Host} {l : Location} {content : Bytes} {reason : String}
    (hfind : h.find p.path = .ok (l, .file content)) :
    p.read h = .error (.pidFileRead p.path reason) ↔ Explains content reason := by
  rw [read_of_find hfind]
  cases hdecode : Text.decode? content with
  | none =>
    have hnone (text : List Char) : content ≠ text.flatMap utf8EncodeChar := by
      intro htext
      rw [Text.decode?_eq_some_iff.mpr htext] at hdecode
      cases hdecode
    constructor
    · rintro ⟨⟩
      exact .notText hnone
    · intro h
      cases h with
      | notText => rfl
      | notNumber htext => exact absurd htext (hnone _)
  | some text =>
    have htext := Text.decode?_eq_some_iff.mp hdecode
    have hexplains : Explains content reason ↔
        ∃ f, Text.readNumber pidLimit (Text.trim text) = .error f ∧
          "Invalid PID format: " ++ f.message = reason := by
      constructor
      · intro h
        cases h with
        | notText h => exact absurd htext (h text)
        | notNumber htext' hcs hfaulty =>
          obtain rfl : text = _ :=
            Option.some.inj (hdecode.symm.trans (Text.decode?_eq_some_iff.mpr htext'))
          obtain rfl := Text.trim_eq_iff.mpr hcs
          exact ⟨_, (Text.readNumber_eq_error (by decide)).mpr hfaulty, rfl⟩
      · rintro ⟨f, hf, rfl⟩
        exact .notNumber htext (Text.isTrimmed_trim text)
          ((Text.readNumber_eq_error (by decide)).mp hf)
    rw [hexplains]
    dsimp only
    cases Text.readNumber pidLimit (Text.trim text) with
    | ok n => simp
    | error f => simp

/-- Nothing is read exactly if there is no file. -/
lemma read_eq_none {p : PidFile} {h : Host} :
    p.read h = .ok none ↔ h.find p.path = .error (.os .noEntry) := by
  have htext : h.readText p.path = .error (.os .noEntry) ↔
      h.find p.path = .error (.os .noEntry) := by
    unfold Host.readText Host.read
    cases h.find p.path with
    | error e => simp [bind, Except.bind]
    | ok found =>
      obtain ⟨l, e⟩ := found
      cases e with
      | directory | link => simp [bind, Except.bind]
      | file content =>
        cases hdecode : Text.decode? content <;>
          simp [bind, Except.bind, hdecode, pure, Except.pure, throw, throwThe,
            MonadExceptOf.throw]
  rw [← htext]
  unfold read
  split
  · rename_i hnone
    simp [hnone]
  · rename_i e hother herror
    simpa [herror] using hother
  · rename_i text hok
    rw [hok]
    split <;> simp

/-- A file is read as the number that its bytes spell, if it is below the limit. Of any other file
it is said what is wrong with its bytes, and nothing is read only where there is no file. -/
theorem reads_grammar (p : PidFile) (h : Host) :
    (p.read h = .ok none ↔ h.find p.path = .error (.os .noEntry)) ∧
    ∀ l content, h.find p.path = .ok (l, .file content) →
      (∀ n, p.read h = .ok (some n) ↔ IsPidText content n ∧ n < pidLimit) ∧
      (∀ reason, p.read h = .error (.pidFileRead p.path reason) ↔ Explains content reason) ∧
      ((∀ n < pidLimit, ¬ IsPidText content n) →
        ∃ reason, p.read h = .error (.pidFileRead p.path reason)) := by
  refine ⟨read_eq_none, fun l content hfind => ?_⟩
  have hread : h.read p.path = .ok content := by rw [Host.read, hfind]
  have hsome (n : Nat) : p.read h = .ok (some n) ↔ IsPidText content n ∧ n < pidLimit := by
    rw [read_eq_some, isPidText_iff, Host.Stores]
    simp [hread]
  refine ⟨hsome, fun reason => read_eq_error hfind, fun hnot => ?_⟩
  have hread := read_of_find hfind
  split at hread
  · exact ⟨_, hread⟩
  · split at hread
    · rename_i n _
      obtain ⟨hn, hlt⟩ := (hsome n).mp hread
      exact absurd hn (hnot n hlt)
    · exact ⟨_, hread⟩

/-- Files with a decorated numeral, and with a number that is too large before it is none. -/
theorem reads_grammar_decorated :
    ({ path := "a" } : PidFile).read ⟨⟨[(["a"], .file [0x20, 0x2b, 0x30, 0x37, 0x0a])]⟩, []⟩ =
      .ok (some 7) ∧
    ({ path := "b" } : PidFile).read ⟨⟨[(["b"], .file (Text.encode "4294967296x"))]⟩, []⟩ =
      .error (.pidFileRead "b" "Invalid PID format: number too large to fit in target type") := by
  constructor
  · have hgrammar := (reads_grammar { path := "a" }
      ⟨⟨[(["a"], .file [0x20, 0x2b, 0x30, 0x37, 0x0a])]⟩, []⟩).2 ["a"] _ (by rfl)
    have htrimmed : Text.IsTrimmed [' ', '+', '0', '7', '\n'] ['+', '0', '7'] :=
      ⟨[' '], ['\n'], rfl, List.all_eq_true.mp (by decide), List.all_eq_true.mp (by decide),
        by rintro _ ⟨⟩; rfl, by rintro _ ⟨⟩; rfl⟩
    exact (hgrammar.1 7).mpr ⟨⟨_, _, by decide +kernel, htrimmed, ['0', '7'], .inr rfl, nofun,
      List.all_eq_true.mp (by decide), by decide⟩, by decide⟩
  · have hgrammar := (reads_grammar { path := "b" }
      ⟨⟨[(["b"], .file (Text.encode "4294967296x"))]⟩, []⟩).2 ["b"] _ (by rfl)
    have hsplit : Text.unsigned "4294967296x".toList = "429496729".toList ++ '6' :: ['x'] := by
      decide
    have hfaulty : Text.Faulty pidLimit "4294967296x".toList .tooLarge :=
      .character hsplit (List.all_eq_true.mp (by decide)) (by decide)
        (.tooLarge (by decide) (by decide))
    exact (hgrammar.2.1 _).mpr (.notNumber rfl ⟨[], [], rfl, nofun, nofun,
      by rintro _ ⟨⟩; rfl, by rintro _ ⟨⟩; rfl⟩ hfaulty)

end PidFile

end Overseer
