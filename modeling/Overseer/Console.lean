import Overseer.Log
import Overseer.Text.Blank
import Overseer.Text.Quoted
import Overseer.Text.Utf8

/-!
# The console

Bytes come in chunks as the reader finds them. They are cut into lines, and the first visible
character of a line is a command. The commands do not depend on how the bytes were cut into
chunks.
-/

namespace Overseer

/-- What an operator can ask at the console. -/
inductive Command where
  | quit
  | reload
  | version
  | help
deriving DecidableEq, Repr

namespace Command

def ofChar? : Char → Option Command
  | 'q' => some quit
  | 'R' => some reload
  | 'v' => some version
  | 'h' | '?' => some help
  | _ => none

/-- The first character that is not white space decides. -/
def parse (line : List Char) : Option Command :=
  (Text.trimStart line).head?.bind ofChar?

def name : Command → String
  | quit => "quit"
  | reload => "reload"
  | version => "version"
  | help => "help"

/-- The name as a constant. -/
def title : Command → String
  | quit => "Quit"
  | reload => "Reload"
  | version => "Version"
  | help => "Help"

end Command

namespace Console

/-- What the console writes when it is asked for help. -/
def help : String :=
  "Application test console:\n R   -  execute reload functions\n" ++
    " q   -  quit from application.\n v   -  version\n h|? -  this information."

def newline : UInt8 := 10

/-- One read from the input. -/
inductive Chunk where
  /-- Some bytes; none at the end of the input. -/
  | bytes (bs : Bytes)
  | failed (message : String)

/-- What a line asks for, and what is said about it. -/
def readLine (line : Bytes) : Option Command × Records :=
  let text := Text.decodeLossy line
  match Command.parse text with
  | some c => (some c, [⟨.debug, .console, "Console command: " ++ c.name⟩])
  | none =>
    let visible := Text.trim text
    if visible.isEmpty then (none, [])
    else
      (none, [⟨.debug, .console,
        "Ignoring console input " ++ Text.quote (String.ofList visible)⟩])

/-- Cuts bytes into the lines that end, each with its newline, and the rest. -/
def splitLines : Bytes → List Bytes × Bytes
  | [] => ([], [])
  | b :: bs =>
    let (lines, rest) := splitLines bs
    if b = newline then ([b] :: lines, rest)
    else
      match lines with
      | [] => ([], b :: rest)
      | l :: ls => ((b :: l) :: ls, rest)

/-- What a reader has gathered. -/
structure Reading where
  /-- Bytes of a line that has not ended. -/
  pending : Bytes
  commands : List Command
  said : Records

/-- Reads lines one after another. -/
def readLines (lines : List Bytes) : List Command × Records :=
  let read := lines.map readLine
  (read.filterMap (·.1), read.flatMap (·.2))

/-- Takes in one read, and tells whether there can be more. The end of the input ends the last
line. -/
def forward (pending : Bytes) : Chunk → Except String Bool × Reading
  | .failed message => (.error message, ⟨pending, [], []⟩)
  | .bytes [] =>
    let (command, said) := readLine pending
    (.ok false, ⟨[], command.toList, said⟩)
  | .bytes bs =>
    let (lines, rest) := splitLines (pending ++ bs)
    let (commands, said) := readLines lines
    (.ok true, ⟨rest, commands, said⟩)

end Console

end Overseer
