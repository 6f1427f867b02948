import Overseer.Failure
import Overseer.Log
import Overseer.System.FileTree
import Overseer.Text.Blank
import Overseer.Text.Decimal
import Overseer.Text.Quoted

/-!
# PID files

A file that holds the number of a running process in decimal digits. Whoever wrote it owns it, and
an owner that goes away takes it along.
-/

namespace Overseer

structure PidFile where
  path : String
  isOwned : Bool := false
deriving DecidableEq, Repr

namespace PidFile

/-- What an operation leaves behind. -/
structure Done where
  result : Except Failure Unit
  file : PidFile
  host : Host
  said : Records := []

/-- Process numbers are below this. -/
def pidLimit : Nat := 4294967296

def pathExists (p : PidFile) (h : Host) : Bool := h.pathExists p.path

/-- The number in a text, white space around it left out. -/
def readText (text : List Char) : Except Text.NumberFault Nat :=
  Text.readNumber pidLimit (Text.trim text)

/-- The number in the file, or nothing if there is no file. -/
def read (p : PidFile) (h : Host) : Except Failure (Option Nat) :=
  match h.readText p.path with
  | .error (.os .noEntry) => .ok none
  | .error e => .error (.pidFileRead p.path e.message)
  | .ok text =>
    match readText text with
    | .ok n => .ok (some n)
    | .error e => .error (.pidFileRead p.path ("Invalid PID format: " ++ e.message))

/-- The digits that the file holds for a number. -/
def content (pid : Nat) : Bytes := Text.encode (toString pid)

/-- Makes the directories above the file, then the file. -/
def create (path : String) (pid : Nat) (h : Host) : Except Failure Unit × Host :=
  let fail (reason : String) : Except Failure Unit := .error (.pidFileCreation path reason)
  let above := (Path.parent? path).getD ""
  match h.makeDirectories above with
  | (.error e, h) => (fail ("Failed to create parent directory: " ++ e.message), h)
  | (.ok (), h) =>
    match h.write path (content pid) with
    | .error e => (fail e.message, h)
    | .ok h => (.ok (), h)

/-- Writes the file, which is owned from then on. -/
def write (p : PidFile) (pid : Nat) (h : Host) : Done :=
  match create p.path pid h with
  | (.error e, h) => { result := .error e, file := p, host := h }
  | (.ok (), h) =>
    { result := .ok (), file := { p with isOwned := true }, host := h
      said := [⟨.info, .pidFile, "Wrote PID " ++ toString pid ++ " to " ++ p.path⟩] }

/-- Takes the file away and gives up owning it, also where it cannot be taken away. That there is
no file is no failure. -/
def remove (p : PidFile) (h : Host) : Done :=
  let p := { p with isOwned := false }
  match h.unlink p.path with
  | .ok h =>
    { result := .ok (), file := p, host := h
      said := [⟨.info, .pidFile, "Removed PID file " ++ p.path⟩] }
  | .error (.os .noEntry) => { result := .ok (), file := p, host := h }
  | .error e => { result := .error (.pidFileRemoval p.path e.message), file := p, host := h }

/-- The owner goes away. A file that cannot be taken away is only mentioned. -/
def drop (p : PidFile) (h : Host) : Host × Records :=
  if p.isOwned then
    let d := p.remove h
    match d.result with
    | .ok () => (d.host, d.said)
    | .error e =>
      (d.host, d.said ++
        [⟨.warn, .pidFile, "Could not remove PID file on exit: " ++ e.message⟩])
  else (h, [])

/-- The file on one line. -/
def describe (p : PidFile) : String :=
  "PidFile \x7b path: " ++ Text.quote p.path ++ ", owned: " ++ toString p.isOwned ++ " \x7d"

end PidFile

end Overseer
