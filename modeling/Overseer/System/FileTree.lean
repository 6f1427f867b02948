import Overseer.System.Errno
import Overseer.System.Path
import Overseer.Text.Utf8

/-!
# A tree of files

Directories, regular files and symbolic links by location. Operations take a path as a process
gives it and walk it from the root or from the working directory, following links.
-/

namespace Overseer

/-- The names from the root on. -/
abbrev Location := List String

inductive Entry where
  | directory
  | file (content : Bytes)
  | link (target : String)
deriving DecidableEq, Repr

/-- What stands where. The root is a directory without being listed. -/
structure FileTree where
  entries : List (Location × Entry) := []
deriving DecidableEq, Repr

/-- Where a path leads. -/
inductive Resolved where
  | found (l : Location) (e : Entry)
  /-- Only the last name is missing, in a directory that is there. A slash may stand behind it. -/
  | absent (parent : Location) (name : String) (slash : Bool)
  | failed (e : Errno)
deriving DecidableEq, Repr

/-- How a walk treats the last name. -/
inductive LastName where
  /-- A link is followed. -/
  | follow
  /-- A link is found itself, unless a slash stands behind it. -/
  | keep
  /-- A link is followed, and no slash may stand behind the name. -/
  | create
deriving DecidableEq, Repr

/-- How the last piece of a path is written. -/
inductive LastPiece where
  | name
  /-- A name with a slash behind it. -/
  | nameAndSlash
  | dot
  | dotDot
  | root
deriving DecidableEq, Repr

namespace FileTree

def get? (t : FileTree) (l : Location) : Option Entry :=
  if l = [] then some .directory else t.entries.lookup l

def put (t : FileTree) (l : Location) (e : Entry) : FileTree :=
  ⟨(l, e) :: t.entries.filter (·.1 ≠ l)⟩

def erase (t : FileTree) (l : Location) : FileTree := ⟨t.entries.filter (·.1 ≠ l)⟩

/-- The names in a directory. -/
def namesIn (t : FileTree) (l : Location) : List String :=
  t.entries.filterMap fun e =>
    if e.1.dropLast = l ∧ e.1 ≠ [] then e.1.getLast? else none

/-- The most links that a walk follows. -/
def linkLimit : Nat := 40

/-- The longest name in bytes. -/
def nameLimit : Nat := 255

/-- The longest path in bytes. -/
def pathLimit : Nat := 4095

/-- Walks names from a directory on. Whether a slash stands behind the last one is told by `slash`,
and `follow` goes on where a link leads. -/
def walkNames (t : FileTree) (last : LastName)
    (follow : Bool → Location → List String → Resolved) (slash : Bool) (dir : Location)
    (names : List String) : Resolved :=
  match names with
  | [] => .found dir .directory
  | "." :: rest => walkNames t last follow slash dir rest
  | ".." :: rest => walkNames t last follow slash dir.dropLast rest
  | name :: rest =>
    if rest.isEmpty && slash && last = .create then .failed .isDirectory
    else if nameLimit < name.utf8ByteSize then .failed .nameTooLong
    else
      let here := dir ++ [name]
      match t.get? here with
      | none => if rest.isEmpty then .absent dir name slash else .failed .noEntry
      | some .directory => walkNames t last follow slash here rest
      | some (.file content) =>
        if !rest.isEmpty || slash then .failed .notDirectory else .found here (.file content)
      | some (.link target) =>
        if rest.isEmpty && last = .keep && !slash then .found here (.link target)
        else
          let start := if Path.isAbsolute target then [] else dir
          let names := (Path.pieces target).filter (· ≠ "")
          follow (slash || rest.isEmpty && Path.endsInSlash target) start (names ++ rest)

/-- Walks names from a directory on, through at most `links` links. -/
def walk (t : FileTree) (last : LastName) (links : Nat) (slash : Bool) (dir : Location)
    (names : List String) : Resolved :=
  match links with
  | 0 => t.walkNames last (fun _ _ _ => .failed .tooManyLinks) slash dir names
  | links + 1 => t.walkNames last (walk t last links) slash dir names

end FileTree

/-- The files as one process sees them. -/
structure Host where
  tree : FileTree := {}
  cwd : Location := []
deriving DecidableEq, Repr

namespace Host

/-- The working directory as text. -/
def cwdPath (h : Host) : String := "/" ++ "/".intercalate h.cwd

/-- The names that a walk goes through. -/
def names (path : String) : List String := (Path.pieces path).filter (· ≠ "")

def lastPiece (path : String) : LastPiece :=
  match (names path).getLast? with
  | none => .root
  | some "." => .dot
  | some ".." => .dotDot
  | some _ => if Path.endsInSlash path then .nameAndSlash else .name

/-- Where a path leads. -/
def resolve (h : Host) (last : LastName) (slash : Bool) (path : String) : Resolved :=
  if path.isEmpty then .failed .noEntry
  else if FileTree.pathLimit < path.utf8ByteSize then .failed .nameTooLong
  else
    h.tree.walk last FileTree.linkLimit slash (if Path.isAbsolute path then [] else h.cwd)
      (names path)

def hasNul (path : String) : Bool := path.toList.contains '\x00'

/-- What a path leads to, all links followed. -/
def find (h : Host) (path : String) : Except FileFault (Location × Entry) :=
  if hasNul path then .error .nul
  else
    match h.resolve .follow (Path.endsInSlash path) path with
    | .found l e => .ok (l, e)
    | .absent .. => .error (.os .noEntry)
    | .failed e => .error (.os e)

def pathExists (h : Host) (path : String) : Bool := (h.find path).isOk

def isDirectory (h : Host) (path : String) : Bool :=
  match h.find path with
  | .ok (_, .directory) => true
  | _ => false

/-- The names in a directory. -/
def list (h : Host) (path : String) : Except FileFault (List String) :=
  match h.find path with
  | .ok (l, .directory) => .ok (h.tree.namesIn l)
  | .ok _ => .error (.os .notDirectory)
  | .error e => .error e

def read (h : Host) (path : String) : Except FileFault Bytes :=
  match h.find path with
  | .ok (_, .file content) => .ok content
  | .ok _ => .error (.os .isDirectory)
  | .error e => .error e

/-- The content of a file as text. -/
def readText (h : Host) (path : String) : Except FileFault (List Char) := do
  match Text.decode? (← h.read path) with
  | some cs => return cs
  | none => throw .notText

/-- Makes the file at a path hold exactly the bytes, and creates it if need be. -/
def write (h : Host) (path : String) (content : Bytes) : Except FileFault Host :=
  if hasNul path then .error .nul
  else
    match h.resolve .create (Path.endsInSlash path) path with
    | .failed e => .error (.os e)
    | .found _ .directory => .error (.os .isDirectory)
    | .found l _ => .ok { h with tree := h.tree.put l (.file content) }
    | .absent l name _ => .ok { h with tree := h.tree.put (l ++ [name]) (.file content) }

/-- Takes away the file or link that a path names. -/
def unlink (h : Host) (path : String) : Except FileFault Host :=
  if hasNul path then .error .nul
  else
    match h.resolve .keep false path, lastPiece path with
    | .failed e, _ => .error (.os e)
    | _, .dot | _, .dotDot | _, .root => .error (.os .isDirectory)
    | .absent .., _ => .error (.os .noEntry)
    | .found _ .directory, _ => .error (.os .isDirectory)
    | .found _ _, .nameAndSlash => .error (.os .notDirectory)
    | .found l _, .name => .ok { h with tree := h.tree.erase l }

/-- Takes away an empty directory. -/
def removeDirectory (h : Host) (path : String) : Except FileFault Host :=
  if hasNul path then .error .nul
  else
    match h.resolve .keep false path, lastPiece path with
    | .failed e, _ => .error (.os e)
    | _, .dot => .error (.os .invalid)
    | _, .dotDot => .error (.os .notEmpty)
    | _, .root => .error (.os .busy)
    | .absent .., _ => .error (.os .noEntry)
    | .found l .directory, _ =>
      if (h.tree.namesIn l).isEmpty then .ok { h with tree := h.tree.erase l }
      else .error (.os .notEmpty)
    | .found _ _, _ => .error (.os .notDirectory)

/-- Makes one directory. -/
def makeDirectory (h : Host) (path : String) : Except FileFault Host :=
  if hasNul path then .error .nul
  else
    match h.resolve .keep false path with
    | .failed e => .error (.os e)
    | .found _ _ => .error (.os .alreadyThere)
    | .absent l name _ => .ok { h with tree := h.tree.put (l ++ [name]) .directory }

/-- Makes a directory unless it is there. -/
def ensureDirectory (h : Host) (path : String) : Except FileFault Unit × Host :=
  match h.makeDirectory path with
  | .ok h => (.ok (), h)
  | .error e => (if h.isDirectory path then .ok () else .error e, h)

/-- Makes a directory and the ones above it, at most `depth` of them. What was made stays, also
when one cannot be made. -/
def makeDirectoriesUpTo (h : Host) (path : String) : Nat → Except FileFault Unit × Host
  | 0 => (.error (.os .noEntry), h)
  | depth + 1 =>
    if path.isEmpty then (.ok (), h)
    else
      match h.makeDirectory path, Path.parent? path with
      | .error (.os .noEntry), some above =>
        match h.makeDirectoriesUpTo above depth with
        | (.ok (), h) => h.ensureDirectory path
        | (.error e, h) => (.error e, h)
      | _, _ => h.ensureDirectory path

/-- Makes a directory and the ones above it, as far as they are missing. -/
def makeDirectories (h : Host) (path : String) : Except FileFault Unit × Host :=
  h.makeDirectoriesUpTo path (path.length + 1)

def symlink (h : Host) (path target : String) : Except FileFault Host :=
  if hasNul path || hasNul target then .error .nul
  else if target.isEmpty then .error (.os .noEntry)
  else
    match h.resolve .keep false path, lastPiece path with
    | .failed e, _ => .error (.os e)
    | .found _ _, _ => .error (.os .alreadyThere)
    | .absent .., .nameAndSlash => .error (.os .noEntry)
    | .absent l name _, _ => .ok { h with tree := h.tree.put (l ++ [name]) (.link target) }

/-- The path from the root on. -/
def absolute (h : Host) (path : String) : Except FileFault String :=
  match Path.absolute? h.cwdPath path with
  | some p => .ok p
  | none => .error .emptyPath

end Host

end Overseer
