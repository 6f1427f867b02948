/-!
# Paths as text

A path is pieces of text between slashes. Empty pieces say nothing, and a piece that is one dot
says nothing unless the path begins with it.
-/

namespace Overseer.Path

/-- Cuts a text at each slash. -/
def cut : List Char → List (List Char)
  | [] => [[]]
  | c :: cs =>
    if c = '/' then [] :: cut cs
    else
      match cut cs with
      | [] => [[c]]
      | p :: ps => (c :: p) :: ps

/-- The pieces between slashes. -/
def pieces (path : String) : List String := (cut path.toList).map String.ofList

def isAbsolute (path : String) : Bool := path.toList.head? = some '/'

/-- Whether the path names a directory by its form. -/
def endsInSlash (path : String) : Bool := path.toList.getLast? = some '/'

/-- Whether a piece that is not the first says nothing. -/
def isIdle (piece : String) : Bool := piece = "" || piece = "."

/-- The pieces that say something, of a path that is not absolute. -/
def relativeParts (pieces : List String) : List String :=
  match pieces with
  | [] => []
  | p :: ps => (if p = "" then [] else [p]) ++ ps.filter (!isIdle ·)

/-- The pieces that say something. -/
def parts (path : String) : List String :=
  if isAbsolute path then (pieces path).filter (!isIdle ·) else relativeParts (pieces path)

/-- Drops pieces from the end that say nothing. The last of `pieces` comes first, and the first
piece of a path that is not absolute says something unless it is empty. -/
def trimIdle (isAbsolute : Bool) : List String → List String
  | [] => []
  | [p] => if p = "" || isAbsolute && p = "." then [] else [p]
  | p :: ps => if isIdle p then trimIdle isAbsolute ps else p :: ps

/-- The path without its last part, as it is written; there is none above the root. -/
def parent? (path : String) : Option String :=
  let root := isAbsolute path
  let body := if root then (pieces path).drop 1 else pieces path
  match trimIdle root body.reverse with
  | [] => none
  | _ :: rest =>
    let left := "/".intercalate (trimIdle root rest).reverse
    some (if root then "/" ++ left else left)

/-- One path below another. -/
def join (base : String) (parts : List String) : String :=
  parts.foldl (fun acc p => if endsInSlash acc then acc ++ p else acc ++ "/" ++ p) base

/-- The path from the root on, read in a working directory. Dots that lead upwards stay, because
links may stand before them. Two leading slashes stay two. -/
def absolute? (cwd path : String) : Option String :=
  if path.isEmpty then none
  else
    let ps := if isAbsolute path then parts path
      else match parts path with
        | "." :: ps => ps
        | ps => ps
    let base :=
      if !isAbsolute path then cwd
      else match path.toList with
        | '/' :: '/' :: '/' :: _ => "/"
        | '/' :: '/' :: _ => "//"
        | _ => "/"
    let whole := join base ps
    some (if endsInSlash path && !endsInSlash whole then whole ++ "/" else whole)

end Overseer.Path
