import Overseer.Log
import Overseer.Text.Blank
import Overseer.Text.Decimal

/-!
# Log filters

A filter is a list of directives between commas. A directive names a source by the beginning of
its path, a span, fields, and the level up to which records pass; each of these may be left out.
The most specific directive that fits a record decides about it.
-/

namespace Overseer

/-- The most talkative level that passes; none if nothing does. -/
abbrev Threshold := Option Level

/-- Why a text is no filter. -/
inductive FilterFault where
  | directive
  | level
deriving DecidableEq, Repr

/-- What is said about a fault: what went wrong, and why as far as that says more. -/
def FilterFault.message : FilterFault → String
  | directive => "invalid filter directive"
  | level =>
    let text := "error parsing level filter: expected one of \"off\", \"error\", \"warn\", " ++
      "\"info\", \"debug\", \"trace\", or a number 0-5"
    text ++ ": " ++ text

namespace Threshold

def admits (t : Threshold) (l : Level) : Bool :=
  match t with
  | none => false
  | some most => l.rank ≤ most.rank

/-- The thresholds by number, from the most silent. -/
def all : List Threshold :=
  [none, some .error, some .warn, some .info, some .debug, some .trace]

/-- Reads a number or a name in any case of the ASCII letters. No text at all means errors. -/
def parse? (cs : List Char) : Option Threshold :=
  match (Text.readNumber (18446744073709551616) cs).toOption.bind (all[·]?) with
  | some t => some t
  | none =>
    let name := String.ofList (cs.map Char.toLower)
    if name = "" ∨ name = "error" then some (some .error)
    else if name = "warn" then some (some .warn)
    else if name = "info" then some (some .info)
    else if name = "debug" then some (some .debug)
    else if name = "trace" then some (some .trace)
    else if name = "off" then some none
    else none

end Threshold

structure Directive where
  threshold : Threshold := some .trace
  /-- How the path of a source has to begin. -/
  target : Option String := none
  span : Option String := none
  fields : List String := []
deriving DecidableEq, Repr

namespace Directive

/-- Where a reader stands, with the place where the piece it reads began. -/
inductive Reading where
  | start
  | word (since : Nat)
  | span (since : Nat)
  | field (since : Nat)
  | fieldsEnd
  | spanEnd
  | level (since : Nat)
deriving DecidableEq, Repr

/-- The characters from one place to another. -/
def piece (text : List Char) (since until' : Nat) : List Char :=
  (text.drop since).take (until' - since)

/-- Whether a directive can begin with the character. -/
def canBegin (c : Char) : Bool :=
  c = '-' || c = ':' || c = '_' || c.isAlphanum || (127 < c.toNat && !Text.isBlank c)

/-- Reads one character, which stands at place `i`. Pieces are cut from `text`. -/
def step (text : List Char) (i : Nat) (c : Char) (r : Reading) (d : Directive) :
    Except FilterFault (Reading × Directive) :=
  let cut (since : Nat) := String.ofList (piece text since i)
  match r with
  | .start =>
    if c = '[' then .ok (.span (i + 1), d)
    else if canBegin c then .ok (.word i, d)
    else .error .directive
  | .word since =>
    if c = '=' then .ok (.level (i + 1), { d with target := some (cut since) })
    else if c = '[' then .ok (.span (i + 1), { d with target := some (cut since) })
    else .ok (r, d)
  | .span since =>
    if c = ']' then .ok (.spanEnd, { d with span := some (cut since) })
    else if c = '\x7b' then
      .ok (.field (i + 1), { d with span := if cut since = "" then none else some (cut since) })
    else .ok (r, d)
  | .field since =>
    if c = '\x7d' then
      if cut since = "" then .error .directive
      else .ok (.fieldsEnd, { d with fields := d.fields ++ [cut since] })
    else .ok (r, d)
  | .fieldsEnd => if c = ']' then .ok (.spanEnd, d) else .error .directive
  | .spanEnd => if c = '=' then .ok (.level (i + 1), d) else .error .directive
  | .level _ => .ok (r, d)

/-- What has been read at the end of the text. A word alone is a level if it can be. -/
def finish (text : List Char) (r : Reading) (d : Directive) : Except FilterFault Directive :=
  match r with
  | .word since =>
    let word := text.drop since
    match Threshold.parse? word with
    | some t => .ok { d with threshold := t }
    | none => .ok { d with target := some (String.ofList word) }
  | .level since =>
    let name := text.drop since
    if name.isEmpty then .ok d
    else
      match Threshold.parse? name with
      | some t => .ok { d with threshold := t }
      | none => .error .level
  | .spanEnd => .ok d
  | .start | .span _ | .field _ | .fieldsEnd => .error .directive

/-- Reads the characters from place `i` on. -/
def read (text : List Char) (i : Nat) (r : Reading) (d : Directive) :
    List Char → Except FilterFault Directive
  | [] => finish text r d
  | c :: cs => do
    let (r, d) ← step text i c r d
    read text (i + 1) r d cs

/-- Reads a directive. White space around it does not count when places are counted, but is there
when pieces are cut. -/
def parse (text : List Char) : Except FilterFault Directive :=
  read text 0 .start {} (Text.trim text)

/-- Whether the directive speaks about records, and not only about what happens in a span or with
the value of a field. -/
def isPlain (d : Directive) : Bool := d.span.isNone && d.fields.all fun f => !f.toList.contains '='

/-- Whether the directive fits a record, which has one field, its message. -/
def fits (d : Directive) (r : Record) : Bool :=
  d.isPlain && d.fields.all (· = "message") &&
    match d.target with
    | none => true
    | some t => t.toList.isPrefixOf r.source.path.toList

/-- Whether `d` is at least as specific as `e`: its target is longer, or as long with no fewer
fields. -/
def outranks (d e : Directive) : Bool :=
  let length (d : Directive) := (d.target.map (·.utf8ByteSize + 1)).getD 0
  length e < length d || length e = length d && e.fields.length ≤ d.fields.length

end Directive

/-- The directives, in the order in which they were written. -/
structure Filter where
  directives : List Directive := []
deriving DecidableEq, Repr

namespace Filter

/-- Cuts a text at each comma. -/
def cut : List Char → List (List Char)
  | [] => [[]]
  | c :: cs =>
    if c = ',' then [] :: cut cs
    else
      match cut cs with
      | [] => [[c]]
      | p :: ps => (c :: p) :: ps

def parse (text : String) : Except FilterFault Filter := do
  let pieces := (cut text.toList).filter (!·.isEmpty)
  return ⟨← pieces.mapM Directive.parse⟩

/-- What passes unless something else is asked for. -/
def standard : Filter := ⟨[{ threshold := some .info }]⟩

/-- The directive that decides about a record: the most specific one, and of equals the last. -/
def decider? (f : Filter) (r : Record) : Option Directive :=
  (f.directives.filter (·.fits r)).foldl
    (fun best d =>
      match best with
      | some b => if d.outranks b then some d else best
      | none => some d) none

def passes (f : Filter) (r : Record) : Bool :=
  match f.decider? r with
  | some d => d.threshold.admits r.level
  | none => false

end Filter

end Overseer
