import Overseer.Config
import Overseer.Json.Scan

/-!
# Configuration documents

A configuration as JSON: an object with the members `is_daemon`, `pid_file` and `config_file`, or a
list of their values in this order. What is left out has its default, and members of other names
mean nothing. A document is written as an object with all three members and no blanks.
-/

namespace Overseer.Config

open Json (Fault Reader byte ascii skipBlank)

/-- The document of a configuration. -/
def document (c : Config) : String :=
  let path : Option String → String
    | none => "null"
    | some p => Json.quote p
  "\x7b\"is_daemon\":" ++ toString c.isDaemon ++ ",\"pid_file\":" ++ path c.pidFile ++
    ",\"config_file\":" ++ path c.configFile ++ "\x7d"

/-- The fault of a value that is not of the kind asked for. It is read as far as is needed to know
that it is one. -/
def wrongKind (bs : Bytes) : Fault :=
  let reading {α : Type} : Except Fault α → Fault
    | .error e => e
    | .ok _ => .mismatch
  let number (bs : Bytes) : Fault :=
    match Json.numeral true bs with
    | .error e => e
    | .ok (n, _) => if n.isTooLarge then .malformed else .mismatch
  match bs with
  | [] => .ended
  | b :: rest =>
    if b = byte 'n' then reading (Json.word (ascii "ull") rest)
    else if b = byte 't' then reading (Json.word (ascii "rue") rest)
    else if b = byte 'f' then reading (Json.word (ascii "alse") rest)
    else if b = byte '-' then number rest
    else if Json.isDigit b then number (b :: rest)
    else if b = byte '"' then reading (Json.text rest)
    else if b = byte '[' ∨ b = byte '\x7b' then .mismatch
    else .malformed

/-- Reads `true` or `false`. -/
def flag : Reader Bool := fun bs =>
  match skipBlank bs with
  | [] => .error .ended
  | b :: rest =>
    if b = byte 't' then (Json.word (ascii "rue") rest).map (true, ·)
    else if b = byte 'f' then (Json.word (ascii "alse") rest).map (false, ·)
    else .error (wrongKind (b :: rest))

/-- Reads a text or `null`. -/
def path : Reader (Option String) := fun bs =>
  match skipBlank bs with
  | [] => .error .ended
  | b :: rest =>
    if b = byte 'n' then (Json.word (ascii "ull") rest).map (none, ·)
    else if b = byte '"' then (Json.text rest).map fun (s, rest) => (some s, rest)
    else .error (wrongKind (b :: rest))

/-- The members that have been read. -/
structure Members where
  isDaemon : Option Bool := none
  pidFile : Option (Option String) := none
  configFile : Option (Option String) := none
deriving DecidableEq, Repr

def Members.config (m : Members) : Config :=
  ⟨m.isDaemon.getD false, m.pidFile.getD none, m.configFile.getD none⟩

/-- Reads the colon before a value. -/
def colon (bs : Bytes) : Except Fault Bytes :=
  match skipBlank bs with
  | [] => .error .ended
  | c :: rest => if c = byte ':' then .ok rest else .error .malformed

/-- Reads a colon and a value that was not read before. -/
def once {α : Type} (old : Option α) (value : Reader α) (set : α → Members) : Reader Members :=
  fun bs => do
    if old.isSome then throw .mismatch
    let (v, rest) ← value (← colon bs)
    return (set v, rest)

/-- Reads the value of a member, which must not have been read before if its name is known. -/
def member (name : String) (m : Members) : Reader Members :=
  if name = "is_daemon" then once m.isDaemon flag fun v => { m with isDaemon := some v }
  else if name = "pid_file" then once m.pidFile path fun v => { m with pidFile := some v }
  else if name = "config_file" then once m.configFile path fun v => { m with configFile := some v }
  else fun bs => do return (m, ← Json.skipValue (← colon bs))

/-- Reads a name and its value, where a name has to stand. -/
def named (m : Members) : Reader Members := fun bs =>
  match bs with
  | [] => .error .ended
  | q :: rest =>
    if q = byte '"' then do
      let (name, rest) ← Json.text rest
      member name m rest
    else .error .malformed

/-- Reads members to the end of the object, at most `n`. `isFirst` tells that none was read. -/
def members : Nat → Bool → Members → Reader Members
  | 0, _, _, _ => .error .ended
  | n + 1, isFirst, m, bs =>
    match skipBlank bs with
    | [] => .error .ended
    | b :: rest =>
      if b = byte '\x7d' then .ok (m, rest)
      else if isFirst then do
        let (m, rest) ← named m (b :: rest)
        members n false m rest
      else if b = byte ',' then do
        let (m, rest) ← named m (skipBlank rest)
        members n false m rest
      else .error .malformed

/-- Reads the next element of a list, or finds that the list has ended; the bracket stays. -/
def element {α : Type} (isFirst : Bool) (value : Reader α) : Reader (Option α) := fun bs =>
  let some' (bs : Bytes) := (value bs).map fun (a, rest) => (some a, rest)
  match skipBlank bs with
  | [] => .error .ended
  | b :: rest =>
    if b = byte ']' then .ok (none, b :: rest)
    else if isFirst then some' (b :: rest)
    else if b = byte ',' then
      match skipBlank rest with
      | [] => .error .ended
      | c :: rest => if c = byte ']' then .error .malformed else some' (c :: rest)
    else .error .malformed

/-- Reads the end of a list. -/
def listEnd (bs : Bytes) : Except Fault Bytes :=
  match skipBlank bs with
  | [] => .error .ended
  | b :: rest => if b = byte ']' then .ok rest else .error .malformed

/-- Reads the elements of a list and its end. -/
def elements : Reader Members := fun bs => do
  let (isDaemon, bs) ← element true flag bs
  let (pidFile, bs) ← if isDaemon.isSome then element false path bs else .ok (none, bs)
  let (configFile, bs) ← if pidFile.isSome then element false path bs else .ok (none, bs)
  return (⟨isDaemon, pidFile, configFile⟩, ← listEnd bs)

/-- Reads a document, after which nothing may stand. -/
def ofDocument (bs : Bytes) : Except Fault Config := do
  let (m, rest) ← match skipBlank bs with
    | [] => .error .ended
    | b :: rest =>
      if b = byte '[' then elements rest
      else if b = byte '\x7b' then members (rest.length + 1) true {} rest
      else .error (wrongKind (b :: rest))
  if (skipBlank rest).isEmpty then return m.config else throw .malformed

end Overseer.Config
