import Overseer.Text.Utf8

/-!
# Scanning JSON

Readers of the parts of a JSON text, over bytes and from the left: the first fault that a reader
meets is the one it tells. Values that nobody asks for are skipped, with less care: their text
need not be well-formed UTF-8 and their numbers need not be in range.
-/

namespace Overseer.Json

/-- What is wrong with a document. -/
inductive Fault where
  /-- It is no JSON text. -/
  | malformed
  /-- It is JSON, but says the wrong thing. -/
  | mismatch
  /-- It ends too early. -/
  | ended
deriving DecidableEq, Repr

/-- Reads something and gives what is left. -/
abbrev Reader (α : Type) := Bytes → Except Fault (α × Bytes)

/-- The byte of an ASCII character. -/
def byte (c : Char) : UInt8 := UInt8.ofNat c.toNat

def ascii (s : String) : Bytes := s.toList.map byte

def isBlank (b : UInt8) : Bool := b = 32 || b = 10 || b = 9 || b = 13

def skipBlank (bs : Bytes) : Bytes := bs.dropWhile isBlank

/-- Reads the bytes of a word. -/
def word : Bytes → Bytes → Except Fault Bytes
  | [], bs => .ok bs
  | _ :: _, [] => .error .ended
  | w :: ws, b :: bs => if w = b then word ws bs else .error .malformed

/-! ## Texts -/

def hexValue? (b : UInt8) : Option Nat :=
  let n := b.toNat
  if 48 ≤ n ∧ n ≤ 57 then some (n - 48)
  else if 65 ≤ n ∧ n ≤ 70 then some (n - 55)
  else if 97 ≤ n ∧ n ≤ 102 then some (n - 87)
  else none

/-- Where the reading of a text stands. The number of a character beyond 16 bits comes in two
halves, of which `high` is the first. -/
inductive TextAt where
  | plain
  | escape
  | hex (owed value : Nat) (high : Option Nat)
  | pairEscape (high : Nat)
  | pairMark (high : Nat)
deriving DecidableEq, Repr

def isHighHalf (n : Nat) : Bool := 0xd800 ≤ n && n < 0xdc00

def isLowHalf (n : Nat) : Bool := 0xdc00 ≤ n && n < 0xe000

/-- The character that one letter after a backslash stands for. -/
def shortEscape? (b : UInt8) : Option UInt8 :=
  if b = byte '"' ∨ b = byte '\\' ∨ b = byte '/' then some b
  else if b = byte 'b' then some 8
  else if b = byte 'f' then some 12
  else if b = byte 'n' then some 10
  else if b = byte 'r' then some 13
  else if b = byte 't' then some 9
  else none

def charBytes (n : Nat) : Bytes := String.utf8EncodeChar (Char.ofNat n)

/-- What follows a character that was written by number. Where care is taken the two halves of a
character have to come together. -/
def afterNumber (careful : Bool) (n : Nat) (high : Option Nat) : Except Fault (Bytes × TextAt) :=
  if !careful then .ok ([], .plain)
  else
    match high with
    | none =>
      if isLowHalf n then .error .malformed
      else if isHighHalf n then .ok ([], .pairEscape n)
      else .ok (charBytes n, .plain)
    | some h =>
      if isLowHalf n then .ok (charBytes (0x10000 + (h - 0xd800) * 0x400 + (n - 0xdc00)), .plain)
      else .error .malformed

/-- Puts bytes before what a reader read. -/
def prepend (bs : Bytes) (r : Except Fault (Bytes × Bytes)) : Except Fault (Bytes × Bytes) :=
  r.map fun (x, rest) => (bs ++ x, rest)

/-- Reads the bytes of a text up to its closing quote. -/
def textBytes (careful : Bool) : TextAt → Reader Bytes
  | _, [] => .error .ended
  | .plain, b :: bs =>
    if b = byte '"' then .ok ([], bs)
    else if b = byte '\\' then textBytes careful .escape bs
    else if b.toNat < 32 then .error .malformed
    else prepend [b] (textBytes careful .plain bs)
  | .escape, b :: bs =>
    if b = byte 'u' then
      if bs.length < 4 then .error .ended else textBytes careful (.hex 4 0 none) bs
    else
      match shortEscape? b with
      | some x => prepend [x] (textBytes careful .plain bs)
      | none => .error .malformed
  | .hex owed value high, b :: bs =>
    match hexValue? b with
    | none => .error .malformed
    | some d =>
      let value := value * 16 + d
      if 1 < owed then textBytes careful (.hex (owed - 1) value high) bs
      else
        match afterNumber careful value high with
        | .ok (x, next) => prepend x (textBytes careful next bs)
        | .error e => .error e
  | .pairEscape high, b :: bs =>
    if b = byte '\\' then textBytes careful (.pairMark high) bs else .error .malformed
  | .pairMark high, b :: bs =>
    if b = byte 'u' then
      if bs.length < 4 then .error .ended else textBytes careful (.hex 4 0 (some high)) bs
    else .error .malformed

/-- Reads a text after its opening quote. -/
def text : Reader String := fun bs => do
  let (content, rest) ← textBytes true .plain bs
  match Text.decode? content with
  | some cs => return (String.ofList cs, rest)
  | none => throw .malformed

/-- Skips a text after its opening quote. -/
def skipText (bs : Bytes) : Except Fault Bytes := (textBytes false .plain bs).map (·.2)

/-! ## Numbers -/

def isDigit (b : UInt8) : Bool := 48 ≤ b.toNat && b.toNat ≤ 57

/-- The digits at the front. -/
def digits (bs : Bytes) : Bytes × Bytes := (bs.takeWhile isDigit, bs.dropWhile isDigit)

/-- The parts of a number as they are written. -/
structure Numeral where
  whole : Bytes
  fraction : Bytes := []
  isSmall : Bool := false
  exponent : Bytes := []
deriving DecidableEq, Repr

/-- The fault where a digit is missing. A reader that takes care tells the end of the document from
another character there. -/
def missingDigit (careful : Bool) (bs : Bytes) : Fault :=
  if careful && bs.isEmpty then .ended else .malformed

/-- Reads digits, of which there has to be one. -/
def someDigits (careful : Bool) : Reader Bytes := fun bs =>
  match digits bs with
  | ([], rest) => .error (missingDigit careful rest)
  | r => .ok r

/-- Reads the digits behind a point, if there is one. -/
def fraction (careful : Bool) : Reader Bytes
  | [] => .ok ([], [])
  | b :: bs => if b = byte '.' then someDigits careful bs else .ok ([], b :: bs)

/-- Reads a sign, if there is one, and tells whether it is a minus. -/
def sign : Bytes → Bool × Bytes
  | [] => (false, [])
  | b :: bs => if b = byte '-' then (true, bs) else (false, if b = byte '+' then bs else b :: bs)

/-- Reads an exponent, if there is one, and tells whether it is below zero. -/
def exponent (careful : Bool) : Reader (Bool × Bytes)
  | [] => .ok ((false, []), [])
  | b :: bs =>
    if b = byte 'e' || b = byte 'E' then
      (someDigits careful (sign bs).2).map fun (ds, rest) => (((sign bs).1, ds), rest)
    else .ok ((false, []), b :: bs)

/-- Reads a number after its minus sign. -/
def numeral (careful : Bool) : Reader Numeral := fun bs => do
  let (whole, bs) ← someDigits careful bs
  if whole.head? = some (byte '0') && whole.length ≠ 1 then throw .malformed
  let (fraction, bs) ← fraction careful bs
  let ((isSmall, exponent), bs) ← exponent careful bs
  return (⟨whole, fraction, isSmall, exponent⟩, bs)

/-- A number in scientific form while its digits are taken in. Once a digit does not fit 64 bits no
more are taken. -/
structure Magnitude where
  significand : Nat := 0
  isFull : Bool := false
  exponent : Int := 0

def digitOf (b : UInt8) : Nat := b.toNat - 48

/-- Takes in a digit, with what it adds to the exponent if it fits and if it does not. -/
def Magnitude.take (fits misses : Int) (m : Magnitude) (b : UInt8) : Magnitude :=
  if m.isFull || 18446744073709551616 ≤ m.significand * 10 + digitOf b then
    { m with isFull := true, exponent := m.exponent + misses }
  else
    { m with significand := m.significand * 10 + digitOf b, exponent := m.exponent + fits }

/-- The nearest number with 53 bits, of two the one with an even end. -/
def nearest53 (n : Nat) : Nat :=
  let unit := Nat.pow 2 (n.log2 + 1 - 53)
  let down := n / unit
  let rest := n % unit
  if unit < 2 * rest || (unit = 2 * rest && down % 2 = 1) then (down + 1) * unit else down * unit

/-- Whether a number is beyond the greatest double. -/
def Numeral.isTooLarge (n : Numeral) : Bool :=
  let m := n.whole.foldl (Magnitude.take 0 1) {}
  let m := n.fraction.foldl (Magnitude.take (-1) 0) { m with isFull := false }
  let e := n.exponent.foldl (fun acc b => acc * 10 + digitOf b) 0
  if m.significand = 0 then false
  else if 2147483648 ≤ e then !n.isSmall
  else
    let exponent := if n.isSmall then m.exponent - e else m.exponent + e
    308 < exponent ||
      (0 ≤ exponent &&
        Nat.pow 2 1024 ≤
          nearest53 (nearest53 m.significand * nearest53 (Nat.pow 10 exponent.toNat)))

/-! ## Values -/

/-- Where the skipping of a value stands. An open container is an object or a list. -/
inductive SkipAt where
  | value
  /-- A container was opened. -/
  | opened
  /-- A value in a container has ended. -/
  | after
deriving DecidableEq, Repr

/-- Skips the name of a member and its colon. -/
def skipName (bs : Bytes) : Except Fault Bytes :=
  match skipBlank bs with
  | [] => .error .ended
  | q :: rest =>
    if q ≠ byte '"' then .error .malformed
    else do
      match skipBlank (← skipText rest) with
      | [] => throw .ended
      | c :: rest => if c = byte ':' then return rest else throw .malformed

/-- Skips a value that is no container. -/
def skipScalar (b : UInt8) (rest : Bytes) : Except Fault Bytes :=
  if b = byte 'n' then word (ascii "ull") rest
  else if b = byte 't' then word (ascii "rue") rest
  else if b = byte 'f' then word (ascii "alse") rest
  else if b = byte '-' then (numeral false rest).map (·.2)
  else if isDigit b then (numeral false (b :: rest)).map (·.2)
  else if b = byte '"' then skipText rest
  else .error .malformed

/-- Skips on inside the containers that are open, the innermost first, which are objects where the
entry is true. Takes at most `n` steps. -/
def skipOn : Nat → SkipAt → List Bool → Bytes → Except Fault Bytes
  | 0, _, _, _ => .error .ended
  | n + 1, place, frames, bs =>
    match place, frames, skipBlank bs with
    | _, _, [] => .error .ended
    | .value, _, b :: rest =>
      if b = byte '[' then skipOn n .opened (false :: frames) rest
      else if b = byte '\x7b' then skipOn n .opened (true :: frames) rest
      else do
        let rest ← skipScalar b rest
        if frames.isEmpty then return rest else skipOn n .after frames rest
    | _, [], bs => .ok bs
    | place, isObject :: outer, b :: rest =>
      if b = (if isObject then byte '\x7d' else byte ']') then
        if outer.isEmpty then .ok rest else skipOn n .after outer rest
      else if place = .after && b ≠ byte ',' then .error .malformed
      else do
        let inside := if place = .after then rest else b :: rest
        skipOn n .value frames (← if isObject then skipName inside else .ok inside)

/-- Skips a value. Each byte takes at most two steps. -/
def skipValue (bs : Bytes) : Except Fault Bytes := skipOn (2 * bs.length + 2) .value [] bs

/-! ## Writing -/

/-- How a character stands in a JSON text. -/
def escapeChar (c : Char) : List Char :=
  if c = '"' ∨ c = '\\' then ['\\', c]
  else if c = '\x08' then ['\\', 'b']
  else if c = '\t' then ['\\', 't']
  else if c = '\n' then ['\\', 'n']
  else if c = '\x0c' then ['\\', 'f']
  else if c = '\r' then ['\\', 'r']
  else if c.toNat < 32 then
    ['\\', 'u', '0', '0'] ++ [Nat.digitChar (c.toNat / 16), Nat.digitChar (c.toNat % 16)]
  else [c]

/-- The text as JSON. -/
def quote (s : String) : String := String.ofList ('"' :: s.toList.flatMap escapeChar ++ ['"'])

end Overseer.Json
