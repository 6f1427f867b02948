/-!
# Text as bytes

UTF-8 read one byte at a time. `decode?` accepts well-formed bytes only; `decodeLossy` puts one
replacement character for each longest run that could have begun a character and does not end one.
-/

namespace Overseer

abbrev Bytes := List UInt8

namespace Text

/-- The bytes of a text. -/
def encode (s : String) : Bytes := s.toList.flatMap String.utf8EncodeChar

/-- A character under way: `owed` bytes are to come, the next of them from `low` to `high`, and
`value` holds the bits so far. -/
structure Pending where
  owed : Nat
  low : Nat
  high : Nat
  value : Nat
deriving DecidableEq, Repr

/-- What a byte does to the reading of a character. -/
inductive ByteStep where
  /-- The byte ends the character. -/
  | done (c : Char)
  /-- More bytes are owed. -/
  | more (p : Pending)
  /-- No character has the byte here. -/
  | broken
deriving DecidableEq, Repr

/-- The step at a first byte. After `e0` and `f0` the second byte is high enough that no shorter
form exists, after `ed` and `f4` low enough that the value is a character. -/
def firstByte (b : UInt8) : ByteStep :=
  let n := b.toNat
  if n < 0x80 then .done (Char.ofNat n)
  else if n < 0xc2 then .broken
  else if n < 0xe0 then .more ⟨1, 0x80, 0xbf, n - 0xc0⟩
  else if n < 0xf0 then
    .more ⟨2, if n = 0xe0 then 0xa0 else 0x80, if n = 0xed then 0x9f else 0xbf, n - 0xe0⟩
  else if n < 0xf5 then
    .more ⟨3, if n = 0xf0 then 0x90 else 0x80, if n = 0xf4 then 0x8f else 0xbf, n - 0xf0⟩
  else .broken

/-- The step at a later byte. -/
def Pending.next (p : Pending) (b : UInt8) : ByteStep :=
  let n := b.toNat
  if p.low ≤ n ∧ n ≤ p.high then
    let value := p.value * 64 + (n - 0x80)
    if p.owed ≤ 1 then .done (Char.ofNat value) else .more ⟨p.owed - 1, 0x80, 0xbf, value⟩
  else .broken

/-- The step from wherever the reading stands. -/
def byteStep : Option Pending → UInt8 → ByteStep
  | none, b => firstByte b
  | some p, b => p.next b

/-- Reading on from a character under way. -/
def decodeFrom : Option Pending → Bytes → Option (List Char)
  | none, [] => some []
  | some _, [] => none
  | p, b :: bs =>
    match byteStep p b with
    | .done c => (decodeFrom none bs).map (c :: ·)
    | .more q => decodeFrom (some q) bs
    | .broken => none

/-- The text that the bytes spell, if they are well formed. -/
def decode? (bs : Bytes) : Option (List Char) := decodeFrom none bs

/-- The character that stands for bytes without a meaning. -/
def replacement : Char := '\ufffd'

/-- Lenient reading on from a character under way. A byte that breaks the character is read again
as a first byte. -/
def decodeLossyFrom : Option Pending → Bytes → List Char
  | none, [] => []
  | some _, [] => [replacement]
  | none, b :: bs =>
    match firstByte b with
    | .done c => c :: decodeLossyFrom none bs
    | .more q => decodeLossyFrom (some q) bs
    | .broken => replacement :: decodeLossyFrom none bs
  | some p, b :: bs =>
    match p.next b with
    | .done c => c :: decodeLossyFrom none bs
    | .more q => decodeLossyFrom (some q) bs
    | .broken =>
      replacement ::
        match firstByte b with
        | .done c => c :: decodeLossyFrom none bs
        | .more q => decodeLossyFrom (some q) bs
        | .broken => replacement :: decodeLossyFrom none bs

/-- The text that the bytes spell, with replacement characters where they spell none. -/
def decodeLossy (bs : Bytes) : List Char := decodeLossyFrom none bs

end Text

end Overseer
