/-!
# Decimal numbers as text

Reading one is from the left, so the first character at fault decides what is said of it.
-/

namespace Overseer.Text

/-- The value of a decimal digit. -/
def digitValue? (c : Char) : Option Nat :=
  if '0' ≤ c ∧ c ≤ '9' then some (c.toNat - '0'.toNat) else none

/-- Why a text is not a number below the limit. -/
inductive NumberFault where
  | empty
  | invalidDigit
  | tooLarge
deriving DecidableEq, Repr

namespace NumberFault

def message : NumberFault → String
  | empty => "cannot parse integer from empty string"
  | invalidDigit => "invalid digit found in string"
  | tooLarge => "number too large to fit in target type"

end NumberFault

/-- Reads on after the number `n`, which the next digits continue. -/
def readDigits (limit n : Nat) : List Char → Except NumberFault Nat
  | [] => .ok n
  | c :: cs =>
    match digitValue? c with
    | none => .error .invalidDigit
    | some d => if limit ≤ n * 10 + d then .error .tooLarge else readDigits limit (n * 10 + d) cs

/-- Reads an unsigned number below `limit`: digits, after at most one plus sign. -/
def readNumber (limit : Nat) : List Char → Except NumberFault Nat
  | [] => .error .empty
  | ['+'] => .error .invalidDigit
  | '+' :: cs => readDigits limit 0 cs
  | cs => readDigits limit 0 cs

end Overseer.Text
