/-!
# Outcomes of a hook

A hook reports success or failure, or it was never set. Only a reported failure is one.
-/

namespace Overseer

inductive Outcome where
  | unset
  | passed
  | failed
deriving DecidableEq, Repr, Inhabited

namespace Outcome

def ofBool (ok : Bool) : Outcome := if ok then passed else failed

/-- Nothing reported is unset. -/
def ofOption : Option Bool → Outcome
  | none => unset
  | some ok => ofBool ok

def toOption : Outcome → Option Bool
  | unset => none
  | passed => some true
  | failed => some false

def isFailed : Outcome → Bool
  | failed => true
  | unset | passed => false

def isSet : Outcome → Bool
  | unset => false
  | passed | failed => true

def name : Outcome → String
  | unset => "unset"
  | passed => "passed"
  | failed => "failed"

/-- The name as a constant. -/
def title : Outcome → String
  | unset => "Unset"
  | passed => "Passed"
  | failed => "Failed"

@[simp] theorem ofOption_toOption (o : Outcome) : ofOption o.toOption = o := by cases o <;> rfl

end Outcome

end Overseer
