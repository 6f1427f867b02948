import Overseer.Span

/-!
# Cancellation tokens

A token is a handle on a flag. Copies of a token are handles on the same flag; a family is all
tokens that came from one by copying, and it is cancelled once and for all. Handles are held in
named places.
-/

namespace Overseer

/-- What a wait for cancellation ends with. -/
inductive Waited where
  /-- The wait ended with the flag as given. -/
  | saw (cancelled : Bool)
  /-- The deadline does not exist. -/
  | overflow
deriving DecidableEq, Repr

/-- A call on the tokens in places named by `κ`. -/
inductive TokenCall (κ : Type) where
  /-- Puts a token of a family of its own in a place. -/
  | fresh (k : κ)
  /-- Puts a copy of the token in `source` in a place. -/
  | copy (k source : κ)
  | drop (k : κ)
  | cancel (k : κ)
  | wait (k : κ) (timeout : Span) (now : Moment)
  | ask (k : κ)
deriving DecidableEq, Repr

inductive TokenAnswer where
  | unit
  | flag (cancelled : Bool)
  | waited (w : Waited)
deriving DecidableEq, Repr

/-- The tokens in places named by `κ`. -/
structure Tokens (κ : Type) where
  /-- The family of the token in a place; a later entry of the same place is not looked at. -/
  holdings : List (κ × Nat) := []
  /-- Whether the family is cancelled, by its number. -/
  flags : List Bool := []

namespace Tokens

variable {κ : Type} [DecidableEq κ]

def family? (t : Tokens κ) (k : κ) : Option Nat := t.holdings.lookup k

def holds (t : Tokens κ) (k : κ) : Bool := (t.family? k).isSome

/-- Whether the token in a place is cancelled. -/
def isCancelled? (t : Tokens κ) (k : κ) : Option Bool := (t.family? k).bind (t.flags[·]?)

/-- Puts a token of a family in a place. The token that was there is dropped. -/
def put (t : Tokens κ) (k : κ) (family : Nat) : Tokens κ :=
  { t with holdings := (k, family) :: t.holdings.filter (·.1 ≠ k) }

/-- A token of a family of its own. -/
def fresh (t : Tokens κ) (k : κ) : Tokens κ :=
  { t with flags := t.flags ++ [false] }.put k t.flags.length

def copy? (t : Tokens κ) (k source : κ) : Option (Tokens κ) := (t.family? source).map (t.put k ·)

def drop (t : Tokens κ) (k : κ) : Tokens κ :=
  { t with holdings := t.holdings.filter (·.1 ≠ k) }

def cancel? (t : Tokens κ) (k : κ) : Option (Tokens κ) :=
  (t.family? k).map fun f => { t with flags := t.flags.set f true }

/-- Waits until the token is cancelled or the timeout is over, when nobody cancels it meanwhile. -/
def wait? (t : Tokens κ) (k : κ) (now : Moment) (timeout : Span) : Option Waited :=
  (t.isCancelled? k).map fun cancelled =>
    if (now.after? timeout).isNone then .overflow else .saw cancelled

/-- Performs a call, where the token that it is made on exists. -/
def perform (t : Tokens κ) : TokenCall κ → Option (TokenAnswer × Tokens κ)
  | .fresh k => some (.unit, t.fresh k)
  | .copy k source => (t.copy? k source).map fun t' => (.unit, t')
  | .drop k => if t.holds k then some (.unit, t.drop k) else none
  | .cancel k => (t.cancel? k).map fun t' => (.unit, t')
  | .wait k timeout now => (t.wait? k now timeout).map fun w => (.waited w, t)
  | .ask k => (t.isCancelled? k).map fun cancelled => (.flag cancelled, t)

/-- The tokens that there are after the calls, of which the latest is the first. -/
def after? : List (TokenCall κ) → Option (Tokens κ)
  | [] => some {}
  | call :: past => (after? past).bind fun t => (t.perform call).map (·.2)

end Tokens

/-- A token on one line. -/
def describeToken (cancelled : Bool) : String :=
  "CancellationToken \x7b cancelled: " ++ toString cancelled ++ " \x7d"

end Overseer
