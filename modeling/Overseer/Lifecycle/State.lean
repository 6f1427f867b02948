/-!
# States of a daemon

The daemon keeps one of six states in one word, which requests from outside overwrite. Three of
the states are requests that wait to be handled.
-/

namespace Overseer

inductive State where
  | start
  | running
  | reload
  | stop
  | user1
  | user2
deriving DecidableEq, Repr

namespace State

/-- The number that stands for the state in the word. -/
def code : State → Nat
  | start => 0
  | running => 1
  | reload => 2
  | stop => 3
  | user1 => 4
  | user2 => 5

/-- A number that stands for no state reads as `stop`. -/
def ofCode : Nat → State
  | 0 => start
  | 1 => running
  | 2 => reload
  | 4 => user1
  | 5 => user2
  | _ => stop

/-- A transient state is a request that waits for the next poll. -/
def isTransient : State → Bool
  | reload | user1 | user2 => true
  | start | running | stop => false

/-- Whether a daemon found in this state goes on. -/
def isAlive (s : State) : Bool := s = running || s.isTransient

def name : State → String
  | start => "start"
  | running => "running"
  | reload => "reload"
  | stop => "stop"
  | user1 => "user1"
  | user2 => "user2"

/-- The name as a constant. -/
def title : State → String
  | start => "Start"
  | running => "Running"
  | reload => "Reload"
  | stop => "Stop"
  | user1 => "User1"
  | user2 => "User2"

/-- A state is not lost in its code, so that a daemon may hold the state itself. -/
@[simp] theorem ofCode_code (s : State) : ofCode s.code = s := by cases s <;> rfl

end State

end Overseer
