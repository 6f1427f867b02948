import Overseer.Failure
import Overseer.Lifecycle.State

/-!
# Signals

The signals that a daemon listens to, the control signals an operator names, and whom a control
signal is sent to.
-/

namespace Overseer

/-- The signals of the operating system that a daemon listens to. -/
inductive OsSignal where
  | int
  | term
  | hup
  | usr1
  | usr2
deriving DecidableEq, Repr

/-- What a daemon takes the signal to request. -/
def OsSignal.requestedState : OsSignal → State
  | int | term => .stop
  | hup => .reload
  | usr1 => .user1
  | usr2 => .user2

/-- What an operator may ask of a running daemon. -/
inductive ControlSignal where
  | stop
  | reload
  | user1
  | user2
deriving DecidableEq, Repr

/-- A call of the system's `kill`. Target zero is the whole process group of the caller. -/
structure Kill where
  target : Nat
  signal : OsSignal
deriving DecidableEq, Repr

namespace ControlSignal

def requestedState : ControlSignal → State
  | stop => .stop
  | reload => .reload
  | user1 => .user1
  | user2 => .user2

/-- The signal of the operating system that carries the request. -/
def osSignal : ControlSignal → OsSignal
  | stop => .term
  | reload => .hup
  | user1 => .usr1
  | user2 => .usr2

def name : ControlSignal → String
  | stop => "STOP"
  | reload => "RELOAD"
  | user1 => "USER1"
  | user2 => "USER2"

/-- The name as a constant. -/
def title : ControlSignal → String
  | stop => "Stop"
  | reload => "Reload"
  | user1 => "User1"
  | user2 => "User2"

/-- The spellings in lower case. -/
def ofName? (s : String) : Option ControlSignal :=
  if s = "stop" ∨ s = "term" ∨ s = "int" then some stop
  else if s = "reload" ∨ s = "hup" then some reload
  else if s = "user1" ∨ s = "usr1" then some user1
  else if s = "user2" ∨ s = "usr2" then some user2
  else none

/-- Reads a spelling in any case of the ASCII letters. The complaint quotes it in lower case. -/
def parse (text : String) : Except String ControlSignal :=
  let lower := String.ofList (text.toList.map Char.toLower)
  match ofName? lower with
  | some signal => .ok signal
  | none =>
    .error ("unknown signal '" ++ lower ++ "', expected one of: stop, reload, user1, user2")

/-- The call that sends the signal to a process. Numbers that no process can have are refused. -/
def order (signal : ControlSignal) (pid : Nat) : Except Failure Kill :=
  if pid < 2147483648 then .ok ⟨pid, signal.osSignal⟩
  else .error (.signalSend signal.name pid "PID out of range")

end ControlSignal

end Overseer
