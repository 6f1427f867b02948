import Overseer.PidFile

/-!
# Going to the background

A new process takes over: it leads a session of its own, works in the root directory, has no
terminal, and holds the PID file. Where the PID file is gets fixed before the working directory
changes.
-/

namespace Overseer.Background

/-- What input, output and complaints of the new process are connected to. -/
def streams : List String := ["/dev/null", "/dev/null", "/dev/null"]

/-- The permissions that new files do not get. -/
def umask : Nat := 18

/-- The new process leads a session, so no terminal can signal it. -/
def leadsSession : Bool := true

/-- Where the PID file will be, from the root on. -/
def guardPath (path : Option String) (h : Host) : Except Failure (Option String) :=
  match path with
  | none => .ok none
  | some p =>
    match h.absolute p with
    | .ok p => .ok (some p)
    | .error e => .error (.io e.message)

/-- What the new process has when it takes over. -/
structure Takeover where
  guard : Except Failure (Option PidFile)
  host : Host
  said : Records := []

/-- What the process says before the new one takes over. -/
def leaving : Record := ⟨.info, .background, "Daemonizing process..."⟩

/-- What the new process says once it has settled. -/
def settled (pid : Nat) : Record :=
  ⟨.info, .background, "Process daemonized (PID: " ++ toString pid ++ ")"⟩

/-- The new process, whose number is `pid`, takes over and writes the PID file. -/
def takeOver (path : Option String) (pid : Nat) (h : Host) : Takeover :=
  let h := { h with cwd := [] }
  match path with
  | none => { guard := .ok none, host := h, said := [settled pid] }
  | some p =>
    let d := PidFile.write { path := p } pid h
    match d.result with
    | .error e => { guard := .error e, host := d.host, said := d.said }
    | .ok () => { guard := .ok (some d.file), host := d.host, said := d.said ++ [settled pid] }

end Overseer.Background
