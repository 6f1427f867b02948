import Overseer.Invocation

/-!
# The program

Reads the arguments, the environment, the input and the files that the arguments name, and writes
what the call comes to. All decisions are made by `Invocation.perform`.
-/

namespace Overseer.Console

/-- Reads all there is. -/
partial def readAll (input : IO.FS.Stream) : IO Bytes := do
  let chunk ← input.read 4096
  if chunk.isEmpty then return []
  return chunk.toList ++ (← readAll input)

end Overseer.Console

namespace Overseer.Host

/-- Adds what stands at a path of this machine, if something does. -/
def adopt (h : Host) (path : String) : IO Host := do
  let above := (Path.parent? path).getD ""
  try
    let content ← IO.FS.readBinFile path
    let h := (h.makeDirectories above).2
    return (h.write path content.toList).toOption.getD h
  catch _ =>
    try
      discard (IO.FS.realPath path)
      return (h.makeDirectories path).2
    catch _ => return h

end Overseer.Host

open Overseer in
def main (arguments : List String) : IO UInt32 := do
  let environment : Environment :=
    ⟨← IO.getEnv "TASKCTL_CONFIG", ← IO.getEnv "TASKCTL_PIDFILE"⟩
  let (named, isSession) := match CommandLine.parse arguments environment with
    | .ok c => (c.configFile.toList ++ c.pidFile.toList ++ c.logDir.toList, c.signal.isNone)
    | .error _ => ([], false)
  let i : Invocation := {
    arguments := arguments
    environment := environment
    logFilter := ← IO.getEnv "RUST_LOG"
    input := ← if isSession then Console.readAll (← IO.getStdin) else pure []
    host := ← named.foldlM Host.adopt {} }
  let r := i.perform
  IO.print r.output
  for record in r.records do IO.eprintln record.sourcedLine
  for reason in r.refusal do IO.eprintln reason
  IO.eprint r.complaints
  return UInt32.ofNat r.status
