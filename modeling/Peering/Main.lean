import Peering.CommandLine.Answer

/-!
# The program

Reads the command line and the file it names, prints the answer, and lets a node
that was started run until the program is stopped.
-/

namespace Peering

namespace Main

/-- The text of a file, or why there is none. -/
def readFile (name : String) : IO (Except OsError String) := do
  match ← (IO.FS.readFile name).toBaseIO with
  | .ok text => return .ok text
  | .error (.permissionDenied ..) => return .error .permissionDenied
  | .error _ => return .error .notFound

/-- An id made from random bits. -/
def freshId : IO NodeId := do
  let high ← IO.rand 0 (UInt64.size - 1)
  let low ← IO.rand 0 (UInt64.size - 1)
  return NodeId.random (UInt64.ofNat high) (UInt64.ofNat low)

/-- Whether the status report is due after a pause. -/
def reports (endpoint : Endpoint) (pause : Nat) : Bool :=
  endpoint.tasks.any fun periodic =>
    periodic.chore == .status && 0 < periodic.runs (endpoint.timer + pause)

/-- Dials what is queued, reports, and does what is due, again and again. -/
partial def keepRunning (host : Host) (endpoint : Endpoint) : IO Unit := do
  IO.sleep endpoint.settings.connectIntervalMs.toUInt32
  let pause := Settings.durationOf endpoint.settings.connectIntervalMs
  let dialed := endpoint.dialQueued host
  if reports dialed pause then
    for line in dialed.statusLines do
      (← IO.getStderr).putStrLn line
  keepRunning host (dialed.advance pause)

/-- Reads the file that a command line asks for, and finds the answer to it. -/
def answer (arguments : List String) : IO CommandLine.Answer := do
  let document ← match CommandLine.Command.parse arguments with
    | .ok command => match command.file? with
      | some name => readFile name
      | none => pure (.ok "")
    | .error _ => pure (.ok "")
  return CommandLine.answer (fun _ => document) (← freshId) Host.create arguments

end Main

end Peering

/-- Does what the command line says, and gives the code of the answer. -/
def main (arguments : List String) : IO UInt32 := do
  match ← Peering.Main.answer arguments with
  | .ended code out err =>
      (← IO.getStdout).putStr out
      (← IO.getStderr).putStr err
      return code.toUInt32
  | .running manager host =>
      Peering.Main.keepRunning host manager.endpoint
      return 0
