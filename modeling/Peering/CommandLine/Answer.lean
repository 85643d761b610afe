import Peering.CommandLine.Help
import Peering.Diagnostics
import Peering.Manager.Lifecycle
import Peering.Settings.Document

/-!
# Carrying out commands

What a command line leads to, given the files, a fresh id and the host. All but a
start that succeeds end by themselves, with a code: 0 when the command was carried
out, 1 when it failed, 2 when it was not understood.
-/

namespace Peering

namespace CommandLine

inductive Answer where
  | ended (code : UInt8) (out err : String)
  /-- The node runs until it is stopped. -/
  | running (manager : Manager) (host : Host)

/-- Why a node could not be started. -/
inductive StartError where
  | file (cause : OsError)
  | settings (cause : SettingsError)
  | manager (cause : ManagerError)
deriving DecidableEq, Repr

def StartError.diagnostic : StartError → String
  | .file cause => cause.diagnostic
  | .settings cause => cause.diagnostic
  | .manager cause => cause.diagnostic

/-- The settings in the file that the options name, or the defaults. -/
def baseSettings (readFile : String → Except OsError String) (options : StartOptions) :
    Except StartError Settings :=
  match options.file with
  | none => .ok Settings.default
  | some name => do
      let document ← (readFile name).mapError .file
      (Settings.parse document).mapError .settings

/-- Makes a manager and starts its network. -/
def start (readFile : String → Except OsError String) (fresh : NodeId) (host : Host)
    (options : StartOptions) : Except StartError (Manager × Host) := do
  let settings ← baseSettings readFile options
  let manager ← (Manager.create (options.override settings) fresh).mapError .manager
  let (manager, host, result) := manager.run host
  result.mapError .manager
  return (manager, host)

def printed (text : String) : Answer :=
  .ended 0 text ""

def perform (readFile : String → Except OsError String) (fresh : NodeId) (host : Host) :
    Command → Answer
  | .start options =>
      match start readFile fresh host options with
      | .ok (manager, host) => .running manager host
      | .error error => .ended 1 "" ("Error: " ++ error.diagnostic ++ "\n")
  | .id => printed (fresh.text ++ "\n")
  | .config => printed (Settings.default.text .lines ++ "\n")
  | .version => printed (programName ++ " " ++ programVersion ++ "\n")
  | .help topic => printed topic.text

def refuse (error : UsageError) : Answer :=
  .ended 2 "" ("error: " ++ error.message ++ "\n\nFor more information, try '--help'.\n")

/-- What a command line leads to. -/
def answer (readFile : String → Except OsError String) (fresh : NodeId) (host : Host)
    (arguments : List String) : Answer :=
  match Command.parse arguments with
  | .ok command => perform readFile fresh host command
  | .error error => refuse error

end CommandLine

end Peering
