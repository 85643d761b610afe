import Peering.Manager
import Peering.Text.Quoted

/-!
# Diagnostics

What is printed when a node does not start: the causes one inside the other, each
with its name and its parts. This is for who has to find the fault; the messages
beside the error types are the sentences for everybody else.
-/

namespace Peering

/-- A cause with named parts. -/
def showParts (name : String) (parts : List (String × String)) : String :=
  name ++ " \x7b " ++
    String.intercalate ", " (parts.map fun (part, value) => part ++ ": " ++ value) ++ " \x7d"

/-- A cause with one part that needs no name. -/
def showPart (name part : String) : String :=
  name ++ "(" ++ part ++ ")"

def OsError.diagnostic (error : OsError) : String :=
  showParts "Os" [("code", toString error.code), ("kind", error.kind),
    ("message", quoted error.description)]

def Json.Fault.diagnostic : Json.Fault → String
  | .malformed => "Syntax"
  | .mismatched => "Data"
  | .ended => "Eof"

def SettingsError.diagnostic : SettingsError → String
  | .unreadable fault => showPart "Json" fault.diagnostic
  | .invalid field reason =>
      showParts "Invalid" [("field", quoted field), ("reason", quoted reason)]

def BootUriError.diagnostic : BootUriError → String
  | .badIdLength length => showPart "BadIdLength" (toString length)
  | .missingScheme uri => showPart "MissingScheme" (quoted uri)
  | .missingAt uri => showPart "MissingAt" (quoted uri)
  | .badAddress address => showPart "BadAddress" (quoted address)

def ManagerError.diagnostic : ManagerError → String
  | .settings cause => showPart "Config" cause.diagnostic
  | .nodeId cause => showPart "NodeId" cause.diagnostic
  | .bootNode uri cause =>
      showParts "BootNode" [("uri", quoted uri), ("source", cause.diagnostic)]
  | .bind address cause =>
      showParts "Bind" [("addr", address.text), ("source", cause.diagnostic)]
  | .spawn cause => showPart "Spawn" cause.diagnostic
  | .shutDown => "ShutDown"

end Peering
