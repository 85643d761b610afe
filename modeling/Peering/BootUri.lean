import Peering.Node
import Peering.Text.Blank

/-!
# Boot node URIs

A boot node is written `p2p://<id>@<socket address>`. The id ends at the first
`@` and has to be 36 bytes long.
-/

namespace Peering

inductive BootUriError where
  | badIdLength (length : Nat)
  | missingScheme (uri : String)
  | missingAt (uri : String)
  | badAddress (address : String)
deriving DecidableEq, Repr

def BootUriError.message : BootUriError → String
  | .badIdLength length => "Node id must be 36 bytes, got " ++ toString length
  | .missingScheme uri => "Boot node must start with p2p://: " ++ uri
  | .missingAt uri => "Boot node is missing '@': " ++ uri
  | .badAddress address => "Invalid socket address: " ++ address

namespace NodeId

/-- The id made of these bytes, or how many there were. -/
def ofBytes (bytes : Bytes) : Except BootUriError NodeId :=
  match ofBytes? bytes with
  | some id => .ok id
  | none => .error (.badIdLength bytes.length)

end NodeId

namespace BootUri

def scheme : List Char := "p2p://".toList

/-- What follows a given beginning. -/
def afterChars : List Char → List Char → Option (List Char)
  | [], chars => some chars
  | _ :: _, [] => none
  | expected :: others, char :: rest =>
      if char = expected then afterChars others rest else none

/-- The characters before and after the first `@`. -/
def splitAtSign (chars : List Char) : Option (List Char × List Char) :=
  match chars.dropWhile (· != '@') with
  | [] => none
  | _ :: address => some (chars.takeWhile (· != '@'), address)

/-- Reads a boot URI; the messages show it as it was given, blanks included. -/
def parse (uri : String) (now : Nat) : Except BootUriError Node :=
  match afterChars scheme (trimBlanks uri.toList) with
  | none => .error (.missingScheme uri)
  | some rest =>
      match splitAtSign rest with
      | none => .error (.missingAt uri)
      | some (idChars, addressChars) =>
          match NodeId.ofBytes (idChars.flatMap String.utf8EncodeChar) with
          | .error error => .error error
          | .ok id =>
              match SocketAddress.ofChars? addressChars with
              | none => .error (.badAddress (String.ofList addressChars))
              | some address =>
                  .ok { Node.create id address.ip address.port now with fromBootList := true }

/-- The URI under which a node announces itself. -/
def render (id : NodeId) (address : SocketAddress) : String :=
  String.ofList (scheme ++ id.text.toList ++ '@' :: address.chars)

end BootUri

end Peering
