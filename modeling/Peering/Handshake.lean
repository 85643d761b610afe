import Peering.Frame
import Peering.Payload

/-!
# Handshake

The dialing side sends a request with its identity and the versions its handlers
serve; the accepting side answers with a response.

Request: `id[36] | chain id varint | ip | port u16 | revision | versions (u8 count, u16 each)`.
Response: `accepted u8 | revision`.
-/

namespace Peering

namespace Handshake

/-- Most versions that a request lists. -/
def maxVersions : Nat := 16

inductive Error where
  | malformed (cause : PayloadError)
  | chainMismatch (ours theirs : UInt32)
  | noCommonVersion
  | tooManyVersions (count : Nat)
  | rejected
  | unexpected (what : String)
deriving DecidableEq, Repr

def Error.message : Error → String
  | .malformed cause => "Malformed handshake: " ++ cause.message
  | .chainMismatch ours theirs =>
      "Chain id mismatch: ours " ++ toString ours ++ ", theirs " ++ toString theirs
  | .noCommonVersion => "No common protocol version"
  | .tooManyVersions count => "Too many versions: " ++ toString count
  | .rejected => "Peer rejected the handshake"
  | .unexpected what => "Unexpected " ++ what ++ " while handshaking"

/-- How far the handshake of one socket has come. -/
inductive Phase where
  /-- An accepted socket that waits for the request. -/
  | awaitingRequest
  /-- A dialed socket that waits for the response. -/
  | awaitingResponse
  /-- The peer passed the checks and is not active yet. -/
  | validated
  | active
  /-- The socket is about to be closed. -/
  | rejected
deriving DecidableEq, Repr

/-- Where the handshake of a new socket starts. -/
def Phase.initial (outbound : Bool) : Phase :=
  if outbound then .awaitingResponse else .awaitingRequest

def Phase.isActive (phase : Phase) : Bool :=
  phase == .active

/-- A reader of handshake fields; a field that cannot be read makes the payload malformed. -/
abbrev Reader (α : Type) := StateT Bytes (Except Error) α

/-- A payload field inside a handshake. -/
def field {α : Type} (reader : Payload.Reader α) : Reader α := fun bytes =>
  (reader bytes).mapError .malformed

structure Request where
  id : NodeId
  chainId : UInt32
  ip : IpAddress
  port : UInt16
  revision : Bytes
  versions : List UInt16
deriving DecidableEq

namespace Request

/-- The payload of a request; a long revision and a long list of versions are cut. -/
def encode (request : Request) : Bytes :=
  let versions := request.versions.take maxVersions
  request.id.bytes ++ Payload.putVarint request.chainId.toUInt64 ++ Payload.putIp request.ip ++
    Payload.putPort request.port ++ Payload.putShort request.revision ++
    UInt8.ofNat versions.length :: versions.flatMap fun version => bigEndian 2 version.toNat

/-- A chain id has 32 bits, though its field could hold more. -/
def readChainId : Reader UInt32 := do
  let value ← field Payload.varint
  if value.toNat < UInt32.size then
    return value.toUInt32
  else
    throw (.malformed .varintOverflow)

def readVersions : Reader (List UInt16) := do
  let count ← field (Payload.byte "version count")
  if maxVersions < count.toNat then
    throw (.tooManyVersions count.toNat)
  else
    field (Payload.many (Payload.word "version") count.toNat)

def reader : Reader Request := do
  let id ← field Payload.nodeId
  let chainId ← readChainId
  let ip ← field Payload.ip
  let port ← field (Payload.word "port")
  let revision ← field (Payload.short "revision")
  let versions ← readVersions
  field Payload.finish
  return { id, chainId, ip, port, revision, versions }

def decode (payload : Bytes) : Except Error Request :=
  (·.1) <$> reader payload

def toFrame (request : Request) : Frame :=
  .net NetAction.handshakeRequest request.encode

/--
Checks a request against our chain and the versions our handlers serve. A peer
without handlers is of use only for gossip, and then only if we have none either.
-/
def check (request : Request) (chainId : UInt32) (supported : List UInt16) : Except Error Unit :=
  if request.chainId ≠ chainId then .error (.chainMismatch chainId request.chainId)
  else if supported.isEmpty && request.versions.isEmpty then .ok ()
  else if request.versions.any (supported.contains ·) then .ok ()
  else .error .noCommonVersion

end Request

structure Response where
  accepted : Bool
  revision : Bytes
deriving DecidableEq

namespace Response

def encode (response : Response) : Bytes :=
  (if response.accepted then 1 else 0) :: Payload.putShort response.revision

def readFlag : Reader Bool := do
  let flag ← field (Payload.byte "accepted")
  if flag = 0 then return false
  else if flag = 1 then return true
  else throw (.unexpected "accept flag")

def reader : Reader Response := do
  let accepted ← readFlag
  let revision ← field (Payload.short "revision")
  field Payload.finish
  return { accepted, revision }

def decode (payload : Bytes) : Except Error Response :=
  (·.1) <$> reader payload

def toFrame (response : Response) : Frame :=
  .net NetAction.handshakeResponse response.encode

def revisionText (response : Response) : String :=
  Utf8.lossy response.revision

end Response

end Handshake

end Peering
