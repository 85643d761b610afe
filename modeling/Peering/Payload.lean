import Peering.Address
import Peering.NodeId

/-!
# Payload fields

Writers and readers of the fields that handshake and gossip payloads are made
of. A reader takes its field off the front of the bytes and leaves the rest; it
names the field at which the bytes ran out.
-/

namespace Peering

inductive PayloadError where
  | truncated (field : String)
  | badIpLength (length : Nat)
  | varintOverflow
  | tooLong (field : String) (length : Nat)
  | trailing (count : Nat)
deriving DecidableEq, Repr

def PayloadError.message : PayloadError → String
  | .truncated field => "Payload truncated while reading " ++ field
  | .badIpLength length => "Invalid IP length " ++ toString length
  | .varintOverflow => "Varint overflow"
  | .tooLong field length => field ++ " too long: " ++ toString length
  | .trailing count => "Trailing bytes after payload: " ++ toString count

namespace Payload

/-- Longest revision text that handshakes and gossip carry, in bytes. -/
def maxRevision : Nat := 64

/-- A reader of one field. -/
abbrev Reader (α : Type) := StateT Bytes (Except PayloadError) α

/-! ## Fixed-width fields -/

/-- The next `count` bytes. -/
def take (count : Nat) (field : String) : Reader Bytes := fun bytes =>
  if bytes.length < count then .error (.truncated field)
  else .ok (bytes.take count, bytes.drop count)

/-- A big-endian number of `width` bytes. -/
def number (width : Nat) (field : String) : Reader Nat := do
  return bigEndianValue (← take width field)

def byte (field : String) : Reader UInt8 := do
  return UInt8.ofNat (← number 1 field)

def word (field : String) : Reader UInt16 := do
  return UInt16.ofNat (← number 2 field)

/-- Succeeds only when nothing is left. -/
def finish : Reader Unit := fun bytes =>
  if bytes.isEmpty then .ok ((), bytes) else .error (.trailing bytes.length)

/-! ## Varints: seven bits a byte, lowest first -/

/-- A number in at most `room` bytes. -/
def varintBytes : Nat → Nat → Bytes
  | 0, _ => []
  | room + 1, n =>
      if n < 0x80 then [UInt8.ofNat n]
      else UInt8.ofNat (n % 0x80 + 0x80) :: varintBytes room (n / 0x80)

/-- Ten bytes hold every 64-bit number. -/
def varintRoom : Nat := 10

def putVarint (value : UInt64) : Bytes :=
  varintBytes varintRoom value.toNat

/--
Reads at most `room` more bytes, the first of them shifted left by `shift`. Bits
above the 64th are lost.
-/
def varintFrom : Nat → Nat → Nat → Reader UInt64
  | 0, _, _, _ => .error .varintOverflow
  | _ + 1, _, _, [] => .error (.truncated "varint")
  | room + 1, shift, value, next :: rest =>
      let value := value + (next.toNat % 0x80) <<< shift
      if next.toNat < 0x80 then .ok (UInt64.ofNat value, rest)
      else varintFrom room (shift + 7) value rest

def varint : Reader UInt64 :=
  varintFrom varintRoom 0 0

/-! ## Addresses -/

/-- The octets of an address, after a byte that counts them. -/
def putIp (ip : IpAddress) : Bytes :=
  UInt8.ofNat ip.octets.length :: ip.octets

def ip : Reader IpAddress := do
  let length ← byte "ip length"
  if length = 4 then
    return .v4 (BitVec.ofNat 32 (← number 4 "ipv4"))
  else if length = 16 then
    return .v6 (BitVec.ofNat 128 (← number 16 "ipv6"))
  else
    throw (.badIpLength length.toNat)

def putPort (port : UInt16) : Bytes :=
  bigEndian 2 port.toNat

/-! ## Short byte strings -/

/-- A length byte and at most 64 bytes; what is longer is cut. -/
def putShort (bytes : Bytes) : Bytes :=
  let kept := bytes.take maxRevision
  UInt8.ofNat kept.length :: kept

def short (field : String) : Reader Bytes := do
  let length ← byte field
  if maxRevision < length.toNat then
    throw (.tooLong field length.toNat)
  else
    take length.toNat field

/-! ## Node ids -/

def nodeId : Reader NodeId := fun bytes =>
  match NodeId.ofBytes? (bytes.take NodeId.byteLength) with
  | some id => .ok (id, bytes.drop NodeId.byteLength)
  | none => .error (.truncated "node id")

/-! ## Repetition -/

/-- The same reader so many times in a row. -/
def many {α : Type} (reader : Reader α) : Nat → Reader (List α)
  | 0 => return []
  | count + 1 => do
      let first ← reader
      let others ← many reader count
      return first :: others

end Payload

end Peering
