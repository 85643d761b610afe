import Peering.Frame
import Peering.Node
import Peering.Payload

/-!
# Gossip

Peers tell each other which nodes they are connected to. A response carries at
most forty entries of
`id[36] | ip | port u16 | revision | best block u64 | total difficulty u128`
after a byte with their number.
-/

namespace Peering

namespace Gossip

/-- Most entries in one response. -/
def maxEntries : Nat := 40

structure Entry where
  id : NodeId
  ip : IpAddress
  port : UInt16
  revision : String
  bestBlock : UInt64
  totalDifficulty : BitVec 128
deriving DecidableEq

namespace Entry

def encode (entry : Entry) : Bytes :=
  entry.id.bytes ++ Payload.putIp entry.ip ++ Payload.putPort entry.port ++
    Payload.putShort (Utf8.encode entry.revision) ++
    bigEndian 8 entry.bestBlock.toNat ++ bigEndian 16 entry.totalDifficulty.toNat

/-- Block height and difficulty stand together and are read together. -/
def chainInfo : Payload.Reader (UInt64 × BitVec 128) := do
  let bytes ← Payload.take 24 "chain info"
  return (UInt64.ofNat (bigEndianValue (bytes.take 8)),
    BitVec.ofNat 128 (bigEndianValue (bytes.drop 8)))

def reader : Payload.Reader Entry := do
  let id ← Payload.nodeId
  let ip ← Payload.ip
  let port ← Payload.word "port"
  let revision ← Payload.short "bin version"
  let (bestBlock, totalDifficulty) ← chainInfo
  return { id, ip, port, revision := Utf8.lossy revision, bestBlock, totalDifficulty }

/-- What an entry says about a node. -/
def ofNode (node : Node) : Entry where
  id := node.id
  ip := node.ip
  port := node.port
  revision := node.revision
  bestBlock := node.bestBlock
  totalDifficulty := node.totalDifficulty

/-- The candidate that an entry describes. -/
def toNode (entry : Entry) (now : Nat) : Node :=
  { Node.create entry.id entry.ip entry.port now with
    revision := entry.revision
    bestBlock := entry.bestBlock
    totalDifficulty := entry.totalDifficulty }

end Entry

/-- The payload that carries the first forty entries. -/
def encode (entries : List Entry) : Bytes :=
  let kept := entries.take maxEntries
  UInt8.ofNat kept.length :: kept.flatMap Entry.encode

def reader : Payload.Reader (List Entry) := do
  let count ← Payload.byte "node count"
  if maxEntries < count.toNat then
    throw (.tooLong "active nodes" count.toNat)
  else
    let entries ← Payload.many Entry.reader count.toNat
    Payload.finish
    return entries

def decode (payload : Bytes) : Except PayloadError (List Entry) :=
  (·.1) <$> reader payload

end Gossip

end Peering
