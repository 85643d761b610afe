import Peering.Registry.Moves

/-!
# Upkeep of the registry

Facts learned about active nodes, and the removal of what has expired.
-/

namespace Peering

namespace Registry

/-! ## Facts about active nodes -/

def updateActive (registry : Registry) (peer : IdHash) (change : Node → Node) : Registry :=
  { registry with
    active := registry.active.modify peer fun active =>
      { active with node := change active.node } }

/-- Notes that a peer was heard from. -/
def touch (registry : Registry) (now : Nat) (peer : IdHash) : Registry :=
  registry.updateActive peer fun node => { node with lastSeen := now }

def updateChainInfo (registry : Registry) (peer : IdHash) (bestBlock : UInt64)
    (totalDifficulty : BitVec 128) : Registry :=
  registry.updateActive peer fun node =>
    { node with bestBlock := bestBlock, totalDifficulty := totalDifficulty }

/-- Notes a measured round trip, in whole milliseconds. -/
def updateLatency (registry : Registry) (peer : IdHash) (latency : Nat) : Registry :=
  registry.updateActive peer fun node =>
    { node with latencyMs := some (UInt64.ofNat (latency / millisecond)) }

/-! ## Expiry -/

/-- What one pass removed. -/
structure Eviction where
  temp : Nat
  handshakes : Nat
  bans : Nat
deriving DecidableEq, Repr

/-- A candidate is kept while it is younger than the time to live. -/
def isFresh (registry : Registry) (now : Nat) (node : Node) : Bool :=
  now - node.since < registry.limits.tempTtl

/-- A handshake is given up once it is as old as the timeout. -/
def isOverdue (registry : Registry) (now : Nat) (pending : Pending) : Bool :=
  registry.limits.handshakeTimeout ≤ now - pending.conn.openedAt

/-- Drops old candidates, overdue handshakes (closing their sockets) and bans that have ended. -/
def evict (registry : Registry) (now : Nat) : Registry × Eviction :=
  let temp := registry.temp.filter (registry.isFresh now)
  let overdue := (registry.inbound.select (registry.isOverdue now)).keys
    ++ (registry.outbound.select (registry.isOverdue now)).keys
  let bans := registry.bans.select (now < ·)
  let kept := { registry with
    temp := temp
    inbound := registry.inbound.select fun pending => !registry.isOverdue now pending
    outbound := registry.outbound.select fun pending => !registry.isOverdue now pending
    bans := bans }
  (kept.closeMany overdue,
    { temp := registry.temp.length - temp.length
      handshakes := overdue.length
      bans := registry.bans.length - bans.length })

/-- Closes every socket and empties all sets but the bans; tells how many sockets there were. -/
def closeAll (registry : Registry) : Registry × Nat :=
  let conns := registry.inbound.keys ++ registry.outbound.keys
    ++ registry.active.values.map (·.conn.id)
  let emptied := { registry with temp := [], inbound := [], outbound := [], active := [] }
  (emptied.closeMany conns, conns.length)

end Registry

end Peering
