import Peering.Registry

/-!
# Moves between the sets

Each move checks its conditions in a fixed order, so the first that fails names
the error, and an error changes nothing but the connection that was offered.
-/

namespace Peering

namespace Registry

/-! ## Closing connections -/

/-- Stops a connection's reader and asks for its write half to be shut; once is enough. -/
def close (registry : Registry) (conn : ConnId) : Registry :=
  if registry.isClosed conn then registry
  else { registry with
    closed := registry.closed ++ [conn]
    teardowns := registry.teardowns ++ [conn] }

/-- Stops a connection's reader from outside; the write half stays as it is. -/
def cancel (registry : Registry) (conn : ConnId) : Registry :=
  if registry.isClosed conn then registry
  else { registry with closed := registry.closed ++ [conn] }

def closeMany (registry : Registry) (conns : List ConnId) : Registry :=
  conns.foldl close registry

/-! ## Candidates -/

/-- Queues a candidate. A full queue refuses the new one. -/
def addTemp (registry : Registry) (now : Nat) (node : Node) : Except RegistryError Registry :=
  if registry.isSelf node then .error .isSelf
  else if registry.isBanned now node.idHash then .error .banned
  else if registry.inTemp node.idHash || registry.isActive node.idHash
      || registry.isDialed node.idHash then .error .alreadyKnown
  else if registry.limits.maxTemp ≤ registry.temp.length then .error .full
  else .ok { registry with temp := registry.temp ++ [{ node with since := now, conn := none }] }

/-- Queues every candidate that is not refused, and counts them. -/
def addAll (registry : Registry) (now : Nat) : List Node → Registry × Nat
  | [] => (registry, 0)
  | node :: rest =>
      match registry.addTemp now node with
      | .ok registry =>
          let (registry, count) := registry.addAll now rest
          (registry, count + 1)
      | .error _ => registry.addAll now rest

/-- Remembers the boot nodes, their addresses as seeds, and queues them. -/
def addBootNodes (registry : Registry) (now : Nat) (nodes : List Node) : Registry × Nat :=
  let seeds := nodes.foldl
    (fun seeds node => if seeds.contains node.ip then seeds else seeds ++ [node.ip])
    registry.seeds
  { registry with seeds := seeds, bootNodes := nodes }.addAll now nodes

/-- Queues again the boot nodes that are not connected. -/
def requeueBootNodes (registry : Registry) (now : Nat) : Registry × Nat :=
  registry.addAll now registry.bootNodes

/-- Whether a candidate is to be dialed when its turn comes. -/
def isDialable (registry : Registry) (now : Nat) (seedsOnly : Bool) (node : Node) : Bool :=
  (!seedsOnly || registry.isSeed node.ip) && registry.validate now node

/-- Takes the oldest candidate that is worth dialing; the ones passed over are forgotten. -/
def takeTemp (registry : Registry) (now : Nat) (seedsOnly : Bool) : Option Node × Registry :=
  match registry.temp.dropWhile fun node => !registry.isDialable now seedsOnly node with
  | [] => (none, { registry with temp := [] })
  | node :: rest => (some node, { registry with temp := rest })

/-- The queue without a peer. -/
def withoutTemp (registry : Registry) (peer : IdHash) : List Node :=
  registry.temp.filter (·.idHash ≠ peer)

/-! ## Promotions -/

/-- Tracks a dialed socket. -/
def insertOutbound (registry : Registry) (now : Nat) (node : Node) (conn : ConnId) :
    Except RegistryError Registry :=
  if registry.isSelf node then .error .isSelf
  else if registry.isBanned now node.idHash then .error .banned
  else if registry.isActive node.idHash then .error .alreadyActive
  else if registry.isDialed node.idHash then .error .alreadyConnected
  else if registry.limits.maxActive ≤ registry.active.length + registry.outbound.length then
    .error .full
  else
    let node := { node with conn := some conn, since := now }
    .ok { registry with
      temp := registry.withoutTemp node.idHash
      outbound := registry.outbound.insert conn ⟨⟨conn, now⟩, some node⟩ }

/-- Tracks an accepted socket. -/
def insertInbound (registry : Registry) (now : Nat) (conn : ConnId) :
    Except RegistryError Registry :=
  if registry.limits.maxActive ≤ registry.active.length + registry.inbound.length then
    .error .full
  else
    .ok { registry with inbound := registry.inbound.insert conn ⟨⟨conn, now⟩, none⟩ }

/-- The registry after an offered connection was taken or, on an error, closed. -/
def settleOffer (registry : Registry) (conn : ConnId) :
    Except RegistryError Registry → Registry × Except RegistryError Unit
  | .ok registry => (registry, .ok ())
  | .error error => (registry.close conn, .error error)

/-- Offers a dialed socket; a refused one is closed. -/
def promoteToOutbound (registry : Registry) (now : Nat) (node : Node) (conn : ConnId) :
    Registry × Except RegistryError Unit :=
  registry.settleOffer conn (registry.insertOutbound now node conn)

/-- Offers an accepted socket; a refused one is closed. -/
def promoteToInbound (registry : Registry) (now : Nat) (conn : ConnId) :
    Registry × Except RegistryError Unit :=
  registry.settleOffer conn (registry.insertInbound now conn)

def pendingSet (registry : Registry) : Direction → Table ConnId Pending
  | .inbound => registry.inbound
  | .outbound => registry.outbound

/--
Two nodes may dial each other at the same time. The one with the larger id hash
keeps the socket it accepted and closes the one it dialed; the other refuses the
request.
-/
def yieldDial (registry : Registry) (direction : Direction) (peer : IdHash) :
    Except RegistryError Registry :=
  match direction, registry.dialTo? peer with
  | .inbound, some dialing =>
      if peer < registry.self.idHash then
        .ok ({ registry with outbound := registry.outbound.erase dialing }.close dialing)
      else
        .error .alreadyConnected
  | _, _ => .ok registry

/-- A node with what its pending entry knew about its chain. -/
def mergeKnown (node : Node) : Option Node → Node
  | none => node
  | some known => { node with
      fromBootList := node.fromBootList || known.fromBootList
      bestBlock := max node.bestBlock known.bestBlock
      totalDifficulty :=
        if node.totalDifficulty < known.totalDifficulty then known.totalDifficulty
        else node.totalDifficulty }

/-- Moves a pending entry to the active set under its peer's key. -/
def activate (registry : Registry) (now : Nat) (direction : Direction) (conn : ConnId)
    (pending : Pending) (peer : Node) : Registry :=
  let node := { mergeKnown peer pending.node with
    conn := some conn, since := now, lastSeen := now }
  let registry := match direction with
    | .inbound => { registry with inbound := registry.inbound.erase conn }
    | .outbound => { registry with outbound := registry.outbound.erase conn }
  { registry with
    temp := registry.withoutTemp node.idHash
    active := registry.active.insert node.idHash ⟨node, pending.conn⟩ }

/--
Moves a connection whose handshake is complete to the active set. On an error it
stays where it was, so that the caller can still answer before closing it.
-/
def promoteToActive (registry : Registry) (now : Nat) (conn : ConnId) (direction : Direction)
    (peer : Node) : Except RegistryError Registry :=
  if registry.isSelf peer then .error .isSelf
  else match (registry.pendingSet direction).find? conn with
    | none => .error (.notFound conn)
    | some pending =>
        if registry.isBanned now peer.idHash then .error .banned
        else if registry.isActive peer.idHash then .error .alreadyActive
        else if registry.limits.maxActive ≤ registry.active.length then .error .full
        else do
          let registry ← registry.yieldDial direction peer.idHash
          return registry.activate now direction conn pending peer

/-! ## Removals -/

/-- Removes an active node and closes its socket; tells whether there was one. -/
def dropActive (registry : Registry) (peer : IdHash) : Registry × Bool :=
  match registry.active.find? peer with
  | some active =>
      ({ registry with active := registry.active.erase peer }.close active.conn.id, true)
  | none => (registry, false)

/-- Removes whatever entry owns a socket and closes it; tells whether there was one. -/
def removeConn (registry : Registry) (conn : ConnId) : Registry × Bool :=
  if registry.inbound.has conn then
    ({ registry with inbound := registry.inbound.erase conn }.close conn, true)
  else if registry.outbound.has conn then
    ({ registry with outbound := registry.outbound.erase conn }.close conn, true)
  else match registry.activeOn? conn with
    | some peer => registry.dropActive peer
    | none => (registry, false)

def ban (registry : Registry) (now : Nat) (peer : IdHash) : Registry :=
  { registry with bans := registry.bans.insert peer (now + registry.limits.banDuration) }

end Registry

end Peering
