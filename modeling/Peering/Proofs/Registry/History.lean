import Peering.Proofs.Registry.Moves

/-!
# Histories of the registry

Whatever a program does with a registry is a sequence of moves. Every move takes
the registry in one step; one that is refused leaves the sets as they are.
-/

namespace Peering

namespace Registry

/-- One call on a registry, with the clock at the time of the call. -/
inductive Move where
  | addTemp (now : Nat) (node : Node)
  | addBootNodes (now : Nat) (nodes : List Node)
  | requeueBootNodes (now : Nat)
  | takeTemp (now : Nat) (seedsOnly : Bool)
  | promoteToOutbound (now : Nat) (node : Node) (conn : ConnId)
  | promoteToInbound (now : Nat) (conn : ConnId)
  | promoteToActive (now : Nat) (conn : ConnId) (direction : Direction) (peer : Node)
  | dropActive (peer : IdHash)
  | removeConn (conn : ConnId)
  | ban (now : Nat) (peer : IdHash)
  | evict (now : Nat)
  | closeAll
  | touch (now : Nat) (peer : IdHash)
  | updateChainInfo (peer : IdHash) (bestBlock : UInt64) (totalDifficulty : BitVec 128)
  | updateLatency (peer : IdHash) (latency : Nat)
  | setPort (port : UInt16)

/-- What an operation leaves behind; a refusal leaves the registry that it got. -/
def unlessRefused (registry : Registry) : Except RegistryError Registry → Registry
  | .ok after => after
  | .error _ => registry

def perform (registry : Registry) : Move → Registry
  | .addTemp now node => registry.unlessRefused (registry.addTemp now node)
  | .addBootNodes now nodes => (registry.addBootNodes now nodes).1
  | .requeueBootNodes now => (registry.requeueBootNodes now).1
  | .takeTemp now seedsOnly => (registry.takeTemp now seedsOnly).2
  | .promoteToOutbound now node conn => (registry.promoteToOutbound now node conn).1
  | .promoteToInbound now conn => (registry.promoteToInbound now conn).1
  | .promoteToActive now conn direction peer =>
      registry.unlessRefused (registry.promoteToActive now conn direction peer)
  | .dropActive peer => (registry.dropActive peer).1
  | .removeConn conn => (registry.removeConn conn).1
  | .ban now peer => registry.ban now peer
  | .evict now => (registry.evict now).1
  | .closeAll => registry.closeAll.1
  | .touch now peer => registry.touch now peer
  | .updateChainInfo peer bestBlock totalDifficulty =>
      registry.updateChainInfo peer bestBlock totalDifficulty
  | .updateLatency peer latency => registry.updateLatency peer latency
  | .setPort port => registry.setPort port

/-- The connection that a move offers to the registry. -/
def Move.offer? : Move → Option ConnId
  | .promoteToOutbound _ _ conn => some conn
  | .promoteToInbound _ conn => some conn
  | _ => none

/-- The registry after a history. -/
def run (registry : Registry) (moves : List Move) : Registry :=
  moves.foldl perform registry

/--
Whether a promotion names the peer that was dialed on its connection. A session
keeps the node that it dialed, and promotes no other.
-/
def namesDialed (registry : Registry) : Move → Bool
  | .promoteToActive _ conn .outbound peer =>
      (registry.outbound.find? conn).all (·.isWith peer.idHash)
  | _ => true

/-- A history in which every promotion of a dialed connection names the peer that was dialed. -/
def allNameDialed : Registry → List Move → Bool
  | _, [] => true
  | registry, move :: rest =>
      registry.namesDialed move && (registry.perform move).allNameDialed rest

theorem unlessRefused_induction {P : Registry → Prop} {registry : Registry}
    {result : Except RegistryError Registry} (hstart : P registry)
    (hok : ∀ after, result = .ok after → P after) : P (registry.unlessRefused result) := by
  cases result with
  | ok after => exact hok after rfl
  | error error => exact hstart

/-- What every move keeps, a history keeps. -/
theorem run_induction {P : Registry → Prop} {registry : Registry} (moves : List Move)
    (hstart : P registry) (hperform : ∀ registry move, P registry → P (registry.perform move)) :
    P (registry.run moves) := by
  induction moves generalizing registry with
  | nil => exact hstart
  | cons move rest ih => exact ih (hperform registry move hstart)

/-- The same for what is kept as long as a promotion names the peer that was dialed. -/
theorem run_preserves {P : Registry → Prop}
    (hperform : ∀ registry move, P registry → registry.namesDialed move = true →
      P (registry.perform move))
    (moves : List Move) {registry : Registry} (hstart : P registry)
    (hnames : registry.allNameDialed moves = true) : P (registry.run moves) := by
  induction moves generalizing registry with
  | nil => exact hstart
  | cons move rest ih =>
      obtain ⟨hmove, hrest⟩ := Bool.and_eq_true_iff.mp hnames
      exact ih (hperform registry move hstart hmove) hrest

/-! ## Two nodes that dial each other -/

/-- An id that repeats one byte. -/
def repeatedId (byte : UInt8) : NodeId :=
  ⟨List.replicate 36 byte, List.length_replicate⟩

def repeatedNode (byte : UInt8) : Node :=
  Node.create (repeatedId byte) (.v4 0x0a000002) 30303 0

def crossingStart : Registry :=
  Registry.create (Identity.create (repeatedId 0x62) (.v4 0x0a000001) 30303) ⟨8, 8, 60, 60, 60⟩

/-- A dial yields to the request of the same peer; a dial to another peer is accepted. -/
def crossing : List Move :=
  [.addTemp 0 (repeatedNode 0x61), .promoteToOutbound 0 (repeatedNode 0x61) 1,
    .promoteToInbound 0 2, .promoteToActive 1 2 .inbound (repeatedNode 0x61),
    .promoteToOutbound 2 (repeatedNode 0x63) 3,
    .promoteToActive 3 3 .outbound (repeatedNode 0x63)]

end Registry

end Peering
