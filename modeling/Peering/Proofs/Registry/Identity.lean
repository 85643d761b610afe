import Peering.Proofs.Registry.History

/-!
# The identity of a node

A registry is made for one node. All of its identity that a move can change is the port.
-/

namespace Peering

namespace Registry

variable {registry after : Registry} {now : Nat} {conn : ConnId} {direction : Direction} {node : Node}

theorem closeMany_self (registry : Registry) (conns : List ConnId) :
    (registry.closeMany conns).self = registry.self :=
  closeMany_induction (P := fun other => other.self = registry.self) conns rfl
    fun _ _ h => close_self.trans h

theorem cancel_self (registry : Registry) (conn : ConnId) :
    (registry.cancel conn).self = registry.self := by
  unfold cancel
  split <;> rfl

theorem addAll_self (registry : Registry) (now : Nat) (nodes : List Node) :
    (registry.addAll now nodes).1.self = registry.self :=
  addAll_induction (P := fun other => other.self = registry.self) nodes rfl
    fun _ _ _ hsame hadd => by
      obtain ⟨_, _, _, _, _, _, rfl⟩ := addTemp_ok hadd
      exact hsame

theorem dropActive_self (registry : Registry) (peer : IdHash) :
    (registry.dropActive peer).1.self = registry.self := by
  unfold dropActive
  split
  · exact close_self
  · rfl

theorem removeConn_self (registry : Registry) (conn : ConnId) :
    (registry.removeConn conn).1.self = registry.self := by
  unfold removeConn
  split
  · exact close_self
  split
  · exact close_self
  split
  · exact dropActive_self registry _
  · rfl

theorem promoteToInbound_self (registry : Registry) (now : Nat) (conn : ConnId) :
    (registry.promoteToInbound now conn).1.self = registry.self :=
  settleOffer_induction (P := fun other => other.self = registry.self)
    (fun _ hinsert => (insertInbound_ok hinsert).2 ▸ rfl) close_self

theorem promoteToOutbound_self (registry : Registry) (now : Nat) (node : Node) (conn : ConnId) :
    (registry.promoteToOutbound now node conn).1.self = registry.self :=
  settleOffer_induction (P := fun other => other.self = registry.self)
    (fun _ hinsert => by
      obtain ⟨_, _, _, _, _, rfl⟩ := insertOutbound_ok hinsert
      rfl) close_self

theorem promoteToActive_self (hpromote : registry.promoteToActive now conn direction node = .ok after) :
    after.self = registry.self := by
  obtain ⟨_, _, _, _, pending, middle, _, hyield, rfl⟩ := promoteToActive_ok hpromote
  have hmiddle : middle.self = registry.self := by
    rcases yieldDial_ok hyield with ⟨_, rfl⟩ | ⟨_, _, rfl⟩ | ⟨_, _, _, _, rfl⟩
    · rfl
    · rfl
    · exact close_self
  cases direction <;> exact hmiddle

theorem takeTemp_self (registry : Registry) (now : Nat) (seedsOnly : Bool) :
    (registry.takeTemp now seedsOnly).2.self = registry.self := by
  unfold takeTemp
  split <;> rfl

/-- Whether a move records the port that was bound. -/
def Move.setsPort : Move → Bool
  | .setPort _ => true
  | _ => false

/-- Nothing but the recording of a port changes who we are. -/
theorem perform_self (registry : Registry) {move : Move} (hport : move.setsPort = false) :
    (registry.perform move).self = registry.self := by
  cases move with
  | addTemp now node =>
      refine unlessRefused_induction (P := fun other => other.self = registry.self) rfl
        fun _ hadd => ?_
      obtain ⟨_, _, _, _, _, _, rfl⟩ := addTemp_ok hadd
      rfl
  | addBootNodes now nodes => exact addAll_self _ now nodes
  | requeueBootNodes now => exact addAll_self registry now _
  | takeTemp now seedsOnly => exact takeTemp_self registry now seedsOnly
  | promoteToOutbound now node conn => exact promoteToOutbound_self registry now node conn
  | promoteToInbound now conn => exact promoteToInbound_self registry now conn
  | promoteToActive now conn direction peer =>
      exact unlessRefused_induction (P := fun other => other.self = registry.self) rfl
        fun _ hpromote => promoteToActive_self hpromote
  | dropActive peer => exact dropActive_self registry peer
  | removeConn conn => exact removeConn_self registry conn
  | evict now => exact closeMany_self _ _
  | closeAll => exact closeMany_self _ _
  | setPort port => cases hport
  | _ => rfl

/-- A node keeps its id, whatever is done to its registry. -/
theorem perform_id (registry : Registry) (move : Move) :
    (registry.perform move).self.id = registry.self.id := by
  cases hport : move.setsPort with
  | false => exact congrArg Identity.id (perform_self registry hport)
  | true =>
      cases move with
      | setPort port => rfl
      | _ => cases hport

end Registry

end Peering
