import Peering.Proofs.Registry.Filing

/-!
# Peers in two sets

A promotion of an accepted connection looks for a dial to the same peer, and one of
the two yields. The promotion of a dialed connection does not look: a caller that
names another peer than the one that was dialed there, while that other peer is
being dialed too, has it in two sets afterwards.

The main statement says that nothing else does: every peer that a promotion makes
active is in the active set only, unless its promotion overlooks a dial; and no
other call takes a peer from one set into two.
-/

namespace Peering

namespace Registry

variable {registry : Registry} {conn : ConnId} {direction : Direction} {peer : IdHash}

/-- A call overlooks a dial if it is a promotion that succeeds and leaves the dial. -/
theorem overlooks_iff {move : Move} : registry.overlooks peer move = true ↔
    ∃ now conn direction node after, move = .promoteToActive now conn direction node ∧
      registry.promoteToActive now conn direction node = .ok after ∧ node.idHash = peer ∧
      registry.leavesDial conn direction peer = true := by
  constructor
  · intro hoverlooks
    cases move with
    | promoteToActive now conn direction node =>
        simp only [overlooks, Bool.and_eq_true, beq_iff_eq] at hoverlooks
        obtain ⟨⟨hok, hpeer⟩, hleaves⟩ := hoverlooks
        cases hpromote : registry.promoteToActive now conn direction node with
        | error error =>
            rw [hpromote] at hok
            cases hok
        | ok after => exact ⟨now, conn, direction, node, after, rfl, hpromote, hpeer, hleaves⟩
    | _ => cases hoverlooks
  · rintro ⟨now, conn, direction, node, after, rfl, hpromote, rfl, hleaves⟩
    simp [overlooks, hpromote, hleaves, Except.isOk, Except.toBool]

/--
In every history, whichever peers the callers name: a peer that has just become
active is in the active set and in no other, unless it was promoted on a dialed
connection while it was being dialed on another one; and a peer that is in one set
at most gets into two by just such a promotion, and by nothing else that happens.
-/
theorem live_membership_promoted (self : Identity) (limits : Limits) (events : List Event) :
    let registry := (Registry.create self limits).live events
    (∀ now conn direction node after,
      registry.promoteToActive now conn direction node = .ok after →
      (after.membership node.idHash =
        if registry.leavesDial conn direction node.idHash then [.outbound, .active]
        else [.active])) ∧
    (∀ event peer, (registry.membership peer).length ≤ 1 →
      (1 < ((registry.occur event).membership peer).length ↔
        ∃ now conn direction node after, event = .call (.promoteToActive now conn direction node) ∧
          registry.promoteToActive now conn direction node = .ok after ∧ node.idHash = peer ∧
          registry.leavesDial conn direction peer = true)) := by
  intro registry
  have hfiled : Filed registry := filed_live self limits events
  constructor
  · intro now conn direction node after hpromote
    have hactive : after.isActive node.idHash = true := by
      rw [isActive_promoteToActive hpromote]
      simp
    rw [(hfiled.promoteToActive hpromote).membership_of_active hactive,
      hfiled.isDialed_promoteToActive hpromote]
  · intro event peer hone
    have hfree : registry.clashes peer = false := by
      rw [← Bool.not_eq_true, ← hfiled.one_lt_length_membership]
      exact Nat.not_lt.mpr hone
    cases event with
    | call move =>
        rw [occur, (hfiled.perform move).one_lt_length_membership, hfiled.clashes_perform move hfree,
          overlooks_iff]
        simp only [Event.call.injEq]
    | cancel conn =>
        have hsame : (registry.cancel conn).clashes peer = registry.clashes peer := by
          unfold cancel
          split <;> rfl
        rw [occur, (hfiled.cancel conn).one_lt_length_membership, hsame, hfree]
        simp

/-- Two dials, to different peers. -/
def dialsOfTwo : List Event :=
  [.call (.promoteToOutbound 0 (repeatedNode 0x61) 1),
    .call (.promoteToOutbound 0 (repeatedNode 0x63) 2)]

/-- The first connection is promoted for the peer that is dialed on it. -/
theorem live_membership_promoted_of_dialed :
    let registry := crossingStart.live dialsOfTwo
    let node := repeatedNode 0x61
    ∃ after, registry.promoteToActive 1 1 .outbound node = .ok after ∧
      after.membership node.idHash = [.active] := by
  intro registry node
  have hok : (registry.promoteToActive 1 1 .outbound node).isOk = true := by decide +kernel
  have hleaves : registry.leavesDial 1 .outbound node.idHash = false := by decide +kernel
  cases hpromote : registry.promoteToActive 1 1 .outbound node with
  | error error =>
      rw [hpromote] at hok
      cases hok
  | ok after =>
      have hmembership : after.membership node.idHash =
          if registry.leavesDial 1 .outbound node.idHash then [.outbound, .active] else [.active] :=
        (live_membership_promoted _ _ dialsOfTwo).1 1 1 .outbound node after hpromote
      rw [hleaves] at hmembership
      exact ⟨after, rfl, hmembership⟩

/-- The first connection is promoted for the peer that is dialed on the second one. -/
theorem promoteToActive_overlooks_dial :
    let node := repeatedNode 0x63
    ((crossingStart.live dialsOfTwo).promoteToActive 1 1 .outbound node).toOption.map
      (·.membership node.idHash) = some [.outbound, .active] := by
  decide +kernel

end Registry

end Peering
