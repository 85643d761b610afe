import Peering.Proofs.Registry.Bans
import Peering.Proofs.Registry.Filing

/-!
# When a peer was heard from

An active peer was last heard from when it became active or, since then, when a frame of
it came. No other event of the registry changes the time that is noted for it; it can
only take the peer out of the active set.
-/

namespace Peering

namespace Registry

variable {registry after : Registry} {peer : IdHash} {now time : Nat}

/-- A peer is active, and this is when it was last heard from. -/
def HeardAt (registry : Registry) (peer : IdHash) (time : Nat) : Prop :=
  ∃ active, (peer, active) ∈ registry.active ∧ active.node.lastSeen = time

theorem isActive_iff_heardAt : registry.isActive peer = true ↔ ∃ time, registry.HeardAt peer time := by
  rw [isActive_iff]
  constructor
  · rintro ⟨active, hmem⟩
    exact ⟨_, active, hmem, rfl⟩
  · rintro ⟨_, active, hmem, _⟩
    exact ⟨active, hmem⟩

/-! ## Silence -/

theorem mem_silent {idle : Nat} : peer ∈ registry.silent now idle ↔
    ∃ time, registry.HeardAt peer time ∧ idle ≤ now - time := by
  rw [silent, Table.mem_keys_select]
  constructor
  · rintro ⟨active, hmem, hidle⟩
    exact ⟨_, ⟨active, hmem, rfl⟩, of_decide_eq_true hidle⟩
  · rintro ⟨_, ⟨active, hmem, rfl⟩, hidle⟩
    exact ⟨active, hmem, decide_eq_true hidle⟩

/-- In a registry that files every peer once, whether it is silent is a matter of one time. -/
theorem Filed.mem_silent_iff (hfiled : Filed registry) (hheard : registry.HeardAt peer time)
    {idle : Nat} : peer ∈ registry.silent now idle ↔ idle ≤ now - time := by
  obtain ⟨active, hmem, rfl⟩ := hheard
  rw [mem_silent]
  constructor
  · rintro ⟨_, ⟨other, hother, rfl⟩, hidle⟩
    rwa [Table.eq_of_mem_of_mem hfiled.active_keys hmem hother]
  · exact fun hidle => ⟨_, ⟨active, hmem, rfl⟩, hidle⟩

theorem Filed.nodup_silent (hfiled : Filed registry) (now idle : Nat) :
    (registry.silent now idle).Nodup :=
  (List.filter_sublist.map _).nodup hfiled.active_keys

/-! ## Events by which a peer is heard from -/

/-- The same event, at another time. -/
def Event.timed (now : Nat) : Event → Event
  | .call move => .call (move.timed now)
  | .cancel conn => .cancel conn

/-- Whether a peer becomes active by an event, or a frame of it is noted. -/
def hears (registry : Registry) (peer : IdHash) : Event → Bool
  | .call (.touch _ other) => other == peer
  | .call (.promoteToActive now conn direction node) =>
      node.idHash == peer && (registry.promoteToActive now conn direction node).isOk
  | _ => false

theorem Shrinks.heardAt (hshrinks : Shrinks registry after) (hheard : after.HeardAt peer time) :
    registry.HeardAt peer time := by
  obtain ⟨active, hmem, htime⟩ := hheard
  exact ⟨active, hshrinks.active.subset hmem, htime⟩

theorem heardAt_of_active_eq (hactive : after.active = registry.active)
    (hheard : after.HeardAt peer time) : registry.HeardAt peer time := by
  rwa [HeardAt, hactive] at hheard

theorem heardAt_addAll {nodes : List Node}
    (hheard : (registry.addAll now nodes).1.HeardAt peer time) : registry.HeardAt peer time := by
  refine heardAt_of_active_eq ?_ hheard
  refine addAll_induction (P := fun other => other.active = registry.active) nodes rfl ?_
  intro before next node hbefore hadd
  obtain ⟨_, _, _, _, _, _, rfl⟩ := addTemp_ok hadd
  exact hbefore

theorem active_activate (registry : Registry) (now : Nat) (direction : Direction) (conn : ConnId)
    (pending : Pending) (node : Node) :
    (registry.activate now direction conn pending node).active =
      registry.active.insert node.idHash
        ⟨{ mergeKnown node pending.node with conn := some conn, since := now, lastSeen := now },
          pending.conn⟩ := by
  rw [← mergeKnown_idHash node pending.node]
  cases direction <;> rfl

/-- Whoever is active after a promotion was promoted, or has been active before. -/
theorem heardAt_promoteToActive {conn : ConnId} {direction : Direction} {node : Node}
    (hpromote : registry.promoteToActive now conn direction node = .ok after)
    (hheard : after.HeardAt peer time) :
    (node.idHash = peer ∧ time = now) ∨ (node.idHash ≠ peer ∧ registry.HeardAt peer time) := by
  obtain ⟨_, _, _, _, pending, middle, _, hyield, rfl⟩ := promoteToActive_ok hpromote
  obtain ⟨active, hmem, rfl⟩ := hheard
  rw [active_activate] at hmem
  rcases Table.mem_insert.mp hmem with ⟨hother, hold⟩ | ⟨hpeer, rfl⟩
  · exact Or.inr ⟨hother.symm, (yieldDial_shrinks hyield).heardAt ⟨active, hold, rfl⟩⟩
  · exact Or.inl ⟨hpeer.symm, rfl⟩

theorem heardAt_updateActive {other : IdHash} {change : Node → Node}
    (hheard : (registry.updateActive other change).HeardAt peer time) :
    (other ≠ peer ∧ registry.HeardAt peer time) ∨
      (other = peer ∧ ∃ node, registry.HeardAt peer node.lastSeen ∧ (change node).lastSeen = time) := by
  obtain ⟨active, hmem, htime⟩ := hheard
  rw [updateActive, Table.mem_modify] at hmem
  rcases hmem with ⟨hother, hold⟩ | ⟨hpeer, known, hold, rfl⟩
  · exact Or.inl ⟨hother.symm, active, hold, htime⟩
  · exact Or.inr ⟨hpeer.symm, known.node, ⟨known, hold, rfl⟩, htime⟩

/-- A change that leaves the time of a node alone leaves it for all peers. -/
theorem heardAt_of_updateActive {other : IdHash} (change : Node → Node)
    (hchange : ∀ node, (change node).lastSeen = node.lastSeen)
    (hheard : (registry.updateActive other change).HeardAt peer time) :
    registry.HeardAt peer time := by
  rcases heardAt_updateActive hheard with ⟨_, hold⟩ | ⟨_, node, hold, rfl⟩
  · exact hold
  · rwa [hchange]

/-- What is noted after an event was noted before, or it is the time of the event. -/
theorem heardAt_occur {event : Event}
    (hheard : (registry.occur (event.timed now)).HeardAt peer time) :
    (registry.hears peer (event.timed now) = true ∧ time = now) ∨
      (registry.hears peer (event.timed now) = false ∧ registry.HeardAt peer time) := by
  cases event with
  | cancel conn =>
      refine Or.inr ⟨rfl, heardAt_of_active_eq ?_ hheard⟩
      show (registry.cancel conn).active = registry.active
      unfold cancel
      split <;> rfl
  | call move =>
    cases move with
    | addTemp _ node =>
        refine Or.inr ⟨rfl, ?_⟩
        revert hheard
        refine unlessRefused_induction (P := fun other => other.HeardAt peer time → _) id ?_
        intro other hadd hheard
        obtain ⟨_, _, _, _, _, _, rfl⟩ := addTemp_ok hadd
        exact hheard
    | addBootNodes _ nodes =>
        let seeded : Registry := { registry with
          seeds := nodes.foldl (fun seeds node =>
            if seeds.contains node.ip then seeds else seeds ++ [node.ip]) registry.seeds
          bootNodes := nodes }
        have hseeded : seeded.HeardAt peer time := heardAt_addAll hheard
        exact Or.inr ⟨rfl, hseeded⟩
    | requeueBootNodes _ => exact Or.inr ⟨rfl, heardAt_addAll hheard⟩
    | takeTemp _ seedsOnly =>
        exact Or.inr ⟨rfl, (takeTemp_shrinks registry now seedsOnly).heardAt hheard⟩
    | promoteToOutbound _ node conn =>
        refine Or.inr ⟨rfl, heardAt_of_active_eq ?_ hheard⟩
        refine settleOffer_induction (P := fun other => other.active = registry.active) ?_
          close_active
        intro other hinsert
        obtain ⟨_, _, _, _, _, rfl⟩ := insertOutbound_ok hinsert
        rfl
    | promoteToInbound _ conn =>
        refine Or.inr ⟨rfl, heardAt_of_active_eq ?_ hheard⟩
        refine settleOffer_induction (P := fun other => other.active = registry.active) ?_
          close_active
        intro other hinsert
        rw [(insertInbound_ok hinsert).2]
    | promoteToActive _ conn direction node =>
        simp only [Event.timed, Move.timed, occur, perform, hears] at hheard ⊢
        cases hpromote : registry.promoteToActive now conn direction node with
        | error error =>
            rw [hpromote] at hheard
            exact Or.inr ⟨Bool.and_false _, hheard⟩
        | ok other =>
            rw [hpromote] at hheard
            rcases heardAt_promoteToActive hpromote hheard with ⟨hpeer, htime⟩ | ⟨hother, hold⟩
            · exact Or.inl ⟨by simp [hpeer, Except.isOk, Except.toBool], htime⟩
            · exact Or.inr ⟨by simp [hother], hold⟩
    | dropActive other => exact Or.inr ⟨rfl, (dropActive_shrinks registry other).heardAt hheard⟩
    | removeConn conn => exact Or.inr ⟨rfl, (removeConn_shrinks registry conn).heardAt hheard⟩
    | ban _ other => exact Or.inr ⟨rfl, hheard⟩
    | evict _ => exact Or.inr ⟨rfl, (evict_shrinks registry now).heardAt hheard⟩
    | closeAll => exact Or.inr ⟨rfl, (closeAll_shrinks registry).heardAt hheard⟩
    | touch _ other =>
        simp only [Event.timed, Move.timed, hears] at hheard ⊢
        rcases heardAt_updateActive hheard with ⟨hother, hold⟩ | ⟨hpeer, _, _, htime⟩
        · exact Or.inr ⟨by simp [hother], hold⟩
        · exact Or.inl ⟨by simp [hpeer], htime.symm⟩
    | updateChainInfo other bestBlock totalDifficulty =>
        exact Or.inr ⟨rfl, heardAt_of_updateActive (fun node =>
          { node with bestBlock := bestBlock, totalDifficulty := totalDifficulty })
          (fun _ => rfl) hheard⟩
    | updateLatency other latency =>
        exact Or.inr ⟨rfl, heardAt_of_updateActive (fun node =>
          { node with latencyMs := some (UInt64.ofNat (latency / millisecond)) })
          (fun _ => rfl) hheard⟩
    | setPort port => exact Or.inr ⟨rfl, hheard⟩

end Registry

end Peering
