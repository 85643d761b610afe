import Peering.Proofs.Registry.History

/-!
# How large the sets become

No check looks at the total of the connections. A dial is admitted by the active
and the dialed ones, an accepted connection by the active and the accepted ones,
and a promotion by the active ones alone, so neither of the two sums stays within
the limit. What stays is the size of each set, and a total of twice the limit: an
admission leaves one sum within the limit and the third set was so before, and a
promotion moves one entry.
-/

namespace Peering

namespace Registry

/-- The sets are no larger than the limits allow. -/
structure Fits (limits : Limits) (registry : Registry) : Prop where
  limits_eq : registry.limits = limits
  temp : registry.temp.length ≤ limits.maxTemp
  active : registry.active.length ≤ limits.maxActive
  inbound : registry.inbound.length ≤ limits.maxActive
  outbound : registry.outbound.length ≤ limits.maxActive
  total : registry.active.length + registry.inbound.length + registry.outbound.length ≤
    2 * limits.maxActive

theorem fits_create (self : Identity) (limits : Limits) :
    Fits limits (Registry.create self limits) := by
  constructor <;> simp [create]

variable {limits : Limits} {registry after : Registry} {now : Nat} {conn : ConnId}

/-! ## Limits -/

theorem closeMany_limits (registry : Registry) (conns : List ConnId) :
    (registry.closeMany conns).limits = registry.limits :=
  closeMany_induction (P := fun other => other.limits = registry.limits) conns rfl
    fun _ _ h => close_limits.trans h

theorem dropActive_limits (registry : Registry) (peer : IdHash) :
    (registry.dropActive peer).1.limits = registry.limits := by
  unfold dropActive
  split
  · exact close_limits
  · rfl

theorem removeConn_limits (registry : Registry) (conn : ConnId) :
    (registry.removeConn conn).1.limits = registry.limits := by
  unfold removeConn
  split
  · exact close_limits
  split
  · exact close_limits
  split
  · exact dropActive_limits registry _
  · rfl

theorem yieldDial_limits {direction : Direction} {peer : IdHash}
    (hyield : registry.yieldDial direction peer = .ok after) : after.limits = registry.limits := by
  rcases yieldDial_ok hyield with ⟨_, rfl⟩ | ⟨_, _, rfl⟩ | ⟨_, _, _, _, rfl⟩
  · rfl
  · rfl
  · exact close_limits

/-! ## Fewer entries -/

theorem Fits.shrink (hfits : Fits limits registry) (hshrinks : Shrinks registry after)
    (hlimits : after.limits = registry.limits) : Fits limits after := by
  have htemp := hshrinks.temp.length_le
  have hactive := hshrinks.active.length_le
  have hinbound := hshrinks.inbound.length_le
  have houtbound := hshrinks.outbound.length_le
  have htotal := hfits.total
  refine ⟨hlimits.trans hfits.limits_eq, Nat.le_trans htemp hfits.temp,
    Nat.le_trans hactive hfits.active, Nat.le_trans hinbound hfits.inbound,
    Nat.le_trans houtbound hfits.outbound, ?_⟩
  omega

theorem Fits.close (hfits : Fits limits registry) (conn : ConnId) :
    Fits limits (registry.close conn) :=
  hfits.shrink ((Shrinks.refl registry).close conn) close_limits

/-! ## One entry more -/

theorem Fits.addTemp {node : Node} (hfits : Fits limits registry)
    (hadd : registry.addTemp now node = .ok after) : Fits limits after := by
  obtain ⟨_, _, hroom, _, _, _, rfl⟩ := addTemp_ok hadd
  rw [hfits.limits_eq] at hroom
  refine { hfits with temp := ?_ }
  rw [List.length_append, List.length_singleton]
  exact hroom

theorem Fits.addAll (hfits : Fits limits registry) (nodes : List Node) :
    Fits limits (registry.addAll now nodes).1 :=
  addAll_induction nodes hfits fun _ _ _ h hadd => h.addTemp hadd

/-- A dial is admitted by the active and the dialed ones; the accepted ones fit by themselves. -/
theorem Fits.insertOutbound {node : Node} (hfits : Fits limits registry)
    (hinsert : registry.insertOutbound now node conn = .ok after) : Fits limits after := by
  obtain ⟨_, _, hroom, _, _, rfl⟩ := insertOutbound_ok hinsert
  rw [hfits.limits_eq] at hroom
  have htemp : (registry.withoutTemp node.idHash).length ≤ registry.temp.length :=
    List.length_filter_le _ _
  have hone := Table.length_insert_le registry.outbound conn
    ⟨⟨conn, now⟩, some { node with conn := some conn, since := now }⟩
  have hinbound := hfits.inbound
  refine { hfits with temp := Nat.le_trans htemp hfits.temp, outbound := ?_, total := ?_ }
  · dsimp only
    omega
  · dsimp only
    omega

theorem Fits.insertInbound (hfits : Fits limits registry)
    (hinsert : registry.insertInbound now conn = .ok after) : Fits limits after := by
  obtain ⟨hroom, rfl⟩ := insertInbound_ok hinsert
  rw [hfits.limits_eq] at hroom
  have hone := Table.length_insert_le registry.inbound conn ⟨⟨conn, now⟩, none⟩
  have houtbound := hfits.outbound
  refine { hfits with inbound := ?_, total := ?_ }
  · dsimp only
    omega
  · dsimp only
    omega

/-! ## Promotion to the active set -/

/-- An entry that becomes active leaves the set of pending ones that it was in. -/
theorem Fits.activate {direction : Direction} {pending : Pending} {peer : Node}
    (hfits : Fits limits registry) (hroom : registry.active.length < limits.maxActive)
    (hentry : (conn, pending) ∈ registry.pendingSet direction) :
    Fits limits (registry.activate now direction conn pending peer) := by
  have hinbound := hfits.inbound
  have houtbound := hfits.outbound
  have htotal := hfits.total
  cases direction with
  | inbound =>
      have htemp : (registry.activate now .inbound conn pending peer).temp.length ≤
          registry.temp.length := List.length_filter_le _ _
      have hone : (registry.activate now .inbound conn pending peer).active.length ≤
          registry.active.length + 1 := Table.length_insert_le _ _ _
      have hgone : (registry.activate now .inbound conn pending peer).inbound.length <
          registry.inbound.length := Table.length_erase_lt hentry
      have hsame : (registry.activate now .inbound conn pending peer).outbound.length =
          registry.outbound.length := rfl
      refine ⟨hfits.limits_eq, Nat.le_trans htemp hfits.temp, ?_, ?_, ?_, ?_⟩ <;> omega
  | outbound =>
      have htemp : (registry.activate now .outbound conn pending peer).temp.length ≤
          registry.temp.length := List.length_filter_le _ _
      have hone : (registry.activate now .outbound conn pending peer).active.length ≤
          registry.active.length + 1 := Table.length_insert_le _ _ _
      have hgone : (registry.activate now .outbound conn pending peer).outbound.length <
          registry.outbound.length := Table.length_erase_lt hentry
      have hsame : (registry.activate now .outbound conn pending peer).inbound.length =
          registry.inbound.length := rfl
      refine ⟨hfits.limits_eq, Nat.le_trans htemp hfits.temp, ?_, ?_, ?_, ?_⟩ <;> omega

theorem Fits.promoteToActive {direction : Direction} {peer : Node} (hfits : Fits limits registry)
    (hpromote : registry.promoteToActive now conn direction peer = .ok after) :
    Fits limits after := by
  obtain ⟨_, _, hroom, _, pending, middle, hpending, hyield, rfl⟩ := promoteToActive_ok hpromote
  have hshrinks := yieldDial_shrinks hyield
  have hmiddle : Fits limits middle := hfits.shrink hshrinks (yieldDial_limits hyield)
  rw [hfits.limits_eq] at hroom
  rw [← pendingSet_of_yieldDial hyield] at hpending
  exact hmiddle.activate (Nat.lt_of_le_of_lt hshrinks.active.length_le hroom)
    (Table.mem_of_find? hpending)

/-! ## Histories -/

theorem Fits.updateActive (hfits : Fits limits registry) (peer : IdHash) (change : Node → Node) :
    Fits limits (registry.updateActive peer change) := by
  have hlength : (registry.updateActive peer change).active.length = registry.active.length :=
    List.length_map _
  refine { hfits with active := ?_, total := ?_ }
  · rw [hlength]
    exact hfits.active
  · rw [hlength]
    exact hfits.total

theorem Fits.perform (hfits : Fits limits registry) (move : Move) :
    Fits limits (registry.perform move) := by
  cases move with
  | addTemp now node => exact unlessRefused_induction hfits fun _ hadd => hfits.addTemp hadd
  | addBootNodes now nodes =>
      apply Fits.addAll
      exact { hfits with }
  | requeueBootNodes now => exact hfits.addAll _
  | takeTemp now seedsOnly =>
      obtain ⟨rest, hrest, heq⟩ := registry.takeTemp_snd now seedsOnly
      rw [Registry.perform, heq]
      exact { hfits with temp := Nat.le_trans hrest.length_le hfits.temp }
  | promoteToOutbound now node conn =>
      exact settleOffer_induction (fun _ hinsert => hfits.insertOutbound hinsert) (hfits.close conn)
  | promoteToInbound now conn =>
      exact settleOffer_induction (fun _ hinsert => hfits.insertInbound hinsert) (hfits.close conn)
  | promoteToActive now conn direction peer =>
      exact unlessRefused_induction hfits fun _ hpromote => hfits.promoteToActive hpromote
  | dropActive peer => exact hfits.shrink (dropActive_shrinks _ _) (dropActive_limits _ _)
  | removeConn conn => exact hfits.shrink (removeConn_shrinks _ _) (removeConn_limits _ _)
  | ban now peer => exact { hfits with }
  | evict now => exact hfits.shrink (evict_shrinks _ _) (closeMany_limits _ _)
  | closeAll => exact hfits.shrink (closeAll_shrinks _) (closeMany_limits _ _)
  | touch now peer =>
      unfold Registry.perform touch
      exact hfits.updateActive peer _
  | updateChainInfo peer bestBlock totalDifficulty =>
      unfold Registry.perform updateChainInfo
      exact hfits.updateActive peer _
  | updateLatency peer latency =>
      unfold Registry.perform updateLatency
      exact hfits.updateActive peer _
  | setPort port => exact { hfits with }

/--
After every history from the empty registry the queue of candidates and each of
the three sets of connections is within its limit, and the registry holds at most
twice as many connections as it may have active ones.
-/
theorem run_within_limits (self : Identity) (limits : Limits) (moves : List Move) :
    let registry := (Registry.create self limits).run moves
    registry.temp.length ≤ limits.maxTemp ∧
    registry.active.length ≤ limits.maxActive ∧
    registry.inbound.length ≤ limits.maxActive ∧
    registry.outbound.length ≤ limits.maxActive ∧
    registry.active.length + registry.inbound.length + registry.outbound.length ≤
      2 * limits.maxActive := by
  intro registry
  have hfits : Fits limits registry :=
    run_induction moves (fits_create self limits) fun _ move h => h.perform move
  exact ⟨hfits.temp, hfits.active, hfits.inbound, hfits.outbound, hfits.total⟩

/-- With room for one, a dial and an accepted connection that becomes active reach the bound. -/
example : ((Registry.create (Identity.create (repeatedId 0x62) (.v4 0x0a000001) 30303)
      ⟨1, 1, 60, 60, 60⟩).run
    [.promoteToOutbound 0 (repeatedNode 0x63) 1, .promoteToInbound 0 2,
      .promoteToActive 1 2 .inbound (repeatedNode 0x61)]).counts 1 = ⟨0, 1, 0, 1, 0⟩ := by
  decide +kernel

end Registry

end Peering
