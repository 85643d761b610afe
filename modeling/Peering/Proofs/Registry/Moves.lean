import Peering.Proofs.Table
import Peering.Registry.Upkeep

/-!
# What the moves of the registry do

One statement for each move: what it changes when it succeeds, and which
conditions held. Later proofs use these and do not look into the moves.
-/

namespace Peering

namespace Registry

variable {registry after : Registry} {now : Nat} {conn : ConnId} {peer : IdHash}

/-! ## Questions, by the entries of the sets -/

theorem inTemp_iff : registry.inTemp peer = true ↔ ∃ node ∈ registry.temp, node.idHash = peer := by
  simp [inTemp]

theorem isActive_iff : registry.isActive peer = true ↔ ∃ active, (peer, active) ∈ registry.active :=
  Table.has_iff

theorem isDialed_iff : registry.isDialed peer = true ↔
    ∃ conn pending, (conn, pending) ∈ registry.outbound ∧ pending.isWith peer = true :=
  Table.keyWhere?_isSome_iff _

theorem isWith_iff {pending : Pending} :
    pending.isWith peer = true ↔ ∃ node, pending.node = some node ∧ node.idHash = peer := by
  cases h : pending.node with
  | none => simp [Pending.isWith, h]
  | some node => simp [Pending.isWith, h]

/-! ## Closing touches no set -/

@[simp] theorem close_self : (registry.close conn).self = registry.self := by
  unfold close; split <;> rfl

@[simp] theorem close_limits : (registry.close conn).limits = registry.limits := by
  unfold close; split <;> rfl

@[simp] theorem close_temp : (registry.close conn).temp = registry.temp := by
  unfold close; split <;> rfl

@[simp] theorem close_outbound : (registry.close conn).outbound = registry.outbound := by
  unfold close; split <;> rfl

@[simp] theorem close_inbound : (registry.close conn).inbound = registry.inbound := by
  unfold close; split <;> rfl

@[simp] theorem close_active : (registry.close conn).active = registry.active := by
  unfold close; split <;> rfl

theorem closeMany_induction {P : Registry → Prop} (conns : List ConnId) (hstart : P registry)
    (hclose : ∀ registry conn, P registry → P (registry.close conn)) :
    P (registry.closeMany conns) := by
  induction conns generalizing registry with
  | nil => exact hstart
  | cons conn rest ih => exact ih (hclose registry conn hstart)

/-! ## Candidates -/

/-- A candidate that is taken passed every check, and joins the end of the queue. -/
theorem addTemp_ok {node : Node} (hadd : registry.addTemp now node = .ok after) :
    registry.isSelf node = false ∧ registry.isBanned now node.idHash = false ∧
      registry.temp.length < registry.limits.maxTemp ∧
      registry.inTemp node.idHash = false ∧ registry.isActive node.idHash = false ∧
      registry.isDialed node.idHash = false ∧
      after = { registry with
        temp := registry.temp ++ [{ node with since := now, conn := none }] } := by
  unfold addTemp at hadd
  split at hadd
  · cases hadd
  rename_i hself
  split at hadd
  · cases hadd
  rename_i hbanned
  split at hadd
  · cases hadd
  rename_i hknown
  split at hadd
  · cases hadd
  rename_i hroom
  simp only [Bool.or_eq_true, not_or, Bool.not_eq_true] at hself hbanned hknown
  exact ⟨hself, hbanned, Nat.lt_of_not_le hroom, hknown.1.1, hknown.1.2, hknown.2,
    (Except.ok.inj hadd).symm⟩

/-- What the taking of one candidate keeps, the taking of many keeps. -/
theorem addAll_induction {P : Registry → Prop} (nodes : List Node) (hstart : P registry)
    (hadd : ∀ registry after node, P registry → registry.addTemp now node = .ok after → P after) :
    P (registry.addAll now nodes).1 := by
  induction nodes generalizing registry with
  | nil => exact hstart
  | cons node rest ih =>
      unfold addAll
      split
      · rename_i next hnext
        exact ih (hadd registry next node hstart hnext)
      · exact ih hstart

theorem takeTemp_snd (registry : Registry) (now : Nat) (seedsOnly : Bool) :
    ∃ rest, rest.Sublist registry.temp ∧
      (registry.takeTemp now seedsOnly).2 = { registry with temp := rest } := by
  have hdropped := List.dropWhile_sublist (l := registry.temp)
    fun node => !registry.isDialable now seedsOnly node
  unfold takeTemp
  split
  · exact ⟨[], List.nil_sublist _, rfl⟩
  · rename_i node rest hrest
    rw [hrest] at hdropped
    exact ⟨rest, (List.sublist_cons_self node rest).trans hdropped, rfl⟩

/-! ## Promotions -/

theorem insertOutbound_ok {node : Node}
    (hinsert : registry.insertOutbound now node conn = .ok after) :
    registry.isSelf node = false ∧ registry.isBanned now node.idHash = false ∧
      registry.active.length + registry.outbound.length < registry.limits.maxActive ∧
      registry.isActive node.idHash = false ∧ registry.isDialed node.idHash = false ∧
      after = { registry with
        temp := registry.withoutTemp node.idHash
        outbound := registry.outbound.insert conn
          ⟨⟨conn, now⟩, some { node with conn := some conn, since := now }⟩ } := by
  unfold insertOutbound at hinsert
  split at hinsert
  · cases hinsert
  rename_i hself
  split at hinsert
  · cases hinsert
  rename_i hbanned
  split at hinsert
  · cases hinsert
  rename_i hactive
  split at hinsert
  · cases hinsert
  rename_i hdialed
  split at hinsert
  · cases hinsert
  rename_i hroom
  simp only [Bool.not_eq_true] at hself hbanned hactive hdialed
  exact ⟨hself, hbanned, Nat.lt_of_not_le hroom, hactive, hdialed, (Except.ok.inj hinsert).symm⟩

theorem insertInbound_ok (hinsert : registry.insertInbound now conn = .ok after) :
    registry.active.length + registry.inbound.length < registry.limits.maxActive ∧
      after = { registry with inbound := registry.inbound.insert conn ⟨⟨conn, now⟩, none⟩ } := by
  unfold insertInbound at hinsert
  split at hinsert
  · cases hinsert
  · rename_i hroom
    exact ⟨Nat.lt_of_not_le hroom, (Except.ok.inj hinsert).symm⟩

/-- An offered connection is taken, or only closed. -/
theorem settleOffer_induction {P : Registry → Prop} {offer : Except RegistryError Registry}
    (hok : ∀ after, offer = .ok after → P after) (hclosed : P (registry.close conn)) :
    P (registry.settleOffer conn offer).1 := by
  cases offer with
  | ok after => exact hok after rfl
  | error error => exact hclosed

theorem mergeKnown_idHash (node : Node) (known : Option Node) :
    (mergeKnown node known).idHash = node.idHash := by
  cases known <;> rfl

/-- A dial that has to yield is the only thing that goes. -/
theorem yieldDial_ok {direction : Direction}
    (hyield : registry.yieldDial direction peer = .ok after) :
    (direction = .outbound ∧ after = registry) ∨
    (direction = .inbound ∧ registry.isDialed peer = false ∧ after = registry) ∨
    (direction = .inbound ∧ peer < registry.self.idHash ∧ ∃ dialing,
      registry.dialTo? peer = some dialing ∧
        after = { registry with outbound := registry.outbound.erase dialing }.close dialing) := by
  cases direction with
  | outbound =>
      cases hyield
      exact Or.inl ⟨rfl, rfl⟩
  | inbound =>
      cases hdial : registry.dialTo? peer with
      | none =>
          simp only [yieldDial, hdial] at hyield
          cases hyield
          exact Or.inr (Or.inl ⟨rfl, by simp [isDialed, hdial], rfl⟩)
      | some dialing =>
          simp only [yieldDial, hdial] at hyield
          split at hyield
          · rename_i hless
            exact Or.inr (Or.inr ⟨rfl, hless, dialing, rfl, (Except.ok.inj hyield).symm⟩)
          · cases hyield

/-- A dial that yields is not the connection that is promoted. -/
theorem pendingSet_of_yieldDial {direction : Direction}
    (hyield : registry.yieldDial direction peer = .ok after) :
    after.pendingSet direction = registry.pendingSet direction := by
  rcases yieldDial_ok hyield with ⟨_, rfl⟩ | ⟨_, _, rfl⟩ | ⟨rfl, _, _, _, rfl⟩
  · rfl
  · rfl
  · exact close_inbound

theorem promoteToActive_ok {direction : Direction} {node : Node}
    (hpromote : registry.promoteToActive now conn direction node = .ok after) :
    registry.isSelf node = false ∧ registry.isBanned now node.idHash = false ∧
      registry.active.length < registry.limits.maxActive ∧
      registry.isActive node.idHash = false ∧
      ∃ pending middle, (registry.pendingSet direction).find? conn = some pending ∧
        registry.yieldDial direction node.idHash = .ok middle ∧
        after = middle.activate now direction conn pending node := by
  unfold promoteToActive at hpromote
  split at hpromote
  · cases hpromote
  rename_i hself
  split at hpromote
  · cases hpromote
  rename_i pending hpending
  split at hpromote
  · cases hpromote
  rename_i hbanned
  split at hpromote
  · cases hpromote
  rename_i hactive
  split at hpromote
  · cases hpromote
  rename_i hroom
  simp only [Bool.not_eq_true] at hself hbanned hactive
  cases hyield : registry.yieldDial direction node.idHash with
  | error error =>
      rw [hyield] at hpromote
      cases hpromote
  | ok middle =>
      rw [hyield] at hpromote
      exact ⟨hself, hbanned, Nat.lt_of_not_le hroom, hactive, pending, middle, hpending, rfl,
        (Except.ok.inj hpromote).symm⟩

/-! ## Removals -/

/-- Every set of the second registry is a part of the first one's. -/
structure Shrinks (registry after : Registry) : Prop where
  temp : after.temp.Sublist registry.temp
  outbound : after.outbound.Sublist registry.outbound
  inbound : after.inbound.Sublist registry.inbound
  active : after.active.Sublist registry.active

theorem Shrinks.refl (registry : Registry) : Shrinks registry registry :=
  ⟨List.Sublist.refl _, List.Sublist.refl _, List.Sublist.refl _, List.Sublist.refl _⟩

theorem Shrinks.isDialed (hshrinks : Shrinks registry after)
    (hfree : registry.isDialed peer = false) : after.isDialed peer = false := by
  rw [← Bool.not_eq_true, isDialed_iff] at hfree ⊢
  rintro ⟨conn, pending, hmem, hwith⟩
  exact hfree ⟨conn, pending, hshrinks.outbound.subset hmem, hwith⟩

theorem Shrinks.isActive (hshrinks : Shrinks registry after)
    (hfree : registry.isActive peer = false) : after.isActive peer = false := by
  rw [← Bool.not_eq_true, isActive_iff] at hfree ⊢
  rintro ⟨active, hmem⟩
  exact hfree ⟨active, hshrinks.active.subset hmem⟩

theorem Shrinks.close (hshrinks : Shrinks registry after) (conn : ConnId) :
    Shrinks registry (after.close conn) :=
  ⟨by simpa using hshrinks.temp, by simpa using hshrinks.outbound,
    by simpa using hshrinks.inbound, by simpa using hshrinks.active⟩

theorem erase_outbound_shrinks (registry : Registry) (conn : ConnId) :
    Shrinks registry { registry with outbound := registry.outbound.erase conn } :=
  ⟨List.Sublist.refl _, Table.erase_sublist _ _, List.Sublist.refl _, List.Sublist.refl _⟩

theorem erase_inbound_shrinks (registry : Registry) (conn : ConnId) :
    Shrinks registry { registry with inbound := registry.inbound.erase conn } :=
  ⟨List.Sublist.refl _, List.Sublist.refl _, Table.erase_sublist _ _, List.Sublist.refl _⟩

theorem erase_active_shrinks (registry : Registry) (peer : IdHash) :
    Shrinks registry { registry with active := registry.active.erase peer } :=
  ⟨List.Sublist.refl _, List.Sublist.refl _, List.Sublist.refl _, Table.erase_sublist _ _⟩

theorem takeTemp_shrinks (registry : Registry) (now : Nat) (seedsOnly : Bool) :
    Shrinks registry (registry.takeTemp now seedsOnly).2 := by
  obtain ⟨rest, hrest, heq⟩ := registry.takeTemp_snd now seedsOnly
  rw [heq]
  exact ⟨hrest, List.Sublist.refl _, List.Sublist.refl _, List.Sublist.refl _⟩

theorem dropActive_shrinks (registry : Registry) (peer : IdHash) :
    Shrinks registry (registry.dropActive peer).1 := by
  unfold dropActive
  split
  · exact (erase_active_shrinks registry peer).close _
  · exact Shrinks.refl registry

theorem removeConn_shrinks (registry : Registry) (conn : ConnId) :
    Shrinks registry (registry.removeConn conn).1 := by
  unfold removeConn
  split
  · exact (erase_inbound_shrinks registry conn).close _
  split
  · exact (erase_outbound_shrinks registry conn).close _
  split
  · exact dropActive_shrinks registry _
  · exact Shrinks.refl registry

theorem evict_shrinks (registry : Registry) (now : Nat) :
    Shrinks registry (registry.evict now).1 :=
  closeMany_induction _ ⟨List.filter_sublist, List.filter_sublist, List.filter_sublist,
    List.Sublist.refl _⟩ fun _ conn h => h.close conn

theorem closeAll_shrinks (registry : Registry) : Shrinks registry registry.closeAll.1 :=
  closeMany_induction _ ⟨List.nil_sublist _, List.nil_sublist _, List.nil_sublist _,
    List.nil_sublist _⟩ fun _ conn h => h.close conn

/-- The registry in which a dial has yielded. -/
theorem yieldDial_shrinks {direction : Direction}
    (hyield : registry.yieldDial direction peer = .ok after) : Shrinks registry after := by
  rcases yieldDial_ok hyield with ⟨_, rfl⟩ | ⟨_, _, rfl⟩ | ⟨_, _, dialing, _, rfl⟩
  · exact Shrinks.refl _
  · exact Shrinks.refl _
  · exact (erase_outbound_shrinks registry dialing).close _

end Registry

end Peering
