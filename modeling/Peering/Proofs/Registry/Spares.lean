import Peering.Proofs.Registry.Ownership

/-!
# What a move leaves alone

A move works on one connection, or on the entry of one peer. Here is, for the moves
that sessions make, which connections they may reach; about all others nothing is
added, removed, moved or closed. The data of an active node may be refreshed at any
time, so an active entry counts as the same while its key and its connection are.
-/

namespace Peering

namespace Registry

variable {registry middle after : Registry} {touched wider : ConnId → Prop} {now : Nat}
  {conn other : ConnId} {peer : IdHash}

/-- Away from the touched connections every entry and every closing is as it was. -/
structure Spares (registry : Registry) (touched : ConnId → Prop) (after : Registry) : Prop where
  outbound : ∀ key pending, ¬ touched pending.conn.id →
    ((key, pending) ∈ after.outbound ↔ (key, pending) ∈ registry.outbound)
  inbound : ∀ key pending, ¬ touched pending.conn.id →
    ((key, pending) ∈ after.inbound ↔ (key, pending) ∈ registry.inbound)
  active : ∀ peer conn, ¬ touched conn.id →
    ((∃ node, (peer, ⟨node, conn⟩) ∈ after.active) ↔
      ∃ node, (peer, ⟨node, conn⟩) ∈ registry.active)
  closed : ∀ conn, ¬ touched conn → (after.isClosed conn = true ↔ registry.isClosed conn = true)

theorem spares_of_same (houtbound : after.outbound = registry.outbound)
    (hinbound : after.inbound = registry.inbound) (hactive : after.active = registry.active)
    (hclosed : after.closed = registry.closed) : Spares registry touched after where
  outbound := fun _ _ _ => by rw [houtbound]
  inbound := fun _ _ _ => by rw [hinbound]
  active := fun _ _ _ => by rw [hactive]
  closed := fun _ _ => by rw [isClosed, isClosed, hclosed]

theorem Spares.refl (registry : Registry) : Spares registry touched registry :=
  spares_of_same rfl rfl rfl rfl

theorem Spares.trans (hfirst : Spares registry touched middle)
    (hsecond : Spares middle touched after) : Spares registry touched after where
  outbound := fun key pending hfree =>
    (hsecond.outbound key pending hfree).trans (hfirst.outbound key pending hfree)
  inbound := fun key pending hfree =>
    (hsecond.inbound key pending hfree).trans (hfirst.inbound key pending hfree)
  active := fun peer conn hfree =>
    (hsecond.active peer conn hfree).trans (hfirst.active peer conn hfree)
  closed := fun conn hfree => (hsecond.closed conn hfree).trans (hfirst.closed conn hfree)

theorem Spares.mono (hspares : Spares registry touched after)
    (hwider : ∀ conn, touched conn → wider conn) : Spares registry wider after where
  outbound := fun key pending hfree => hspares.outbound key pending fun h => hfree (hwider _ h)
  inbound := fun key pending hfree => hspares.inbound key pending fun h => hfree (hwider _ h)
  active := fun peer conn hfree => hspares.active peer conn fun h => hfree (hwider _ h)
  closed := fun conn hfree => hspares.closed conn fun h => hfree (hwider _ h)

/-! ## Small moves -/

theorem close_spares (htouched : touched conn) : Spares registry touched (registry.close conn) where
  outbound := fun _ _ _ => by rw [close_outbound]
  inbound := fun _ _ _ => by rw [close_inbound]
  active := fun _ _ _ => by rw [close_active]
  closed := fun other hfree => by
    rw [isClosed_close]
    exact or_iff_left fun heq => hfree (heq ▸ htouched)

theorem updateActive_spares (registry : Registry) (peer : IdHash) (change : Node → Node) :
    Spares registry touched (registry.updateActive peer change) where
  outbound := fun _ _ _ => Iff.rfl
  inbound := fun _ _ _ => Iff.rfl
  closed := fun _ _ => Iff.rfl
  active := fun key conn _ => by
    simp only [updateActive, Table.mem_modify]
    constructor
    · rintro ⟨node, ⟨_, hold⟩ | ⟨_, ⟨known, _⟩, hold, hsame⟩⟩
      · exact ⟨node, hold⟩
      · cases hsame
        exact ⟨known, hold⟩
    · rintro ⟨node, hold⟩
      by_cases hkey : key = peer
      · exact ⟨change node, Or.inr ⟨hkey, _, hold, rfl⟩⟩
      · exact ⟨node, Or.inl ⟨hkey, hold⟩⟩

/-- The connection of an active entry. -/
def IsActiveOn (registry : Registry) (peer : IdHash) (conn : ConnId) : Prop :=
  ∃ active, registry.active.find? peer = some active ∧ active.conn.id = conn

theorem Keyed.eraseActive_spares (hkeyed : Keyed registry)
    (htouched : ∀ conn, registry.IsActiveOn peer conn → touched conn) :
    Spares registry touched { registry with active := registry.active.erase peer } where
  outbound := fun _ _ _ => Iff.rfl
  inbound := fun _ _ _ => Iff.rfl
  closed := fun _ _ => Iff.rfl
  active := fun key conn hfree => by
    simp only [Table.mem_erase]
    refine ⟨fun ⟨node, _, hold⟩ => ⟨node, hold⟩, fun ⟨node, hold⟩ => ⟨node, ?_, hold⟩⟩
    rintro rfl
    exact hfree (htouched conn.id ⟨_, Table.find?_of_mem hkeyed.active_keys hold, rfl⟩)

theorem Keyed.dropActive_spares (hkeyed : Keyed registry)
    (htouched : ∀ conn, registry.IsActiveOn peer conn → touched conn) :
    Spares registry touched (registry.dropActive peer).1 := by
  unfold dropActive
  split
  · rename_i active hactive
    exact (hkeyed.eraseActive_spares htouched).trans (close_spares (htouched _ ⟨active, hactive, rfl⟩))
  · exact .refl registry

theorem Keyed.eraseOutbound_spares (hkeyed : Keyed registry) (htouched : touched conn) :
    Spares registry touched { registry with outbound := registry.outbound.erase conn } where
  inbound := fun _ _ _ => Iff.rfl
  active := fun _ _ _ => Iff.rfl
  closed := fun _ _ => Iff.rfl
  outbound := fun key pending hfree => by
    rw [Table.mem_erase]
    refine and_iff_right_of_imp fun hmem heq => hfree ?_
    rw [hkeyed.outbound_own key pending hmem, heq]
    exact htouched

theorem Keyed.eraseInbound_spares (hkeyed : Keyed registry) (htouched : touched conn) :
    Spares registry touched { registry with inbound := registry.inbound.erase conn } where
  outbound := fun _ _ _ => Iff.rfl
  active := fun _ _ _ => Iff.rfl
  closed := fun _ _ => Iff.rfl
  inbound := fun key pending hfree => by
    rw [Table.mem_erase]
    refine and_iff_right_of_imp fun hmem heq => hfree ?_
    rw [hkeyed.inbound_own key pending hmem, heq]
    exact htouched

/-! ## Promotion -/

/-- The dial that yields to the request of a peer. -/
def IsYieldingDial (registry : Registry) (peer : IdHash) (conn : ConnId) : Prop :=
  peer < registry.self.idHash ∧ registry.dialTo? peer = some conn

theorem Keyed.yieldDial_spares {direction : Direction} (hkeyed : Keyed registry)
    (htouched : ∀ conn, direction = .inbound → registry.IsYieldingDial peer conn → touched conn)
    (hyield : registry.yieldDial direction peer = .ok after) : Spares registry touched after := by
  rcases yieldDial_ok hyield with ⟨_, rfl⟩ | ⟨_, _, rfl⟩ | ⟨hdirection, hless, dialing, hdial, rfl⟩
  · exact .refl _
  · exact .refl _
  · have hreached : touched dialing := htouched dialing hdirection ⟨hless, hdial⟩
    exact (hkeyed.eraseOutbound_spares hreached).trans (close_spares hreached)

theorem insertActive_spares {active : Active} (houtbound : after.outbound = registry.outbound)
    (hinbound : after.inbound = registry.inbound) (hclosed : after.closed = registry.closed)
    (hactive : after.active = registry.active.insert peer active)
    (hfree : registry.active.has peer = false) (htouched : touched active.conn.id) :
    Spares registry touched after where
  outbound := fun _ _ _ => by rw [houtbound]
  inbound := fun _ _ _ => by rw [hinbound]
  closed := fun _ _ => by rw [isClosed, isClosed, hclosed]
  active := fun key conn hspared => by
    simp only [hactive, Table.mem_insert]
    constructor
    · rintro ⟨node, ⟨_, hold⟩ | ⟨_, rfl⟩⟩
      · exact ⟨node, hold⟩
      · exact absurd htouched hspared
    · rintro ⟨node, hold⟩
      refine ⟨node, Or.inl ⟨?_, hold⟩⟩
      rintro rfl
      exact Table.has_eq_false_iff.mp hfree _ hold

/-- A peer that was not active becomes active; only its own connection is moved. -/
theorem Keyed.activate_spares {direction : Direction} {pending : Pending} {node : Node}
    (hkeyed : Keyed registry) (now : Nat) (hactive : registry.isActive node.idHash = false)
    (hentry : (conn, pending) ∈ registry.pendingSet direction) (htouched : touched conn) :
    Spares registry touched (registry.activate now direction conn pending node) := by
  have hfree : registry.active.has (mergeKnown node pending.node).idHash = false := by
    rw [mergeKnown_idHash]
    exact hactive
  cases direction with
  | inbound =>
      have hown : touched pending.conn.id := by rwa [hkeyed.inbound_own conn pending hentry]
      exact (hkeyed.eraseInbound_spares htouched).trans
        (insertActive_spares rfl rfl rfl rfl hfree hown)
  | outbound =>
      have hown : touched pending.conn.id := by rwa [hkeyed.outbound_own conn pending hentry]
      exact (hkeyed.eraseOutbound_spares htouched).trans
        (insertActive_spares rfl rfl rfl rfl hfree hown)

/-- A promotion reaches its own connection and, for an accepted one, the dial that yields. -/
theorem Keyed.promoteToActive_spares {direction : Direction} {node : Node} (hkeyed : Keyed registry)
    (hown : touched conn)
    (hdial : ∀ other, direction = .inbound → registry.IsYieldingDial node.idHash other →
      touched other)
    (hpromote : registry.promoteToActive now conn direction node = .ok after) :
    Spares registry touched after := by
  obtain ⟨_, _, _, hactive, pending, middle, hpending, hyield, rfl⟩ := promoteToActive_ok hpromote
  have hshrinks := yieldDial_shrinks hyield
  rw [← pendingSet_of_yieldDial hyield] at hpending
  exact (hkeyed.yieldDial_spares hdial hyield).trans
    ((hkeyed.shrink hshrinks).activate_spares now (hshrinks.isActive hactive)
      (Table.mem_of_find? hpending) hown)

/-! ## Removal of a connection -/

theorem mem_select_iff {κ α : Type} {table : Table κ α} {key : κ} {value : α} (handle : α → ConnId)
    (hother : handle value ≠ conn) :
    (key, value) ∈ table.select (fun value => handle value ≠ conn) ↔ (key, value) ∈ table := by
  rw [Table.mem_select]
  exact and_iff_left (by simpa using hother)

/-- The removal of a connection closes no other. -/
theorem Keyed.isClosed_removeConn (hkeyed : Keyed registry) (hother : other ≠ conn) :
    (registry.removeConn conn).1.isClosed other = true ↔ registry.isClosed other = true := by
  have hclose : ∀ middle : Registry, middle.closed = registry.closed →
      ((middle.close conn).isClosed other = true ↔ registry.isClosed other = true) := by
    intro middle hsame
    rw [isClosed_close, or_iff_left hother, isClosed, isClosed, hsame]
  unfold removeConn
  split
  · exact hclose _ rfl
  split
  · exact hclose _ rfl
  split
  · rename_i peer hpeer
    obtain ⟨active, hentry, hconn⟩ := Table.mem_of_keyWhere? hpeer
    simp only [dropActive, Table.find?_of_mem hkeyed.active_keys hentry]
    rw [beq_iff_eq.mp hconn]
    exact hclose _ rfl
  · exact Iff.rfl

theorem Keyed.removeConn_spares (hkeyed : Keyed registry) (hnodup : registry.handles.Nodup)
    (htouched : touched conn) : Spares registry touched (registry.removeConn conn).1 := by
  obtain ⟨houtbound, hinbound, hactive⟩ := hkeyed.removeConn_without hnodup conn
  have hother : ∀ {spared : ConnId}, ¬ touched spared → spared ≠ conn :=
    fun hfree heq => hfree (heq ▸ htouched)
  constructor
  · intro key pending hfree
    rw [houtbound]
    exact mem_select_iff (fun pending : Pending => pending.conn.id) (hother hfree)
  · intro key pending hfree
    rw [hinbound]
    exact mem_select_iff (fun pending : Pending => pending.conn.id) (hother hfree)
  · intro peer kept hfree
    rw [hactive]
    exact exists_congr fun node =>
      mem_select_iff (fun active : Active => active.conn.id) (hother hfree)
  · exact fun spared hfree => hkeyed.isClosed_removeConn (hother hfree)

end Registry

end Peering
