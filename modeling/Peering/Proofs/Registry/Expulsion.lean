import Peering.Proofs.Registry.Bans
import Peering.Proofs.Registry.Ownership
import Peering.Proofs.Registry.Spares

/-!
# Expulsion

What it is for one peer to be banned and dropped, and what it is for nobody to be.
-/

namespace Peering

namespace Registry

variable {registry middle after : Registry} {now expiry : Nat} {conn : ConnId} {peer : IdHash}

/-- Who is active, and on which connection. -/
def roster (registry : Registry) : Table IdHash ConnId :=
  registry.active.map fun entry => (entry.1, entry.2.conn.id)

/-- Nobody has been banned or dropped, and no connection closed. -/
structure Undisturbed (registry after : Registry) : Prop where
  limits : after.limits = registry.limits
  bans : after.bans = registry.bans
  roster : after.roster = registry.roster
  closed : after.closed = registry.closed

theorem Undisturbed.refl (registry : Registry) : Undisturbed registry registry :=
  ⟨rfl, rfl, rfl, rfl⟩

theorem Undisturbed.trans (hfirst : Undisturbed registry middle)
    (hsecond : Undisturbed middle after) : Undisturbed registry after where
  limits := hsecond.limits.trans hfirst.limits
  bans := hsecond.bans.trans hfirst.bans
  roster := hsecond.roster.trans hfirst.roster
  closed := hsecond.closed.trans hfirst.closed

/-- The data of active nodes may change. -/
theorem updateActive_undisturbed (registry : Registry) (peer : IdHash) (change : Node → Node) :
    Undisturbed registry (registry.updateActive peer change) := by
  refine ⟨rfl, rfl, ?_, rfl⟩
  simp only [roster, updateActive, Table.modify, List.map_map]
  refine List.map_congr_left fun entry _ => ?_
  simp only [Function.comp_apply]
  split <;> rfl

theorem addTemp_undisturbed {node : Node} (hadd : registry.addTemp now node = .ok after) :
    Undisturbed registry after := by
  obtain ⟨_, _, _, _, _, _, rfl⟩ := addTemp_ok hadd
  exact ⟨rfl, rfl, rfl, rfl⟩

theorem isActiveOn_iff :
    registry.IsActiveOn peer conn ↔ registry.roster.find? peer = some conn := by
  unfold IsActiveOn roster
  induction registry.active with
  | nil => simp [Table.find?]
  | cons entry rest ih =>
      obtain ⟨first, active⟩ := entry
      by_cases hfirst : first = peer
      · simp [Table.find?, hfirst]
      · simpa [Table.find?, hfirst] using ih

theorem Undisturbed.isActiveOn (hundisturbed : Undisturbed registry after)
    (hon : registry.IsActiveOn peer conn) : after.IsActiveOn peer conn := by
  rw [isActiveOn_iff] at hon ⊢
  rwa [hundisturbed.roster]

/-- A peer has been banned and dropped, and nobody else has been banned. -/
structure Expels (registry : Registry) (peer : IdHash) (expiry : Nat) (after : Registry) : Prop where
  banned : after.BannedUntil peer expiry
  dropped : after.isActive peer = false
  closed : ∀ conn, registry.IsActiveOn peer conn → after.isClosed conn = true
  others : ∀ other, other ≠ peer → after.bans.find? other = registry.bans.find? other

/-- What is removed later changes nothing about it. -/
theorem Expels.removeConn (hexpels : Expels registry peer expiry after) (conn : ConnId) :
    Expels registry peer expiry (after.removeConn conn).1 := by
  have hbans := (removeConn_keepsTerms after conn).bans
  refine ⟨?_, ((removeConn_shrinks after conn).bars peer).isActive hexpels.dropped,
    fun other hon => isClosed_removeConn_of_isClosed (hexpels.closed other hon), fun other hother => ?_⟩
  · rw [BannedUntil, hbans]
    exact hexpels.banned
  · rw [hbans]
    exact hexpels.others other hother

theorem expels_dropActive (hundisturbed : Undisturbed registry middle) (now : Nat) (peer : IdHash) :
    Expels registry peer (now + registry.limits.banDuration)
      ((middle.ban now peer).dropActive peer).1 := by
  have hbans := (dropActive_keepsBans (middle.ban now peer) peer).bans
  refine ⟨?_, isActive_dropActive _ peer, fun conn hon => ?_, fun other hother => ?_⟩
  · rw [BannedUntil, hbans, ← hundisturbed.limits]
    exact bannedUntil_ban middle now peer
  · obtain ⟨active, hfind, hconn⟩ := hundisturbed.isActiveOn hon
    have hbanned : (middle.ban now peer).active.find? peer = some active := hfind
    simp only [dropActive, hbanned]
    exact isClosed_close.mpr (Or.inr hconn.symm)
  · rw [hbans, ban, Table.find?_insert, if_neg hother, hundisturbed.bans]

end Registry

end Peering
