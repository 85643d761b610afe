import Peering.Proofs.Registry.Handles

/-!
# Where a connection stands

The sets that hold a connection, and whether it is closed. A registry that deals
with one peer has at most one dial and one active connection, so what a promotion
does can be told for every connection at once.
-/

namespace Peering

/-- The sets that hold a connection, and whether it is closed. -/
structure Place where
  isDialed : Bool
  isAccepted : Bool
  isActive : Bool
  isClosed : Bool
deriving DecidableEq

namespace Place

def unknown : Place := ⟨false, false, false, false⟩
def dialed : Place := ⟨true, false, false, false⟩
def accepted : Place := ⟨false, true, false, false⟩
def active : Place := ⟨false, false, true, false⟩
def closed : Place := ⟨false, false, false, true⟩

/-- A connection is held by one set at most, and by none once it is closed. -/
def IsSingle (place : Place) : Prop :=
  place = unknown ∨ place = dialed ∨ place = accepted ∨ place = active ∨ place = closed

variable {place : Place}

theorem ne_unknown_of_dialed (hdialed : place.isDialed = true) : place ≠ unknown := by
  intro hunknown
  simp [hunknown, unknown] at hdialed

theorem ne_unknown_of_accepted (haccepted : place.isAccepted = true) : place ≠ unknown := by
  intro hunknown
  simp [hunknown, unknown] at haccepted

theorem ne_unknown_of_active (hactive : place.isActive = true) : place ≠ unknown := by
  intro hunknown
  simp [hunknown, unknown] at hactive

theorem IsSingle.closed_of_free (h : place.IsSingle) (hknown : place ≠ unknown)
    (hfree : (place.isDialed || place.isAccepted || place.isActive) = false) : place = closed := by
  rcases h with rfl | rfl | rfl | rfl | hclosed
  · exact absurd rfl hknown
  · cases hfree
  · cases hfree
  · cases hfree
  · exact hclosed

end Place

namespace Registry

variable {registry after : Registry} {now : Nat} {conn other : ConnId} {peer : IdHash} {node : Node}

def placeOf (registry : Registry) (conn : ConnId) : Place where
  isDialed := registry.outbound.has conn
  isAccepted := registry.inbound.has conn
  isActive := (registry.activeOn? conn).isSome
  isClosed := registry.isClosed conn

theorem knows_iff_place : registry.Knows conn ↔ registry.placeOf conn ≠ .unknown := by
  simp only [Knows, holds, placeOf, Place.unknown, ne_eq, Place.mk.injEq, Bool.or_eq_true]
  cases registry.outbound.has conn <;> cases registry.inbound.has conn <;>
    cases (registry.activeOn? conn).isSome <;> cases registry.isClosed conn <;> simp

/-- Whether some connection is being dialed, or is active. -/
def IsDialing (registry : Registry) : Prop :=
  ∃ conn, (registry.placeOf conn).isDialed = true

def IsJoined (registry : Registry) : Prop :=
  ∃ conn, (registry.placeOf conn).isActive = true

/-! ## Closing and erasing -/

theorem placeOf_close : (registry.close conn).placeOf other =
    if other = conn then { registry.placeOf other with isClosed := true }
    else registry.placeOf other := by
  have hclosed := @isClosed_close registry conn other
  simp only [placeOf, activeOn?, close_outbound, close_inbound, close_active]
  split
  · rename_i hsame
    rw [hclosed.mpr (Or.inr hsame)]
  · rename_i hne
    have : (registry.close conn).isClosed other = registry.isClosed other := by
      rw [Bool.eq_iff_iff, hclosed]
      simp [hne]
    rw [this]

theorem has_erase {α : Type} (table : Table ConnId α) (conn other : ConnId) :
    (table.erase conn).has other = if other = conn then false else table.has other := by
  rw [Table.has, Table.find?_erase]
  split
  · rfl
  · rfl

theorem placeOf_eraseInbound :
    { registry with inbound := registry.inbound.erase conn }.placeOf other =
      if other = conn then { registry.placeOf other with isAccepted := false }
      else registry.placeOf other := by
  simp only [placeOf, activeOn?, has_erase]
  split
  · rfl
  · rfl

theorem placeOf_eraseOutbound :
    { registry with outbound := registry.outbound.erase conn }.placeOf other =
      if other = conn then { registry.placeOf other with isDialed := false }
      else registry.placeOf other := by
  simp only [placeOf, activeOn?, has_erase]
  split
  · rfl
  · rfl

/-! ## One peer -/

/-- A registry that has dealt with one peer only, and has banned nobody. -/
structure DealsWith (peer : IdHash) (registry : Registry) : Prop where
  coherent : registry.Coherent
  outbound : registry.outbound = [] ∨ ∃ entry, registry.outbound = [entry] ∧ entry.2.isWith peer = true
  active : registry.active = [] ∨ ∃ entry, registry.active = [entry] ∧ entry.1 = peer
  bans : registry.bans = []
  single : ∀ conn, (registry.placeOf conn).IsSingle
  teardown : ∀ conn ∈ registry.teardowns, registry.isClosed conn = true

theorem single_of_sublist {α : Type} {list short : List α} {P : α → Prop}
    (hlist : list = [] ∨ ∃ entry, list = [entry] ∧ P entry) (hshort : short.Sublist list) :
    short = [] ∨ ∃ entry, short = [entry] ∧ P entry := by
  rcases hlist with rfl | ⟨entry, rfl, hentry⟩
  · exact Or.inl (List.sublist_nil.mp hshort)
  · rcases List.sublist_cons_iff.mp hshort with h | ⟨rest, rfl, hrest⟩
    · exact Or.inl (List.sublist_nil.mp h)
    · exact Or.inr ⟨entry, by rw [List.sublist_nil.mp hrest], hentry⟩

/-- What is left of a registry deals with no one else. -/
theorem DealsWith.shrink (h : DealsWith peer registry) (hshrinks : Shrinks registry after)
    (hbans : after.bans = registry.bans) (hsingle : ∀ conn, (after.placeOf conn).IsSingle)
    (hteardown : ∀ conn ∈ after.teardowns, after.isClosed conn = true) : DealsWith peer after where
  coherent := h.coherent.shrink hshrinks
  outbound := single_of_sublist h.outbound hshrinks.outbound
  active := single_of_sublist h.active hshrinks.active
  bans := hbans.trans h.bans
  single := hsingle
  teardown := hteardown

theorem close_teardown (hteardown : ∀ conn ∈ registry.teardowns, registry.isClosed conn = true) :
    ∀ other ∈ (registry.close conn).teardowns, (registry.close conn).isClosed other = true := by
  intro other hmem
  rw [isClosed_close]
  unfold close at hmem
  split at hmem
  · exact Or.inl (hteardown other hmem)
  · rcases List.mem_append.mp hmem with hmem | hmem
    · exact Or.inl (hteardown other hmem)
    · exact Or.inr (List.mem_singleton.mp hmem)

@[simp] theorem close_bans : (registry.close conn).bans = registry.bans := by
  unfold close; split <;> rfl

theorem single_of_update {place : Place} (hsingle : ∀ conn, (registry.placeOf conn).IsSingle)
    (hplace : place.IsSingle)
    (hafter : ∀ other, after.placeOf other = if other = conn then place else registry.placeOf other)
    (other : ConnId) : (after.placeOf other).IsSingle := by
  rw [hafter]
  split
  · exact hplace
  · exact hsingle other

theorem DealsWith.active_entry (h : DealsWith peer registry)
    (hplace : (registry.placeOf conn).isActive = true) :
    ∃ active, registry.active = [(peer, active)] ∧ active.conn.id = conn := by
  rcases h.active with hnone | ⟨⟨key, active⟩, hone, rfl⟩
  · simp [placeOf, activeOn?, hnone, Table.keyWhere?] at hplace
  · by_cases hsame : active.conn.id = conn
    · exact ⟨active, hone, hsame⟩
    · simp [placeOf, activeOn?, hone, Table.keyWhere?, hsame] at hplace

theorem DealsWith.dialed_entry (h : DealsWith peer registry)
    (hplace : (registry.placeOf conn).isDialed = true) :
    ∃ pending, registry.outbound = [(conn, pending)] ∧ pending.isWith peer = true := by
  rcases h.outbound with hnone | ⟨⟨key, pending⟩, hone, hwith⟩
  · simp [placeOf, hnone, Table.has, Table.find?] at hplace
  · obtain ⟨found, hfound⟩ := Table.has_iff.mp hplace
    rw [hone, List.mem_singleton] at hfound
    cases hfound
    exact ⟨pending, hone, hwith⟩

theorem DealsWith.isActive_eq (h : DealsWith peer registry) :
    registry.isActive peer = true ↔ registry.IsJoined := by
  constructor
  · intro hactive
    obtain ⟨active, hmem⟩ := isActive_iff.mp hactive
    exact ⟨active.conn.id, (Table.keyWhere?_isSome_iff _).mpr ⟨peer, active, hmem, by simp⟩⟩
  · rintro ⟨conn, hplace⟩
    obtain ⟨active, hone, _⟩ := h.active_entry hplace
    exact isActive_iff.mpr ⟨active, by simp [hone]⟩

theorem DealsWith.isDialed_eq (h : DealsWith peer registry) :
    registry.isDialed peer = true ↔ registry.IsDialing := by
  constructor
  · intro hdialed
    obtain ⟨conn, pending, hmem, _⟩ := isDialed_iff.mp hdialed
    exact ⟨conn, Table.has_iff.mpr ⟨pending, hmem⟩⟩
  · rintro ⟨conn, hplace⟩
    obtain ⟨pending, hone, hwith⟩ := h.dialed_entry hplace
    exact isDialed_iff.mpr ⟨conn, pending, by simp [hone], hwith⟩

/-- A peer is not active and dialed at once. -/
theorem DealsWith.not_joined (h : DealsWith peer registry) (hdialing : registry.IsDialing) :
    ¬registry.IsJoined := by
  intro hjoined
  have hfree := h.coherent.dialed_not_active peer (h.isDialed_eq.mpr hdialing)
  rw [h.isActive_eq.mpr hjoined] at hfree
  cases hfree

theorem DealsWith.active_nil (h : DealsWith peer registry) (hfree : ¬registry.IsJoined) :
    registry.active = [] := by
  rcases h.active with hnone | ⟨⟨key, active⟩, hone, rfl⟩
  · exact hnone
  · exact absurd (h.isActive_eq.mp (isActive_iff.mpr ⟨active, by simp [hone]⟩)) hfree

theorem DealsWith.outbound_nil (h : DealsWith peer registry) (hfree : ¬registry.IsDialing) :
    registry.outbound = [] := by
  rcases h.outbound with hnone | ⟨⟨conn, pending⟩, hone, hwith⟩
  · exact hnone
  · exact absurd ⟨conn, Table.has_iff.mpr ⟨pending, by simp [hone]⟩⟩ hfree

theorem DealsWith.not_active (h : DealsWith peer registry) (hfree : ¬registry.IsJoined) :
    registry.isActive peer = false :=
  Bool.eq_false_iff.mpr fun hactive => hfree (h.isActive_eq.mp hactive)

theorem DealsWith.not_banned (h : DealsWith peer registry) (now : Nat) (other : IdHash) :
    registry.isBanned now other = false := by
  simp [isBanned, h.bans, Table.find?]

/-- A node that has not been joined has room for the peer, unless it may have no peer at all. -/
theorem DealsWith.not_full (h : DealsWith peer registry) (hfree : ¬registry.IsJoined)
    (hroom : 0 < registry.limits.maxActive) :
    ¬registry.limits.maxActive ≤ registry.active.length := by
  rw [h.active_nil hfree]
  exact Nat.not_le.mpr hroom

theorem placeOf_dropActive {active : Active} (hone : registry.active = [(peer, active)])
    (hconn : active.conn.id = conn) (other : ConnId) :
    { registry with active := registry.active.erase peer }.placeOf other =
      if other = conn then { registry.placeOf other with isActive := false }
      else registry.placeOf other := by
  have hnone : registry.active.erase peer = [] := by simp [hone, Table.erase]
  have hrest : other ≠ conn → (active.conn.id == other) = false := by
    intro hne
    simpa [hconn] using hne.symm
  simp only [placeOf, activeOn?, hnone]
  split
  · rfl
  · rename_i hne
    simp [hone, Table.keyWhere?, hrest hne, isClosed]

/-! ## Removals -/

theorem removeConn_of_closed (hplace : registry.placeOf conn = .closed) :
    (registry.removeConn conn).1 = registry := by
  have hinbound : registry.inbound.has conn = false := congrArg Place.isAccepted hplace
  have houtbound : registry.outbound.has conn = false := congrArg Place.isDialed hplace
  have hfree : registry.activeOn? conn = none :=
    Option.isSome_eq_false_iff.mp (congrArg Place.isActive hplace) |> Option.isNone_iff_eq_none.mp
  unfold Registry.removeConn
  rw [if_neg (by simp [hinbound]), if_neg (by simp [houtbound])]
  simp only [hfree]

theorem DealsWith.closed_place (h : DealsWith peer registry) (hclosed : registry.isClosed conn = true) :
    registry.placeOf conn = .closed := by
  have hfield : (registry.placeOf conn).isClosed = true := hclosed
  rcases h.single conn with hplace | hplace | hplace | hplace | hplace <;> rw [hplace] at hfield
  · cases hfield
  · cases hfield
  · cases hfield
  · cases hfield
  · exact hplace

/-- A known connection is closed when it is removed, and the others stay where they are. -/
theorem DealsWith.placeOf_removeConn (h : DealsWith peer registry) (hknown : registry.Knows conn)
    (other : ConnId) : (registry.removeConn conn).1.placeOf other =
      if other = conn then .closed else registry.placeOf other := by
  unfold Registry.removeConn
  rcases h.single conn with hplace | hplace | hplace | hplace | hplace
  · exact absurd hplace (knows_iff_place.mp hknown)
  · have hinbound : registry.inbound.has conn = false := congrArg Place.isAccepted hplace
    have houtbound : registry.outbound.has conn = true := congrArg Place.isDialed hplace
    rw [if_neg (by simp [hinbound]), if_pos houtbound, placeOf_close, placeOf_eraseOutbound]
    split
    · rename_i hsame
      rw [hsame, hplace]
      rfl
    · rfl
  · have hinbound : registry.inbound.has conn = true := congrArg Place.isAccepted hplace
    rw [if_pos hinbound, placeOf_close, placeOf_eraseInbound]
    split
    · rename_i hsame
      rw [hsame, hplace]
      rfl
    · rfl
  · have hinbound : registry.inbound.has conn = false := congrArg Place.isAccepted hplace
    have houtbound : registry.outbound.has conn = false := congrArg Place.isDialed hplace
    obtain ⟨active, hone, hconn⟩ := h.active_entry (congrArg Place.isActive hplace)
    have hfound : registry.activeOn? conn = some peer := by
      simp [activeOn?, hone, Table.keyWhere?, hconn]
    have hentry : registry.active.find? peer = some active := by simp [hone, Table.find?]
    rw [if_neg (by simp [hinbound]), if_neg (by simp [houtbound])]
    simp only [hfound, dropActive, hentry]
    rw [hconn, placeOf_close, placeOf_dropActive hone hconn]
    split
    · rename_i hsame
      rw [hsame, hplace]
      rfl
    · rfl
  · rw [← Registry.removeConn, removeConn_of_closed hplace]
    split
    · rename_i hsame
      rw [hsame, hplace]
    · rfl

/-- What no move of connections changes: who we are, our limits and the bans. -/
structure KeepsTerms (registry after : Registry) : Prop where
  self : after.self = registry.self
  limits : after.limits = registry.limits
  bans : after.bans = registry.bans

theorem KeepsTerms.refl (registry : Registry) : KeepsTerms registry registry :=
  ⟨rfl, rfl, rfl⟩

theorem KeepsTerms.trans {middle : Registry} (hfirst : KeepsTerms registry middle)
    (hsecond : KeepsTerms middle after) : KeepsTerms registry after :=
  ⟨hsecond.self.trans hfirst.self, hsecond.limits.trans hfirst.limits,
    hsecond.bans.trans hfirst.bans⟩

theorem KeepsTerms.close (h : KeepsTerms registry after) (conn : ConnId) :
    KeepsTerms registry (after.close conn) := by
  unfold Registry.close
  split
  · exact h
  · exact ⟨h.self, h.limits, h.bans⟩

theorem removeConn_keepsTerms (registry : Registry) (conn : ConnId) :
    KeepsTerms registry (registry.removeConn conn).1 := by
  unfold Registry.removeConn dropActive
  split
  · refine KeepsTerms.close ?_ conn
    exact ⟨rfl, rfl, rfl⟩
  split
  · refine KeepsTerms.close ?_ conn
    exact ⟨rfl, rfl, rfl⟩
  split
  · split
    · refine KeepsTerms.close ?_ _
      exact ⟨rfl, rfl, rfl⟩
    · exact KeepsTerms.refl registry
  · exact KeepsTerms.refl registry

theorem removeConn_teardown (hteardown : ∀ conn ∈ registry.teardowns, registry.isClosed conn = true) :
    ∀ other ∈ (registry.removeConn conn).1.teardowns,
      (registry.removeConn conn).1.isClosed other = true := by
  unfold Registry.removeConn dropActive
  split
  · exact close_teardown hteardown
  split
  · exact close_teardown hteardown
  split
  · split
    · exact close_teardown hteardown
    · exact hteardown
  · exact hteardown

theorem DealsWith.removeConn (h : DealsWith peer registry) (hknown : registry.Knows conn) :
    DealsWith peer (registry.removeConn conn).1 :=
  h.shrink (removeConn_shrinks registry conn) (removeConn_keepsTerms registry conn).bans
    (single_of_update h.single (Or.inr (Or.inr (Or.inr (Or.inr rfl)))) (h.placeOf_removeConn hknown))
    (removeConn_teardown h.teardown)

/-! ## Offers -/

theorem has_insert {α : Type} (table : Table ConnId α) (conn other : ConnId) (value : α) :
    (table.insert conn value).has other = if other = conn then true else table.has other := by
  rw [Table.has, Table.find?_insert]
  split
  · rfl
  · rfl

theorem placeOf_insertOutbound {pending : Pending} :
    { registry with
      temp := registry.withoutTemp node.idHash
      outbound := registry.outbound.insert conn pending }.placeOf other =
      if other = conn then { registry.placeOf other with isDialed := true }
      else registry.placeOf other := by
  simp only [placeOf, activeOn?, has_insert]
  split
  · rfl
  · rfl

theorem placeOf_insertInbound {pending : Pending} :
    { registry with inbound := registry.inbound.insert conn pending }.placeOf other =
      if other = conn then { registry.placeOf other with isAccepted := true }
      else registry.placeOf other := by
  simp only [placeOf, activeOn?, has_insert]
  split
  · rfl
  · rfl

/-- A new connection that is refused is closed, and nothing else happens. -/
theorem DealsWith.refuse (h : DealsWith peer registry) (hnew : registry.placeOf conn = .unknown) :
    DealsWith peer (registry.close conn) ∧ KeepsTerms registry (registry.close conn) ∧
    ∀ other, (registry.close conn).placeOf other =
      if other = conn then .closed else registry.placeOf other := by
  have hplaces : ∀ other, (registry.close conn).placeOf other =
      if other = conn then .closed else registry.placeOf other := by
    intro other
    rw [placeOf_close]
    split
    · rename_i hsame
      rw [hsame, hnew]
      rfl
    · rfl
  refine ⟨?_, (KeepsTerms.refl registry).close conn, hplaces⟩
  exact h.shrink ((Shrinks.refl registry).close conn) close_bans
    (single_of_update h.single (Or.inr (Or.inr (Or.inr (Or.inr rfl)))) hplaces)
    (close_teardown h.teardown)

/-- A dial that is taken is the only one. -/
theorem DealsWith.insertOutbound (h : DealsWith peer registry) {now : Nat}
    (hnew : registry.placeOf conn = .unknown) (hnode : node.idHash = peer)
    (hdialing : ¬registry.IsDialing) (hinsert : registry.insertOutbound now node conn = .ok after) :
    DealsWith peer after ∧ KeepsTerms registry after ∧
    ∀ other, after.placeOf other = if other = conn then .dialed else registry.placeOf other := by
  have hcoherent := h.coherent.insertOutbound hinsert
  obtain ⟨_, _, _, _, _, heq⟩ := insertOutbound_ok hinsert
  have hplaces : ∀ other, after.placeOf other =
      if other = conn then .dialed else registry.placeOf other := by
    intro other
    rw [heq, placeOf_insertOutbound]
    split
    · rename_i hsame
      rw [hsame, hnew]
      rfl
    · rfl
  refine ⟨⟨hcoherent, ?_, ?_, ?_, ?_, ?_⟩, ?_, hplaces⟩
  · rw [heq, h.outbound_nil hdialing]
    refine Or.inr ⟨_, rfl, ?_⟩
    simp [Pending.isWith, hnode]
  · rw [heq]
    exact h.active
  · rw [heq]
    exact h.bans
  · exact single_of_update h.single (Or.inr (Or.inl rfl)) hplaces
  · rw [heq]
    exact h.teardown
  · rw [heq]
    exact ⟨rfl, rfl, rfl⟩

/-- A dial is taken unless the peer is active or dialed already; then it is closed. -/
theorem DealsWith.promoteToOutbound (h : DealsWith peer registry) (now : Nat)
    (hnew : registry.placeOf conn = .unknown) (hself : registry.isSelf node = false)
    (hnode : node.idHash = peer)
    (hroom : registry.active.length + registry.outbound.length < registry.limits.maxActive) :
    DealsWith peer (registry.promoteToOutbound now node conn).1 ∧
    KeepsTerms registry (registry.promoteToOutbound now node conn).1 ∧
    (((registry.promoteToOutbound now node conn).2 = .ok () ∧
        ¬registry.IsJoined ∧ ¬registry.IsDialing ∧
        ∀ other, (registry.promoteToOutbound now node conn).1.placeOf other =
          if other = conn then .dialed else registry.placeOf other) ∨
      ((∃ error, (registry.promoteToOutbound now node conn).2 = .error error) ∧
        (registry.IsJoined ∨ registry.IsDialing) ∧
        ∀ other, (registry.promoteToOutbound now node conn).1.placeOf other =
          if other = conn then .closed else registry.placeOf other)) := by
  subst hnode
  have hbanned := h.not_banned now node.idHash
  obtain ⟨hrefused, hterms, hclosed⟩ := h.refuse hnew
  by_cases hjoined : registry.IsJoined
  · have hoffer : registry.promoteToOutbound now node conn =
        (registry.close conn, .error .alreadyActive) := by
      simp [Registry.promoteToOutbound, Registry.insertOutbound, hself, hbanned,
        h.isActive_eq.mpr hjoined, settleOffer]
    rw [hoffer]
    exact ⟨hrefused, hterms, Or.inr ⟨⟨_, rfl⟩, Or.inl hjoined, hclosed⟩⟩
  have hactive := h.not_active hjoined
  by_cases hdialing : registry.IsDialing
  · have hoffer : registry.promoteToOutbound now node conn =
        (registry.close conn, .error .alreadyConnected) := by
      simp [Registry.promoteToOutbound, Registry.insertOutbound, hself, hbanned, hactive,
        h.isDialed_eq.mpr hdialing, settleOffer]
    rw [hoffer]
    exact ⟨hrefused, hterms, Or.inr ⟨⟨_, rfl⟩, Or.inr hdialing, hclosed⟩⟩
  have hdialed : registry.isDialed node.idHash = false :=
    Bool.eq_false_iff.mpr fun hdialed => hdialing (h.isDialed_eq.mp hdialed)
  obtain ⟨after, hinsert⟩ : ∃ after, registry.insertOutbound now node conn = .ok after := by
    simp [Registry.insertOutbound, hself, hbanned, hactive, hdialed, Nat.not_le.mpr hroom]
  have hoffer : registry.promoteToOutbound now node conn = (after, .ok ()) := by
    simp [Registry.promoteToOutbound, hinsert, settleOffer]
  obtain ⟨hdeals, hkept, hplaces⟩ := h.insertOutbound hnew rfl hdialing hinsert
  rw [hoffer]
  exact ⟨hdeals, hkept, Or.inl ⟨rfl, hjoined, hdialing, hplaces⟩⟩

/-- A socket that a peer has opened is taken while there is room. -/
theorem DealsWith.promoteToInbound (h : DealsWith peer registry) (now : Nat)
    (hnew : registry.placeOf conn = .unknown)
    (hroom : registry.active.length + registry.inbound.length < registry.limits.maxActive) :
    DealsWith peer (registry.promoteToInbound now conn).1 ∧
    KeepsTerms registry (registry.promoteToInbound now conn).1 ∧
    (registry.promoteToInbound now conn).2 = .ok () ∧
    ∀ other, (registry.promoteToInbound now conn).1.placeOf other =
      if other = conn then .accepted else registry.placeOf other := by
  obtain ⟨after, hinsert⟩ : ∃ after, registry.insertInbound now conn = .ok after := by
    simp [insertInbound, Nat.not_le.mpr hroom]
  have hoffer : registry.promoteToInbound now conn = (after, .ok ()) := by
    simp [Registry.promoteToInbound, hinsert, settleOffer]
  have hcoherent := h.coherent.insertInbound hinsert
  have heq := (insertInbound_ok hinsert).2
  have hplaces : ∀ other, after.placeOf other =
      if other = conn then .accepted else registry.placeOf other := by
    intro other
    rw [heq, placeOf_insertInbound]
    split
    · rename_i hsame
      rw [hsame, hnew]
      rfl
    · rfl
  rw [hoffer]
  refine ⟨⟨hcoherent, ?_, ?_, ?_, ?_, ?_⟩, ?_, rfl, hplaces⟩
  · rw [heq]
    exact h.outbound
  · rw [heq]
    exact h.active
  · rw [heq]
    exact h.bans
  · exact single_of_update h.single (Or.inr (Or.inr (Or.inl rfl))) hplaces
  · rw [heq]
    exact h.teardown
  · rw [heq]
    exact ⟨rfl, rfl, rfl⟩

/-! ## Joining -/

theorem placeOf_updateActive (change : Node → Node) :
    (registry.updateActive peer change).placeOf other = registry.placeOf other := by
  have hkeys : ∀ table : Table IdHash Active,
      ((table.modify peer fun active => { active with node := change active.node }).keyWhere?
        (·.conn.id == other)) = table.keyWhere? (·.conn.id == other) := by
    intro table
    induction table with
    | nil => rfl
    | cons entry rest ih =>
        obtain ⟨key, active⟩ := entry
        simp only [Table.modify] at ih ⊢
        by_cases hkey : key = peer
        · simp [Table.keyWhere?, hkey, ih]
        · simp [Table.keyWhere?, hkey, ih]
  simp only [placeOf, activeOn?, updateActive, hkeys]
  rfl

theorem DealsWith.updateActive (h : DealsWith peer registry) (change : Node → Node)
    (hchange : ∀ node, (change node).idHash = node.idHash ∧ (change node).conn = node.conn) :
    DealsWith peer (registry.updateActive peer change) where
  coherent := h.coherent.updateActive peer change hchange
  outbound := h.outbound
  active := by
    rcases h.active with hnone | ⟨⟨key, active⟩, hone, rfl⟩
    · simp [Registry.updateActive, hnone, Table.modify]
    · simp [Registry.updateActive, hone, Table.modify]
  bans := h.bans
  single := fun conn => by
    rw [placeOf_updateActive]
    exact h.single conn
  teardown := h.teardown

/-- The set of connections whose handshake is pending, as a place. -/
def Direction.place : Direction → Place
  | .inbound => .accepted
  | .outbound => .dialed

theorem activate_active (registry : Registry) (now : Nat) (direction : Direction) (conn : ConnId)
    (pending : Pending) (node : Node) (hfree : registry.active = []) :
    ∃ joined, (registry.activate now direction conn pending node).active =
      [(node.idHash, ⟨joined, pending.conn⟩)] := by
  cases direction with
  | inbound => exact ⟨_, by rw [activate, mergeKnown_idHash, hfree]; rfl⟩
  | outbound => exact ⟨_, by rw [activate, mergeKnown_idHash, hfree]; rfl⟩

theorem placeOf_activate {direction : Direction} {pending : Pending} (hfree : registry.active = [])
    (hentry : pending.conn.id = conn) (hplace : registry.placeOf conn = Direction.place direction) :
    (registry.activate now direction conn pending node).placeOf other =
      if other = conn then .active else registry.placeOf other := by
  have hjoined : ((registry.activate now direction conn pending node).activeOn? other).isSome =
      (conn == other) := by
    obtain ⟨joined, hone⟩ := registry.activate_active now direction conn pending node hfree
    rw [activeOn?, hone, Table.keyWhere?]
    by_cases hsame : conn = other
    · simp [hentry, hsame]
    · simp [hentry, hsame, Table.keyWhere?]
  have hnobody : (registry.activeOn? other).isSome = false := by
    simp [activeOn?, hfree, Table.keyWhere?]
  have houtbound : (registry.activate now direction conn pending node).outbound.has other =
      if direction = .outbound ∧ other = conn then false else registry.outbound.has other := by
    cases direction with
    | inbound => rfl
    | outbound => simp [activate, has_erase]
  have hinbound : (registry.activate now direction conn pending node).inbound.has other =
      if direction = .inbound ∧ other = conn then false else registry.inbound.has other := by
    cases direction with
    | inbound => simp [activate, has_erase]
    | outbound => rfl
  have hclosed : (registry.activate now direction conn pending node).isClosed other =
      registry.isClosed other := by
    cases direction <;> rfl
  by_cases hsame : other = conn
  · subst hsame
    simp only [placeOf, Direction.place] at hplace
    cases direction with
    | inbound =>
        obtain ⟨hdialed, _, _, hopen⟩ := Place.mk.injEq .. |>.mp hplace
        simp [placeOf, houtbound, hinbound, hclosed, hjoined, hdialed, hopen, Place.active]
    | outbound =>
        obtain ⟨_, haccepted, _, hopen⟩ := Place.mk.injEq .. |>.mp hplace
        simp [placeOf, houtbound, hinbound, hclosed, hjoined, haccepted, hopen, Place.active]
  · have hother : (conn == other) = false := by simpa using Ne.symm hsame
    simp [placeOf, houtbound, hinbound, hclosed, hjoined, hnobody, hother, hsame]

theorem activate_keepsTerms (registry : Registry) (now : Nat) (direction : Direction) (conn : ConnId)
    (pending : Pending) (node : Node) :
    KeepsTerms registry (registry.activate now direction conn pending node) := by
  cases direction with
  | inbound => exact ⟨rfl, rfl, rfl⟩
  | outbound => exact ⟨rfl, rfl, rfl⟩

/-- The node that was dialed joins when it accepts. -/
theorem DealsWith.promote_dialed (h : DealsWith peer registry) (now : Nat)
    (hplace : registry.placeOf conn = .dialed) (hself : registry.isSelf node = false)
    (hnode : node.idHash = peer) (hroom : 0 < registry.limits.maxActive) :
    ∃ after, registry.promoteToActive now conn .outbound node = .ok after ∧
      DealsWith peer after ∧ KeepsTerms registry after ∧
      ∀ other, after.placeOf other = if other = conn then .active else registry.placeOf other := by
  subst hnode
  obtain ⟨pending, hone, hwith⟩ := h.dialed_entry (congrArg Place.isDialed hplace)
  have hjoined : ¬registry.IsJoined := h.not_joined ⟨conn, congrArg Place.isDialed hplace⟩
  have hactive := h.not_active hjoined
  have hfree := h.active_nil hjoined
  have hfound : registry.outbound.find? conn = some pending := by simp [hone, Table.find?]
  have hentry := (h.coherent.outbound_entry conn pending (by simp [hone])).1
  have hpromote : registry.promoteToActive now conn .outbound node =
      .ok (registry.activate now .outbound conn pending node) := by
    have hbanned := h.not_banned now node.idHash
    have hspace := h.not_full hjoined hroom
    simp only [Registry.promoteToActive, hself, pendingSet, hfound, hbanned, hactive, hspace,
      yieldDial]
    rfl
  have hplaces : ∀ other, (registry.activate now .outbound conn pending node).placeOf other =
      if other = conn then .active else registry.placeOf other :=
    fun other => placeOf_activate hfree hentry hplace
  refine ⟨_, hpromote, ⟨?_, ?_, ?_, ?_, ?_, ?_⟩, activate_keepsTerms _ _ _ _ _ _, hplaces⟩
  · refine h.coherent.promoteToActive ?_ hpromote
    simp [namesDialed, hfound, hwith]
  · apply Or.inl
    simp [activate, hone, Table.erase]
  · obtain ⟨joined, hactive⟩ := registry.activate_active now .outbound conn pending node hfree
    exact Or.inr ⟨_, hactive, rfl⟩
  · exact h.bans
  · exact single_of_update h.single (Or.inr (Or.inr (Or.inr (Or.inl rfl)))) hplaces
  · exact h.teardown

/-- A dial that yields is closed; nothing else happens to a connection. -/
theorem DealsWith.yieldDial (h : DealsWith peer registry)
    (hyields : registry.IsDialing → peer < registry.self.idHash) :
    ∃ middle, registry.yieldDial .inbound peer = .ok middle ∧ DealsWith peer middle ∧
      KeepsTerms registry middle ∧ middle.inbound = registry.inbound ∧
      middle.outbound = [] ∧ middle.active = registry.active ∧
      ∀ other, middle.placeOf other =
        if (registry.placeOf other).isDialed then .closed else registry.placeOf other := by
  by_cases hdialing : registry.IsDialing
  · obtain ⟨conn, hplace⟩ := hdialing
    obtain ⟨pending, hone, hwith⟩ := h.dialed_entry hplace
    have hdial : registry.dialTo? peer = some conn := by
      simp [dialTo?, hone, Table.keyWhere?, hwith]
    have hclosed : ∀ other, ({ registry with outbound := registry.outbound.erase conn }.close
        conn).placeOf other = if other = conn then .closed else registry.placeOf other := by
      intro other
      rw [placeOf_close, placeOf_eraseOutbound]
      split
      · rename_i hsame
        rcases h.single conn with hconn | hconn | hconn | hconn | hconn <;> rw [hconn] at hplace
        · cases hplace
        · rw [hsame, hconn]
          rfl
        · cases hplace
        · cases hplace
        · cases hplace
      · rfl
    have hplaces : ∀ other, ({ registry with outbound := registry.outbound.erase conn }.close
        conn).placeOf other =
          if (registry.placeOf other).isDialed then .closed else registry.placeOf other := by
      intro other
      rw [hclosed]
      by_cases hsame : other = conn
      · rw [if_pos hsame, hsame, if_pos hplace]
      · have hother : (registry.placeOf other).isDialed = false := by
          simp [placeOf, hone, Table.has, Table.find?, Ne.symm hsame]
        rw [if_neg hsame, if_neg (by simp [hother])]
    have hyield : registry.yieldDial .inbound peer =
        .ok ({ registry with outbound := registry.outbound.erase conn }.close conn) := by
      simp [Registry.yieldDial, hdial, hyields ⟨conn, hplace⟩]
    refine ⟨_, hyield, ?_, ?_, close_inbound, ?_, close_active, hplaces⟩
    · refine h.shrink ((erase_outbound_shrinks registry conn).close conn) close_bans ?_
        (close_teardown h.teardown)
      exact single_of_update h.single (Or.inr (Or.inr (Or.inr (Or.inr rfl)))) hclosed
    · refine KeepsTerms.close ?_ conn
      exact ⟨rfl, rfl, rfl⟩
    · rw [close_outbound]
      simp [hone, Table.erase]
  · have hnone := h.outbound_nil hdialing
    have hyield : registry.yieldDial .inbound peer = .ok registry := by
      simp [Registry.yieldDial, dialTo?, hnone, Table.keyWhere?]
    refine ⟨registry, hyield, h, KeepsTerms.refl registry, rfl, hnone, rfl, ?_⟩
    intro other
    have hother : (registry.placeOf other).isDialed = false :=
      Bool.eq_false_iff.mpr fun hplace => hdialing ⟨other, hplace⟩
    rw [if_neg (by simp [hother])]

/--
A node that has made a request joins, unless it is active already, or is being
dialed by a node with the smaller hash. Whatever is being dialed yields.
-/
theorem DealsWith.promote_accepted (h : DealsWith peer registry) (now : Nat)
    (hplace : registry.placeOf conn = .accepted) (hself : registry.isSelf node = false)
    (hnode : node.idHash = peer) (hroom : 0 < registry.limits.maxActive) :
    ((∃ error, registry.promoteToActive now conn .inbound node = .error error) ∧
      (registry.IsJoined ∨ registry.IsDialing ∧ ¬peer < registry.self.idHash)) ∨
    ∃ after, registry.promoteToActive now conn .inbound node = .ok after ∧
      DealsWith peer after ∧ KeepsTerms registry after ∧ ¬registry.IsJoined ∧
      (registry.IsDialing → peer < registry.self.idHash) ∧
      ∀ other, after.placeOf other =
        if other = conn then .active
        else if (registry.placeOf other).isDialed then .closed else registry.placeOf other := by
  subst hnode
  obtain ⟨pending, hmem⟩ := Table.has_iff.mp (show registry.inbound.has conn = true from
    congrArg Place.isAccepted hplace)
  have hfound := Table.find?_of_mem h.coherent.inbound_keys hmem
  have hentry := (h.coherent.inbound_entry conn pending hmem).1
  have hbanned := h.not_banned now node.idHash
  by_cases hjoined : registry.IsJoined
  · left
    refine ⟨⟨.alreadyActive, ?_⟩, Or.inl hjoined⟩
    simp [Registry.promoteToActive, hself, pendingSet, hfound, hbanned, h.isActive_eq.mpr hjoined]
  have hactive := h.not_active hjoined
  have hfree := h.active_nil hjoined
  have hspace := h.not_full hjoined hroom
  have hpromote : registry.promoteToActive now conn .inbound node =
      (registry.yieldDial .inbound node.idHash).map
        (·.activate now .inbound conn pending node) := by
    simp only [Registry.promoteToActive, hself, pendingSet, hfound, hbanned, hactive, hspace]
    rfl
  by_cases hyields : registry.IsDialing → node.idHash < registry.self.idHash
  · right
    obtain ⟨middle, hyield, hmiddle, hterms, hinbound, hnone, hsame, hplaces⟩ := h.yieldDial hyields
    have hok : registry.promoteToActive now conn .inbound node =
        .ok (middle.activate now .inbound conn pending node) := by
      rw [hpromote, hyield]
      rfl
    have hstays : middle.placeOf conn = Direction.place .inbound := by
      rw [hplaces, hplace]
      rfl
    have hafter : ∀ other, (middle.activate now .inbound conn pending node).placeOf other =
        if other = conn then .active else middle.placeOf other :=
      fun other => placeOf_activate (hsame.trans hfree) hentry hstays
    have hkeeps := middle.activate_keepsTerms now .inbound conn pending node
    refine ⟨_, hok, ⟨?_, ?_, ?_, ?_, ?_, ?_⟩, hterms.trans hkeeps, hjoined, hyields, ?_⟩
    · exact h.coherent.promoteToActive rfl hok
    · exact Or.inl hnone
    · obtain ⟨joined, hone⟩ :=
        middle.activate_active now .inbound conn pending node (hsame.trans hfree)
      exact Or.inr ⟨_, hone, rfl⟩
    · exact hmiddle.bans
    · exact single_of_update hmiddle.single (Or.inr (Or.inr (Or.inr (Or.inl rfl)))) hafter
    · exact hmiddle.teardown
    · intro other
      rw [hafter, hplaces]
  · left
    obtain ⟨hdialing, hless⟩ := Classical.not_imp.mp hyields
    obtain ⟨dialing, hdialed⟩ := Option.isSome_iff_exists.mp (h.isDialed_eq.mpr hdialing)
    refine ⟨⟨.alreadyConnected, ?_⟩, Or.inr ⟨hdialing, hless⟩⟩
    rw [hpromote]
    simp [Registry.yieldDial, hdialed, hless, Except.map]

end Registry

end Peering
