import Peering.Proofs.Registry.Disjoint
import Peering.Proofs.Registry.Ownership

/-!
# Handles of connections

The registry knows a connection from the moment it is offered: a set holds it,
or it has been closed. A set lets go of a connection only by closing it, and what
has been closed stays closed, so no destination ever leads to it again.
-/

namespace Peering

namespace Registry

variable {registry middle after : Registry} {now : Nat} {conn other : ConnId} {conns : List ConnId}

/-! ## What is held -/

theorem holds_iff : registry.holds conn = true ↔
    (∃ pending, (conn, pending) ∈ registry.outbound) ∨
    (∃ pending, (conn, pending) ∈ registry.inbound) ∨
    ∃ peer active, (peer, active) ∈ registry.active ∧ active.conn.id = conn := by
  simp only [holds, activeOn?, Bool.or_eq_true, Table.has_iff, Table.keyWhere?_isSome_iff,
    beq_iff_eq, or_assoc]

theorem Coherent.keyed (hcoherent : Coherent registry) : Keyed registry :=
  hcoherent.filed.keyed

/-- A pending entry stands under its own connection, so the keys tell which ones are held. -/
theorem Keyed.holds_iff_mem (hkeyed : Keyed registry) :
    registry.holds conn = true ↔ conn ∈ registry.handles := by
  rw [holds_iff, mem_handles]
  refine or_congr ?_ (or_congr ?_ Iff.rfl)
  · constructor
    · rintro ⟨pending, hmem⟩
      exact ⟨conn, pending, hmem, hkeyed.outbound_own conn pending hmem⟩
    · rintro ⟨key, pending, hmem, rfl⟩
      exact ⟨pending, (hkeyed.outbound_own key pending hmem).symm ▸ hmem⟩
  · constructor
    · rintro ⟨pending, hmem⟩
      exact ⟨conn, pending, hmem, hkeyed.inbound_own conn pending hmem⟩
    · rintro ⟨key, pending, hmem, rfl⟩
      exact ⟨pending, (hkeyed.inbound_own key pending hmem).symm ▸ hmem⟩

/-- Whether a set holds the connection, or it has been closed. -/
def Knows (registry : Registry) (conn : ConnId) : Prop :=
  registry.holds conn = true ∨ registry.isClosed conn = true

/-- A destination leads only to a connection that is held and not closed. -/
theorem Coherent.writerFor_some {dest : Destination} (hcoherent : Coherent registry)
    (hwriter : registry.writerFor dest = some conn) :
    registry.holds conn = true ∧ registry.isClosed conn = false := by
  unfold writerFor at hwriter
  obtain ⟨hfound, hopen⟩ := Option.filter_eq_some_iff.mp hwriter
  refine ⟨holds_iff.mpr ?_, by simpa using hopen⟩
  cases dest with
  | active peer =>
      obtain ⟨active, hactive, rfl⟩ := Option.map_eq_some_iff.mp hfound
      exact Or.inr (Or.inr ⟨peer, active, Table.mem_of_find? hactive, rfl⟩)
  | inbound key =>
      obtain ⟨pending, hpending, rfl⟩ := Option.map_eq_some_iff.mp hfound
      have hmem := Table.mem_of_find? hpending
      rw [(hcoherent.inbound_entry key pending hmem).1]
      exact Or.inr (Or.inl ⟨pending, hmem⟩)
  | outbound key =>
      obtain ⟨pending, hpending, rfl⟩ := Option.map_eq_some_iff.mp hfound
      have hmem := Table.mem_of_find? hpending
      rw [(hcoherent.outbound_entry key pending hmem).1]
      exact Or.inl ⟨pending, hmem⟩

/-! ## Moves among known connections -/

/-- The second registry knows the connections of the first one, and has reopened none. -/
structure Releases (registry after : Registry) : Prop where
  closed : ∀ conn, registry.isClosed conn = true → after.isClosed conn = true
  knows : ∀ conn, after.Knows conn ↔ registry.Knows conn

theorem Releases.refl (registry : Registry) : Releases registry registry :=
  ⟨fun _ h => h, fun _ => Iff.rfl⟩

theorem Releases.trans (hfirst : Releases registry middle) (hsecond : Releases middle after) :
    Releases registry after :=
  ⟨fun conn h => hsecond.closed conn (hfirst.closed conn h),
    fun conn => (hsecond.knows conn).trans (hfirst.knows conn)⟩

/-- The same connections are held, and none is closed. -/
theorem Releases.of_holds (hclosed : after.closed = registry.closed)
    (hholds : ∀ conn, after.holds conn = true ↔ registry.holds conn = true) :
    Releases registry after where
  closed := fun conn h => by rwa [isClosed, hclosed]
  knows := fun conn => by rw [Knows, Knows, hholds, isClosed, isClosed, hclosed]

/-- A move that is offered nothing closes what it lets go of. -/
theorem Settles.releases (hkeyed : Keyed registry) (hsettles : Settles registry [] after released) :
    Releases registry after where
  closed := fun conn h => (hsettles.closed conn).mpr (Or.inl h)
  knows := fun conn => by
    rw [Knows, Knows, hkeyed.holds_iff_mem, hsettles.keyed.holds_iff_mem, hsettles.closed]
    have hmem := hsettles.handles.mem_iff (a := conn)
    rw [List.nil_append, List.mem_append] at hmem
    rw [hmem, or_comm (b := conn ∈ released), ← or_assoc, or_comm (b := conn ∈ released)]

theorem Keyed.removeConn_releases (hkeyed : Keyed registry) (conn : ConnId) :
    Releases registry (registry.removeConn conn).1 := by
  obtain ⟨_, hsettles⟩ := hkeyed.removeConn_settles conn
  exact hsettles.releases hkeyed

/-- A connection that is known has been closed once it is removed. -/
theorem Keyed.isClosed_removed (hkeyed : Keyed registry) (hknown : registry.Knows conn) :
    (registry.removeConn conn).1.isClosed conn = true := by
  rcases hknown with hholds | hclosed
  · unfold removeConn
    split
    · exact isClosed_close.mpr (Or.inr rfl)
    split
    · exact isClosed_close.mpr (Or.inr rfl)
    rename_i hinbound houtbound
    split
    · rename_i peer hpeer
      obtain ⟨active, hmem, hconn⟩ := Table.mem_of_keyWhere? hpeer
      simp only [dropActive, Table.find?_of_mem hkeyed.active_keys hmem]
      exact isClosed_close.mpr (Or.inr (beq_iff_eq.mp hconn).symm)
    · rename_i hnone
      simp [holds, hinbound, houtbound, hnone] at hholds
  · exact isClosed_removeConn_of_isClosed hclosed

theorem Coherent.promoteToActive_releases {direction : Direction} {peer : Node}
    (hcoherent : Coherent registry)
    (hpromote : registry.promoteToActive now conn direction peer = .ok after) :
    Releases registry after := by
  obtain ⟨_, hsettles⟩ := hcoherent.keyed.promoteToActive_settles hpromote
  exact hsettles.releases hcoherent.keyed

theorem updateActive_releases (registry : Registry) (peer : IdHash) (change : Node → Node) :
    Releases registry (registry.updateActive peer change) := by
  refine Releases.of_holds rfl ?_
  intro conn
  simp only [holds_iff, updateActive, Table.mem_modify]
  constructor
  · rintro (h | h | ⟨key, _, ⟨_, h⟩ | ⟨_, active, h, rfl⟩, hconn⟩)
    · exact Or.inl h
    · exact Or.inr (Or.inl h)
    · exact Or.inr (Or.inr ⟨key, _, h, hconn⟩)
    · exact Or.inr (Or.inr ⟨key, active, h, hconn⟩)
  · rintro (h | h | ⟨key, active, h, hconn⟩)
    · exact Or.inl h
    · exact Or.inr (Or.inl h)
    · by_cases hkey : key = peer
      · exact Or.inr (Or.inr ⟨key, _, Or.inr ⟨hkey, active, h, rfl⟩, hconn⟩)
      · exact Or.inr (Or.inr ⟨key, active, Or.inl ⟨hkey, h⟩, hconn⟩)

theorem Keyed.perform_releases {move : Move} (hkeyed : Keyed registry)
    (hoffer : move.offer? = none) : Releases registry (registry.perform move) := by
  obtain ⟨_, hsettles⟩ := hkeyed.perform_settles move (by simp [hoffer])
  rw [hoffer] at hsettles
  exact hsettles.releases hkeyed

/-! ## Cancelled connections -/

theorem cancel_coherent (hcoherent : Coherent registry) : Coherent (registry.cancel conn) := by
  unfold cancel
  split
  · exact hcoherent
  · exact hcoherent.of_same_sets rfl rfl rfl rfl

theorem cancel_releases (hknown : registry.Knows conn) :
    Releases registry (registry.cancel conn) := by
  unfold cancel
  split
  · exact Releases.refl registry
  · constructor
    · intro other hclosed
      simp only [isClosed, List.contains_eq_mem, decide_eq_true_eq, List.mem_append] at hclosed ⊢
      exact Or.inl hclosed
    · intro other
      simp only [Knows, isClosed, List.contains_eq_mem, decide_eq_true_eq, List.mem_append,
        List.mem_singleton]
      constructor
      · rintro (h | h | rfl)
        · exact Or.inl h
        · exact Or.inr h
        · simpa [Knows, isClosed] using hknown
      · rintro (h | h)
        · exact Or.inl h
        · exact Or.inr (Or.inl h)

/-! ## Connections that are offered -/

/-- An offered connection is the only one that the registry learns of. -/
structure Learns (registry : Registry) (conn : ConnId) (after : Registry) : Prop where
  closed : ∀ other, registry.isClosed other = true → after.isClosed other = true
  knows : ∀ other, after.Knows other ↔ registry.Knows other ∨ other = conn

theorem close_learns (registry : Registry) (conn : ConnId) :
    Learns registry conn (registry.close conn) := by
  refine ⟨fun other h => isClosed_close.mpr (Or.inl h), ?_⟩
  intro other
  rw [Knows, Knows, isClosed_close, ← or_assoc]
  simp [holds, activeOn?]

theorem insertOutbound_learns {node : Node}
    (hinsert : registry.insertOutbound now node conn = .ok after) :
    Learns registry conn after := by
  obtain ⟨_, _, _, _, _, rfl⟩ := insertOutbound_ok hinsert
  refine ⟨fun _ h => h, ?_⟩
  intro other
  simp only [Knows, holds_iff, Table.mem_insert]
  constructor
  · rintro ((⟨found, ⟨_, h⟩ | ⟨rfl, _⟩⟩ | h) | h)
    · exact Or.inl (Or.inl (Or.inl ⟨found, h⟩))
    · exact Or.inr rfl
    · exact Or.inl (Or.inl (Or.inr h))
    · exact Or.inl (Or.inr h)
  · rintro (((⟨found, h⟩ | h) | h) | rfl)
    · by_cases hsame : other = conn
      · exact Or.inl (Or.inl ⟨_, Or.inr ⟨hsame, rfl⟩⟩)
      · exact Or.inl (Or.inl ⟨found, Or.inl ⟨hsame, h⟩⟩)
    · exact Or.inl (Or.inr h)
    · exact Or.inr h
    · exact Or.inl (Or.inl ⟨_, Or.inr ⟨rfl, rfl⟩⟩)

theorem insertInbound_learns (hinsert : registry.insertInbound now conn = .ok after) :
    Learns registry conn after := by
  rw [(insertInbound_ok hinsert).2]
  refine ⟨fun _ h => h, ?_⟩
  intro other
  simp only [Knows, holds_iff, Table.mem_insert]
  constructor
  · rintro ((h | ⟨found, ⟨_, h⟩ | ⟨rfl, _⟩⟩ | h) | h)
    · exact Or.inl (Or.inl (Or.inl h))
    · exact Or.inl (Or.inl (Or.inr (Or.inl ⟨found, h⟩)))
    · exact Or.inr rfl
    · exact Or.inl (Or.inl (Or.inr (Or.inr h)))
    · exact Or.inl (Or.inr h)
  · rintro (((h | ⟨found, h⟩ | h) | h) | rfl)
    · exact Or.inl (Or.inl h)
    · by_cases hsame : other = conn
      · exact Or.inl (Or.inr (Or.inl ⟨_, Or.inr ⟨hsame, rfl⟩⟩))
      · exact Or.inl (Or.inr (Or.inl ⟨found, Or.inl ⟨hsame, h⟩⟩))
    · exact Or.inl (Or.inr (Or.inr h))
    · exact Or.inr h
    · exact Or.inl (Or.inr (Or.inl ⟨_, Or.inr ⟨rfl, rfl⟩⟩))

theorem promoteToOutbound_learns (registry : Registry) (now : Nat) (node : Node) (conn : ConnId) :
    Learns registry conn (registry.promoteToOutbound now node conn).1 :=
  settleOffer_induction (fun _ hinsert => insertOutbound_learns hinsert) (close_learns _ _)

theorem promoteToInbound_learns (registry : Registry) (now : Nat) (conn : ConnId) :
    Learns registry conn (registry.promoteToInbound now conn).1 :=
  settleOffer_induction (fun _ hinsert => insertInbound_learns hinsert) (close_learns _ _)

end Registry

end Peering
