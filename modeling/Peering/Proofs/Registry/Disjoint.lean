import Peering.Proofs.Registry.Filing

/-!
# The sets of the registry stay disjoint

A peer is in one set at most, the queue of candidates has no peer twice, no peer
is dialed on two connections, and every entry stands under its own key. These
facts hold together only: an active peer is refused as a candidate because it is
found under its key, and a dial is found, so that it can yield, because it is
the only one to its peer.
-/

namespace Peering

namespace Registry

/-- Every entry of the sets agrees with the others, and with the key under which it stands. -/
structure Coherent (registry : Registry) : Prop where
  temp_nodup : (registry.temp.map (·.idHash)).Nodup
  outbound_keys : registry.outbound.keys.Nodup
  inbound_keys : registry.inbound.keys.Nodup
  active_keys : registry.active.keys.Nodup
  temp_not_dialed : ∀ node ∈ registry.temp, registry.isDialed node.idHash = false
  temp_not_active : ∀ node ∈ registry.temp, registry.isActive node.idHash = false
  dialed_not_active : ∀ peer, registry.isDialed peer = true → registry.isActive peer = false
  dialed_once : ∀ peer first second firstPending secondPending,
    (first, firstPending) ∈ registry.outbound → firstPending.isWith peer = true →
    (second, secondPending) ∈ registry.outbound → secondPending.isWith peer = true →
    first = second
  outbound_entry : ∀ conn pending, (conn, pending) ∈ registry.outbound →
    pending.conn.id = conn ∧ ∃ node, pending.node = some node ∧ node.conn = some conn
  inbound_entry : ∀ conn pending, (conn, pending) ∈ registry.inbound →
    pending.conn.id = conn ∧ pending.node = none
  active_entry : ∀ peer active, (peer, active) ∈ registry.active →
    active.node.idHash = peer ∧ active.node.conn = some active.conn.id

variable {registry after : Registry} {now : Nat} {conn : ConnId} {peer : IdHash}

theorem Coherent.filed (hcoherent : Coherent registry) : Filed registry :=
  { hcoherent with }

theorem Coherent.clashes (hcoherent : Coherent registry) (peer : IdHash) :
    registry.clashes peer = false := by
  cases hdialed : registry.isDialed peer with
  | false => simp [Registry.clashes, hdialed]
  | true => simp [Registry.clashes, hcoherent.dialed_not_active peer hdialed]

/-- Filed entries agree if no active peer is dialed. -/
theorem Filed.coherent (hfiled : Filed registry) (hfree : ∀ peer, registry.clashes peer = false) :
    Coherent registry :=
  { hfiled with
    dialed_not_active := fun peer hdialed => by simpa [Registry.clashes, hdialed] using hfree peer }

theorem coherent_create (self : Identity) (limits : Limits) :
    Coherent (Registry.create self limits) :=
  (filed_create self limits).coherent fun _ => rfl

/-! ## What the moves keep -/

/-- No move that only takes entries away can make them disagree. -/
theorem Coherent.shrink (hcoherent : Coherent registry) (hshrinks : Shrinks registry after) :
    Coherent after :=
  (hcoherent.filed.shrink hshrinks).coherent fun peer => hshrinks.clashes (hcoherent.clashes peer)

/-- Coherence speaks of the four sets only. -/
theorem Coherent.of_same_sets (hcoherent : Coherent registry)
    (htemp : after.temp = registry.temp) (houtbound : after.outbound = registry.outbound)
    (hinbound : after.inbound = registry.inbound) (hactive : after.active = registry.active) :
    Coherent after :=
  hcoherent.shrink ⟨htemp ▸ List.Sublist.refl _, houtbound ▸ List.Sublist.refl _,
    hinbound ▸ List.Sublist.refl _, hactive ▸ List.Sublist.refl _⟩

/-- A peer that is neither active nor dialed can be dialed on a connection. -/
theorem Coherent.insertOutbound {node : Node} (hcoherent : Coherent registry)
    (hinsert : registry.insertOutbound now node conn = .ok after) : Coherent after :=
  (hcoherent.filed.insertOutbound hinsert).coherent fun peer =>
    insertOutbound_clashes hinsert (hcoherent.clashes peer)

theorem Coherent.insertInbound (hcoherent : Coherent registry)
    (hinsert : registry.insertInbound now conn = .ok after) : Coherent after := by
  refine (hcoherent.filed.insertInbound hinsert).coherent fun peer => ?_
  rw [(insertInbound_ok hinsert).2]
  exact hcoherent.clashes peer

/-- The promotion of a dialed connection overlooks no dial, if it names the peer that was dialed. -/
theorem Filed.overlooks_of_namesDialed {move : Move} (hfiled : Filed registry)
    (hnames : registry.namesDialed move = true) (peer : IdHash) :
    registry.overlooks peer move = false := by
  cases move with
  | promoteToActive now conn direction node =>
      cases hpromote : registry.promoteToActive now conn direction node with
      | error error => simp [overlooks, hpromote, Except.isOk, Except.toBool]
      | ok after =>
          by_cases hpeer : node.idHash = peer
          · subst hpeer
            refine Bool.and_eq_false_iff.mpr (Or.inr ?_)
            cases direction with
            | inbound => rfl
            | outbound =>
                obtain ⟨_, _, _, _, pending, _, hpending, _⟩ := promoteToActive_ok hpromote
                have hfound : registry.outbound.find? conn = some pending := hpending
                have hwith : pending.isWith node.idHash = true := by
                  simpa [namesDialed, hfound] using hnames
                exact hfiled.not_dialed_of_erase (Table.mem_of_find? hpending) hwith
          · simp [overlooks, hpeer]
  | _ => rfl

theorem Coherent.perform {move : Move} (hcoherent : Coherent registry)
    (hnames : registry.namesDialed move = true) : Coherent (registry.perform move) := by
  refine (hcoherent.filed.perform move).coherent fun peer => ?_
  rw [hcoherent.filed.clashes_perform move (hcoherent.clashes peer)]
  exact hcoherent.filed.overlooks_of_namesDialed hnames peer

theorem Coherent.promoteToActive {direction : Direction} {node : Node}
    (hcoherent : Coherent registry)
    (hnames : registry.namesDialed (.promoteToActive now conn direction node) = true)
    (hpromote : registry.promoteToActive now conn direction node = .ok after) :
    Coherent after := by
  have hperform := hcoherent.perform hnames
  rwa [Registry.perform, hpromote, unlessRefused] at hperform

theorem Coherent.updateActive (hcoherent : Coherent registry) (peer : IdHash)
    (change : Node → Node)
    (hchange : ∀ node, (change node).idHash = node.idHash ∧ (change node).conn = node.conn) :
    Coherent (registry.updateActive peer change) := by
  refine (hcoherent.filed.updateActive peer change hchange).coherent fun other => ?_
  rw [Registry.clashes, isActive_updateActive]
  exact hcoherent.clashes other

/-! ## Histories -/

theorem coherent_run (self : Identity) (limits : Limits) (moves : List Move)
    (hnames : (Registry.create self limits).allNameDialed moves = true) :
    Coherent ((Registry.create self limits).run moves) :=
  run_preserves (fun _ _ h hname => h.perform hname) moves (coherent_create self limits) hnames

/-! ## Membership -/

theorem Coherent.length_membership_le (hcoherent : Coherent registry) (peer : IdHash) :
    (registry.membership peer).length ≤ 1 := by
  have hclashes := hcoherent.filed.one_lt_length_membership peer
  rw [hcoherent.clashes peer] at hclashes
  exact Nat.not_lt.mp (mt hclashes.mp Bool.false_ne_true)

/--
The sets are disjoint after every history from the empty registry, and every
entry stands under its own key: a connection that is shaking hands under its
handle, an active one under the hash of its node, which records the handle.
-/
theorem run_sets_disjoint (self : Identity) (limits : Limits) (moves : List Move)
    (hnames : (Registry.create self limits).allNameDialed moves = true) :
    let registry := (Registry.create self limits).run moves
    (∀ peer, (registry.membership peer).length ≤ 1) ∧
    (registry.temp.map (·.idHash)).Nodup ∧
    (∀ peer first second firstPending secondPending,
      (first, firstPending) ∈ registry.outbound → firstPending.isWith peer = true →
      (second, secondPending) ∈ registry.outbound → secondPending.isWith peer = true →
      first = second) ∧
    (∀ peer active, (peer, active) ∈ registry.active → active.node.idHash = peer) ∧
    (∀ conn pending, (conn, pending) ∈ registry.outbound →
      pending.conn.id = conn ∧ ∃ node, pending.node = some node ∧ node.conn = some conn) ∧
    (∀ conn pending, (conn, pending) ∈ registry.inbound → pending.conn.id = conn) ∧
    (∀ peer active, (peer, active) ∈ registry.active →
      active.node.conn = some active.conn.id) := by
  intro registry
  have hcoherent : Coherent registry := coherent_run self limits moves hnames
  refine ⟨hcoherent.length_membership_le, hcoherent.temp_nodup, hcoherent.dialed_once, ?_,
    hcoherent.outbound_entry, ?_, ?_⟩
  · exact fun peer active hmem => (hcoherent.active_entry peer active hmem).1
  · exact fun conn pending hmem => (hcoherent.inbound_entry conn pending hmem).1
  · exact fun peer active hmem => (hcoherent.active_entry peer active hmem).2

/-- Both peers end up active, one of them on the connection that it opened itself. -/
theorem run_sets_disjoint_of_crossing :
    crossingStart.allNameDialed crossing = true ∧
      (∀ peer, ((crossingStart.run crossing).membership peer).length ≤ 1) ∧
      (crossingStart.run crossing).membership (repeatedNode 0x61).idHash = [.active] := by
  have hnames : crossingStart.allNameDialed crossing = true := by decide +kernel
  exact ⟨hnames, (run_sets_disjoint _ _ crossing hnames).1, by decide +kernel⟩

end Registry

end Peering
