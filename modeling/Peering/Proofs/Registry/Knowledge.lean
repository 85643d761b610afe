import Peering.Proofs.Registry.Disjoint

/-!
# What is known of a peer that becomes active

How far a peer's chain is, and whether the peer is a boot node, may be known before the
peer is active: a candidate in the queue comes with it, and so does a node that is
dialed. A promotion adds what was known of the node that was dialed on the promoted
connection to what its caller knows, and to nothing else: a candidate that leaves the
queue and a dial that yields go without a look at what they knew.

Main statement: a node that becomes active covers every entry for its peer if and only if
it covers those that the promotion overlooks. A dialed connection that is promoted for
the peer that was dialed there overlooks none; an accepted connection overlooks all.
-/

namespace Peering

/-- All that is known of one node's chain, and of where the node came from, is known of another. -/
structure Node.Covers (node known : Node) : Prop where
  bestBlock : known.bestBlock ≤ node.bestBlock
  totalDifficulty : known.totalDifficulty ≤ node.totalDifficulty
  boot : known.fromBootList = true → node.fromBootList = true

theorem Node.Covers.refl (node : Node) : node.Covers node :=
  ⟨UInt64.le_refl _, BitVec.le_refl _, fun hboot => hboot⟩

theorem Node.Covers.trans {first second third : Node} (hfirst : first.Covers second)
    (hsecond : second.Covers third) : first.Covers third :=
  ⟨UInt64.le_trans hsecond.bestBlock hfirst.bestBlock,
    BitVec.le_trans hsecond.totalDifficulty hfirst.totalDifficulty,
    fun hboot => hfirst.boot (hsecond.boot hboot)⟩

namespace Registry

variable {registry after : Registry} {now : Nat} {conn : ConnId} {direction : Direction}
  {peer : IdHash} {node other known : Node}

/-! ## What two nodes know together -/

theorem max_le_iff {first second bound : UInt64} :
    max first second ≤ bound ↔ first ≤ bound ∧ second ≤ bound := by
  show (if first ≤ second then second else first) ≤ bound ↔ _
  simp only [UInt64.le_iff_toNat_le]
  split <;> omega

theorem greater_le_iff {first second bound : BitVec 128} :
    (if first < second then second else first) ≤ bound ↔ first ≤ bound ∧ second ≤ bound := by
  simp only [BitVec.le_def, BitVec.lt_def]
  split <;> omega

/-- A merged node knows what each of the two knew, and no more. -/
theorem covers_mergeKnown_iff (other node : Node) (dialed : Option Node) :
    other.Covers (mergeKnown node dialed) ↔
      other.Covers node ∧ ∀ known, dialed = some known → other.Covers known := by
  cases dialed with
  | none =>
      constructor
      · exact fun h => ⟨h, fun _ hnone => nomatch hnone⟩
      · exact fun h => h.1
  | some dialed =>
      constructor
      · intro h
        obtain ⟨hblock, hdialed⟩ := max_le_iff.mp h.bestBlock
        obtain ⟨hdifficulty, hgreater⟩ := greater_le_iff.mp h.totalDifficulty
        refine ⟨⟨hblock, hdifficulty, fun hboot => h.boot ?_⟩, ?_⟩
        · exact Bool.or_eq_true_iff.mpr (Or.inl hboot)
        · rintro _ ⟨rfl⟩
          exact ⟨hdialed, hgreater, fun hboot => h.boot (Bool.or_eq_true_iff.mpr (Or.inr hboot))⟩
      · rintro ⟨hnode, hknown⟩
        have hdialed := hknown dialed rfl
        refine ⟨max_le_iff.mpr ⟨hnode.bestBlock, hdialed.bestBlock⟩,
          greater_le_iff.mpr ⟨hnode.totalDifficulty, hdialed.totalDifficulty⟩, fun hboot => ?_⟩
        exact (Bool.or_eq_true_iff.mp hboot).elim hnode.boot hdialed.boot

/-! ## The entries for a peer -/

/-- The nodes that are being dialed. -/
def dialedNodes (dials : Table ConnId Pending) : List Node :=
  dials.values.filterMap (·.node)

theorem mem_dialedNodes {dials : Table ConnId Pending} : known ∈ dialedNodes dials ↔
    ∃ conn pending, (conn, pending) ∈ dials ∧ pending.node = some known := by
  simp only [dialedNodes, Table.values, List.mem_filterMap, List.mem_map]
  constructor
  · rintro ⟨pending, ⟨⟨conn, _⟩, hmem, rfl⟩, hknown⟩
    exact ⟨conn, _, hmem, hknown⟩
  · rintro ⟨conn, pending, hmem, hknown⟩
    exact ⟨pending, ⟨(conn, pending), hmem, rfl⟩, hknown⟩

/-- The entries for a peer in the queue and among the dials. -/
def entriesFor (registry : Registry) (peer : IdHash) : List Node :=
  (registry.temp ++ dialedNodes registry.outbound).filter (·.idHash = peer)

/-- The node that was dialed on a connection; an accepted connection has none. -/
def dialedOn (registry : Registry) (direction : Direction) (conn : ConnId) : Option Node :=
  ((registry.pendingSet direction).find? conn).bind (·.node)

/-- The entries for a peer that the promotion of a connection does not look into. -/
def overlookedFor (registry : Registry) (conn : ConnId) (direction : Direction)
    (peer : IdHash) : List Node :=
  let dials := match direction with
    | .inbound => registry.outbound
    | .outbound => registry.outbound.erase conn
  (registry.temp ++ dialedNodes dials).filter (·.idHash = peer)

theorem mem_entriesFor : known ∈ registry.entriesFor peer ↔
    (known ∈ registry.temp ∨
      ∃ conn pending, (conn, pending) ∈ registry.outbound ∧ pending.node = some known) ∧
      known.idHash = peer := by
  rw [entriesFor, List.mem_filter, List.mem_append, mem_dialedNodes, decide_eq_true_iff]

/-- An entry is overlooked unless it is the one that is promoted. -/
theorem overlooked_or_dialedOn (hkeys : registry.outbound.keys.Nodup)
    (hmem : known ∈ registry.entriesFor peer) :
    known ∈ registry.overlookedFor conn direction peer ∨
      registry.dialedOn direction conn = some known := by
  obtain ⟨hentry, hpeer⟩ := mem_entriesFor.mp hmem
  cases direction with
  | inbound => exact Or.inl hmem
  | outbound =>
      rcases hentry with htemp | ⟨key, pending, hdial, hnode⟩
      · exact Or.inl (List.mem_filter.mpr ⟨List.mem_append_left _ htemp, decide_eq_true hpeer⟩)
      · by_cases hkey : key = conn
        · subst hkey
          refine Or.inr ?_
          rw [dialedOn, pendingSet, Table.find?_of_mem hkeys hdial]
          exact hnode
        · refine Or.inl (List.mem_filter.mpr ⟨List.mem_append_right _ ?_, decide_eq_true hpeer⟩)
          exact mem_dialedNodes.mpr ⟨key, pending, Table.mem_erase.mpr ⟨hkey, hdial⟩, hnode⟩

theorem overlookedFor_subset (registry : Registry) (conn : ConnId) (direction : Direction)
    (peer : IdHash) : registry.overlookedFor conn direction peer ⊆ registry.entriesFor peer := by
  cases direction with
  | inbound => exact List.Subset.refl _
  | outbound =>
      intro known hmem
      obtain ⟨hentry, hpeer⟩ := List.mem_filter.mp hmem
      refine List.mem_filter.mpr ⟨?_, hpeer⟩
      refine (List.mem_append.mp hentry).elim (List.mem_append_left _) fun hdial => ?_
      obtain ⟨key, pending, hkept, hnode⟩ := mem_dialedNodes.mp hdial
      exact List.mem_append_right _
        (mem_dialedNodes.mpr ⟨key, pending, (Table.mem_erase.mp hkept).2, hnode⟩)

/-- The promotion for the peer that was dialed on the connection overlooks no entry. -/
theorem Filed.overlookedFor_eq_nil (hfiled : Filed registry) {pending : Pending}
    (hdial : registry.outbound.find? conn = some pending) (hwith : pending.isWith peer = true) :
    registry.overlookedFor conn .outbound peer = [] := by
  have hmem := Table.mem_of_find? hdial
  refine List.filter_eq_nil_iff.mpr fun known hknown hsame => ?_
  have hpeer : known.idHash = peer := of_decide_eq_true hsame
  rcases List.mem_append.mp hknown with htemp | hother
  · have hfree := hfiled.temp_not_dialed known htemp
    rw [hpeer, ← Bool.not_eq_true, isDialed_iff] at hfree
    exact hfree ⟨conn, pending, hmem, hwith⟩
  · obtain ⟨key, dialed, hkept, hnode⟩ := mem_dialedNodes.mp hother
    obtain ⟨hkey, hentry⟩ := Table.mem_erase.mp hkept
    exact hkey (hfiled.dialed_once peer key conn dialed pending hentry
      (isWith_iff.mpr ⟨known, hnode, hpeer⟩) hmem hwith)

/-! ## The node that becomes active -/

/-- The active node knows what the caller and the promoted dial knew. -/
theorem promoteToActive_knows
    (hpromote : registry.promoteToActive now conn direction node = .ok after) :
    ∃ active, after.activeNode? node.idHash = some active ∧ ∀ other : Node,
      other.Covers active ↔ other.Covers node ∧
        ∀ known, registry.dialedOn direction conn = some known → other.Covers known := by
  obtain ⟨_, _, _, _, pending, middle, hpending, _, rfl⟩ := promoteToActive_ok hpromote
  let active := { mergeKnown node pending.node with
    conn := some conn, since := now, lastSeen := now }
  have hhash : (mergeKnown node pending.node).idHash = node.idHash := mergeKnown_idHash _ _
  have hfound : (middle.activate now direction conn pending node).activeNode? node.idHash =
      some active := by
    have hactive : (middle.activate now direction conn pending node).active =
        middle.active.insert (mergeKnown node pending.node).idHash ⟨active, pending.conn⟩ := by
      cases direction <;> rfl
    rw [activeNode?, hactive, hhash, Table.find?_insert, if_pos rfl]
    rfl
  have hdialed : registry.dialedOn direction conn = pending.node := by
    rw [dialedOn, hpending]
    rfl
  refine ⟨active, hfound, fun other => ?_⟩
  rw [hdialed, ← covers_mergeKnown_iff]
  exact ⟨fun h => ⟨h.bestBlock, h.totalDifficulty, h.boot⟩,
    fun h => ⟨h.bestBlock, h.totalDifficulty, h.boot⟩⟩

/--
In every history, whichever peers the callers name: a node that has just become active
knows what its caller and the dial on its connection knew, and no more. So it covers
every entry that there was for its peer if and only if it covers those that were
overlooked. If the connection was accepted, these are all of them, and the caller alone
has to cover them; if it was dialed and is promoted for the peer that was dialed there,
nothing is overlooked, and every entry is covered.
-/
theorem live_promotion_covers (self : Identity) (limits : Limits) (events : List Event) :
    let registry := (Registry.create self limits).live events
    ∀ now conn direction peer after, registry.promoteToActive now conn direction peer = .ok after →
      ∃ active, after.activeNode? peer.idHash = some active ∧
        (∀ other : Node, other.Covers active ↔ other.Covers peer ∧
          ∀ known, registry.dialedOn direction conn = some known → other.Covers known) ∧
        ((∀ known ∈ registry.entriesFor peer.idHash, active.Covers known) ↔
          ∀ known ∈ registry.overlookedFor conn direction peer.idHash, active.Covers known) ∧
        (direction = .inbound → ((∀ known ∈ registry.entriesFor peer.idHash, active.Covers known) ↔
          ∀ known ∈ registry.entriesFor peer.idHash, peer.Covers known)) ∧
        (direction = .outbound →
          registry.namesDialed (.promoteToActive now conn direction peer) = true →
          ∀ known ∈ registry.entriesFor peer.idHash, active.Covers known) := by
  intro registry now conn direction peer after hpromote
  have hfiled : Filed registry := filed_live self limits events
  obtain ⟨active, hactive, hknows⟩ := promoteToActive_knows hpromote
  have hself := (hknows active).mp (.refl active)
  have hoverlooked : (∀ known ∈ registry.entriesFor peer.idHash, active.Covers known) ↔
      ∀ known ∈ registry.overlookedFor conn direction peer.idHash, active.Covers known :=
    ⟨fun h known hmem => h known (overlookedFor_subset _ _ _ _ hmem), fun h known hmem =>
      (overlooked_or_dialedOn hfiled.outbound_keys hmem).elim (h known) (hself.2 known)⟩
  refine ⟨active, hactive, hknows, hoverlooked, ?_, ?_⟩
  · rintro rfl
    have hnone : registry.dialedOn .inbound conn = none :=
      Option.eq_none_iff_forall_ne_some.mpr fun known hdialed => by
        obtain ⟨pending, hpending, hnode⟩ := Option.bind_eq_some_iff.mp hdialed
        have hunknown := (hfiled.inbound_entry conn pending (Table.mem_of_find? hpending)).2
        rw [hunknown] at hnode
        cases hnode
    -- The caller knows all that the active node does, and the other way round.
    have hpeer : peer.Covers active :=
      (hknows peer).mpr ⟨.refl peer, fun known hdialed => by rw [hnone] at hdialed; cases hdialed⟩
    exact ⟨fun h known hmem => hpeer.trans (h known hmem),
      fun h known hmem => hself.1.trans (h known hmem)⟩
  · rintro rfl hnames
    obtain ⟨_, _, _, _, pending, _, hpending, _⟩ := promoteToActive_ok hpromote
    have hdial : registry.outbound.find? conn = some pending := hpending
    have hwith : pending.isWith peer.idHash = true := by simpa [namesDialed, hdial] using hnames
    refine hoverlooked.mpr fun known hmem => ?_
    rw [hfiled.overlookedFor_eq_nil hdial hwith] at hmem
    cases hmem

/-- A boot node of which some blocks are known. -/
def informedNode (byte : UInt8) : Node :=
  { repeatedNode byte with bestBlock := 7, totalDifficulty := 9, fromBootList := true }

/-- A candidate is queued and then dialed. -/
def informedDial : List Event :=
  [.call (.addTemp 0 (informedNode 0x61)), .call (.promoteToOutbound 0 (informedNode 0x61) 1)]

/-- What was known of the dialed node is known of the active one. -/
theorem live_promotion_covers_of_dialed :
    let registry := crossingStart.live informedDial
    let peer := repeatedNode 0x61
    ∃ after active, registry.promoteToActive 1 1 .outbound peer = .ok after ∧
      after.activeNode? peer.idHash = some active ∧
      (registry.entriesFor peer.idHash).map (·.bestBlock) = [7] ∧
      ∀ known ∈ registry.entriesFor peer.idHash, active.Covers known := by
  intro registry peer
  have hok : (registry.promoteToActive 1 1 .outbound peer).isOk = true := by decide +kernel
  have hnames : registry.namesDialed (.promoteToActive 1 1 .outbound peer) = true := by
    decide +kernel
  have hentries : (registry.entriesFor peer.idHash).map (·.bestBlock) = [7] := by decide +kernel
  cases hpromote : registry.promoteToActive 1 1 .outbound peer with
  | error error =>
      rw [hpromote] at hok
      cases hok
  | ok after =>
      obtain ⟨active, hactive, _, _, _, hcovers⟩ :=
        live_promotion_covers _ _ informedDial 1 1 .outbound peer after hpromote
      exact ⟨after, active, rfl, hactive, hentries, hcovers rfl hnames⟩

/-- One peer waits in the queue and another one is dialed when both of them call. -/
def informedCalls : List Event :=
  [.call (.addTemp 0 (informedNode 0x63)), .call (.promoteToInbound 0 1),
    .call (.promoteToOutbound 0 (informedNode 0x61) 2), .call (.promoteToInbound 0 3)]

/-- The blocks that are known of the entries for a peer, and of the node that became active. -/
def blocksKnown (registry : Registry) (conn : ConnId) (peer : Node) :
    List UInt64 × Option UInt64 :=
  ((registry.entriesFor peer.idHash).map (·.bestBlock),
    ((registry.promoteToActive 1 conn .inbound peer).toOption.bind
      (·.activeNode? peer.idHash)).map (·.bestBlock))

/-- Both entries are gone with what they knew, the candidate and the dial that yielded. -/
theorem promoteToActive_forgets :
    let registry := crossingStart.live informedCalls
    registry.blocksKnown 1 (repeatedNode 0x63) = ([7], some 0) ∧
      registry.blocksKnown 3 (repeatedNode 0x61) = ([7], some 0) := by
  decide +kernel

end Registry

end Peering
