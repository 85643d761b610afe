import Peering.Proofs.Registry.Ownership

/-!
# How the entries of the registry are filed

A candidate is in no other set, no peer is dialed on two connections, and every
entry stands under its own key. The registry sees to all of it by itself: it holds
in every history, whichever peer a promotion names. What is left to the callers is
that no active peer is being dialed, and one move only can break it, see
`Filed.clashes_perform`.
-/

namespace Peering

namespace Registry

/-- Every entry stands under its own key, and a candidate stands nowhere else. -/
structure Filed (registry : Registry) : Prop where
  temp_nodup : (registry.temp.map (·.idHash)).Nodup
  outbound_keys : registry.outbound.keys.Nodup
  inbound_keys : registry.inbound.keys.Nodup
  active_keys : registry.active.keys.Nodup
  temp_not_dialed : ∀ node ∈ registry.temp, registry.isDialed node.idHash = false
  temp_not_active : ∀ node ∈ registry.temp, registry.isActive node.idHash = false
  dialed_once : ∀ peer first second firstPending secondPending,
    (first, firstPending) ∈ registry.outbound → firstPending.isWith peer = true →
    (second, secondPending) ∈ registry.outbound → secondPending.isWith peer = true →
    first = second
  outbound_entry : ∀ conn pending, (conn, pending) ∈ registry.outbound →
    pending.conn.id = conn ∧ ∃ node, pending.node = some node ∧ node.conn = some conn
  inbound_entry : ∀ conn pending, (conn, pending) ∈ registry.inbound →
    pending.conn.id = conn ∧ pending.node = none
  active_entry : ∀ peer active, (peer, active) ∈ registry.active →
    active.node.idHash = peer ∧ active.node.conn = some active.conn.id

theorem filed_create (self : Identity) (limits : Limits) : Filed (Registry.create self limits) := by
  constructor <;> simp [create, Table.keys, isActive, Table.has, Table.find?]

variable {registry after : Registry} {now : Nat} {conn : ConnId} {peer : IdHash}

theorem Filed.keyed (hfiled : Filed registry) : Keyed registry :=
  { hfiled with
    outbound_own := fun conn pending hmem => (hfiled.outbound_entry conn pending hmem).1
    inbound_own := fun conn pending hmem => (hfiled.inbound_entry conn pending hmem).1 }

/-! ## Fewer entries -/

/-- No move that only takes entries away can misfile one. -/
theorem Filed.shrink (hfiled : Filed registry) (hshrinks : Shrinks registry after) :
    Filed after where
  temp_nodup := (hshrinks.temp.map _).nodup hfiled.temp_nodup
  outbound_keys := (hshrinks.outbound.map _).nodup hfiled.outbound_keys
  inbound_keys := (hshrinks.inbound.map _).nodup hfiled.inbound_keys
  active_keys := (hshrinks.active.map _).nodup hfiled.active_keys
  temp_not_dialed := fun node hnode =>
    hshrinks.isDialed (hfiled.temp_not_dialed node (hshrinks.temp.subset hnode))
  temp_not_active := fun node hnode =>
    hshrinks.isActive (hfiled.temp_not_active node (hshrinks.temp.subset hnode))
  dialed_once := fun peer first second firstPending secondPending hfirst hwith hsecond hwith' =>
    hfiled.dialed_once peer first second firstPending secondPending
      (hshrinks.outbound.subset hfirst) hwith (hshrinks.outbound.subset hsecond) hwith'
  outbound_entry := fun conn pending hmem =>
    hfiled.outbound_entry conn pending (hshrinks.outbound.subset hmem)
  inbound_entry := fun conn pending hmem =>
    hfiled.inbound_entry conn pending (hshrinks.inbound.subset hmem)
  active_entry := fun peer active hmem =>
    hfiled.active_entry peer active (hshrinks.active.subset hmem)

/-- The filing speaks of the four sets only. -/
theorem Filed.of_same_sets (hfiled : Filed registry)
    (htemp : after.temp = registry.temp) (houtbound : after.outbound = registry.outbound)
    (hinbound : after.inbound = registry.inbound) (hactive : after.active = registry.active) :
    Filed after :=
  hfiled.shrink ⟨htemp ▸ List.Sublist.refl _, houtbound ▸ List.Sublist.refl _,
    hinbound ▸ List.Sublist.refl _, hactive ▸ List.Sublist.refl _⟩

theorem Filed.close (hfiled : Filed registry) (conn : ConnId) : Filed (registry.close conn) :=
  hfiled.shrink ((Shrinks.refl registry).close conn)

/-! ## One entry more -/

theorem Filed.addTemp {node : Node} (hfiled : Filed registry)
    (hadd : registry.addTemp now node = .ok after) : Filed after := by
  obtain ⟨_, _, _, hnew, hactive, hdialed, rfl⟩ := addTemp_ok hadd
  have hfresh : ∀ other ∈ registry.temp, other.idHash ≠ node.idHash := by
    intro other hmem heq
    have : registry.inTemp node.idHash = true := inTemp_iff.mpr ⟨other, hmem, heq⟩
    simp [this] at hnew
  refine { hfiled with temp_nodup := ?_, temp_not_dialed := ?_, temp_not_active := ?_ }
  · simp only [List.map_append, List.map_cons, List.map_nil, List.nodup_append]
    refine ⟨hfiled.temp_nodup, by simp, ?_⟩
    intro first hfirst second hsecond heq
    obtain ⟨other, hmem, rfl⟩ := List.mem_map.mp hfirst
    rw [List.mem_singleton] at hsecond
    exact hfresh other hmem (heq.trans hsecond)
  · intro other hmem
    rcases List.mem_append.mp hmem with hold | hlast
    · exact hfiled.temp_not_dialed other hold
    · rw [List.mem_singleton] at hlast
      subst hlast
      exact hdialed
  · intro other hmem
    rcases List.mem_append.mp hmem with hold | hlast
    · exact hfiled.temp_not_active other hold
    · rw [List.mem_singleton] at hlast
      subst hlast
      exact hactive

theorem mem_withoutTemp {node : Node} :
    node ∈ registry.withoutTemp peer ↔ node ∈ registry.temp ∧ node.idHash ≠ peer := by
  simp [withoutTemp]

theorem withoutTemp_nodup (hfiled : Filed registry) :
    ((registry.withoutTemp peer).map (·.idHash)).Nodup :=
  (List.filter_sublist.map _).nodup hfiled.temp_nodup

theorem not_isWith_of_not_isDialed {pending : Pending} (hfree : registry.isDialed peer = false)
    (hmem : (conn, pending) ∈ registry.outbound) : pending.isWith peer = false := by
  rw [← Bool.not_eq_true]
  intro hwith
  have : registry.isDialed peer = true := isDialed_iff.mpr ⟨conn, pending, hmem, hwith⟩
  simp [this] at hfree

/-- A peer that is not dialed can be dialed on a connection. -/
theorem Filed.insertOutbound {node : Node} (hfiled : Filed registry)
    (hinsert : registry.insertOutbound now node conn = .ok after) : Filed after := by
  obtain ⟨_, _, _, _, hdialed, rfl⟩ := insertOutbound_ok hinsert
  have hwithNew : ∀ peer, Pending.isWith
      ⟨⟨conn, now⟩, some { node with conn := some conn, since := now }⟩ peer = true →
      peer = node.idHash := by
    intro peer hwith
    obtain ⟨known, hknown, heq⟩ := isWith_iff.mp hwith
    cases hknown
    exact heq.symm
  refine { hfiled with
    temp_nodup := withoutTemp_nodup hfiled
    outbound_keys := Table.nodup_keys_insert hfiled.outbound_keys
    temp_not_dialed := ?_
    temp_not_active := fun other hmem =>
      hfiled.temp_not_active other (mem_withoutTemp.mp hmem).1
    dialed_once := ?_
    outbound_entry := ?_ }
  · intro other hother
    obtain ⟨hmem, hne⟩ := mem_withoutTemp.mp hother
    have hfree := hfiled.temp_not_dialed other hmem
    rw [← Bool.not_eq_true, isDialed_iff] at hfree ⊢
    rintro ⟨key, pending, hentry, hwith⟩
    rcases Table.mem_insert.mp hentry with ⟨_, hentry⟩ | ⟨_, rfl⟩
    · exact hfree ⟨key, pending, hentry, hwith⟩
    · exact hne (hwithNew _ hwith)
  · intro peer first second firstPending secondPending hfirst hwith hsecond hwith'
    rcases Table.mem_insert.mp hfirst with ⟨_, holdFirst⟩ | ⟨hfirstConn, rfl⟩
    · rcases Table.mem_insert.mp hsecond with ⟨_, holdSecond⟩ | ⟨_, rfl⟩
      · exact hfiled.dialed_once peer _ _ _ _ holdFirst hwith holdSecond hwith'
      · have hfree := not_isWith_of_not_isDialed hdialed holdFirst
        rw [← hwithNew _ hwith', hwith] at hfree
        cases hfree
    · rcases Table.mem_insert.mp hsecond with ⟨_, holdSecond⟩ | ⟨hsecondConn, _⟩
      · have hfree := not_isWith_of_not_isDialed hdialed holdSecond
        rw [← hwithNew _ hwith, hwith'] at hfree
        cases hfree
      · exact hfirstConn.trans hsecondConn.symm
  · intro key pending hentry
    rcases Table.mem_insert.mp hentry with ⟨_, hentry⟩ | ⟨rfl, rfl⟩
    · exact hfiled.outbound_entry key pending hentry
    · exact ⟨rfl, _, rfl, rfl⟩

theorem Filed.insertInbound (hfiled : Filed registry)
    (hinsert : registry.insertInbound now conn = .ok after) : Filed after := by
  rw [(insertInbound_ok hinsert).2]
  refine { hfiled with
    inbound_keys := Table.nodup_keys_insert hfiled.inbound_keys
    inbound_entry := ?_ }
  intro key pending hentry
  rcases Table.mem_insert.mp hentry with ⟨_, hentry⟩ | ⟨rfl, rfl⟩
  · exact hfiled.inbound_entry key pending hentry
  · exact ⟨rfl, rfl⟩

/-! ## Promotion to the active set -/

/-- Any peer can become active: it leaves the queue of candidates. -/
theorem Filed.insertActive {node : Node} {handle : Connection} (hfiled : Filed registry)
    (hconn : node.conn = some handle.id) :
    Filed { registry with
      temp := registry.withoutTemp node.idHash
      active := registry.active.insert node.idHash ⟨node, handle⟩ } := by
  refine { hfiled with
    temp_nodup := withoutTemp_nodup hfiled
    active_keys := Table.nodup_keys_insert hfiled.active_keys
    temp_not_dialed := fun other hmem =>
      hfiled.temp_not_dialed other (mem_withoutTemp.mp hmem).1
    temp_not_active := ?_
    active_entry := ?_ }
  · intro other hother
    obtain ⟨hmem, hne⟩ := mem_withoutTemp.mp hother
    have hfree := hfiled.temp_not_active other hmem
    rw [← Bool.not_eq_true, isActive_iff] at hfree ⊢
    rintro ⟨active, hentry⟩
    rcases Table.mem_insert.mp hentry with ⟨_, hentry⟩ | ⟨heq, _⟩
    · exact hfree ⟨active, hentry⟩
    · exact hne heq
  · intro peer active hentry
    rcases Table.mem_insert.mp hentry with ⟨_, hentry⟩ | ⟨rfl, rfl⟩
    · exact hfiled.active_entry peer active hentry
    · exact ⟨rfl, hconn⟩

theorem Filed.pending_own {direction : Direction} {pending : Pending} (hfiled : Filed registry)
    (hpending : (registry.pendingSet direction).find? conn = some pending) :
    pending.conn.id = conn := by
  cases direction with
  | inbound => exact (hfiled.inbound_entry conn pending (Table.mem_of_find? hpending)).1
  | outbound => exact (hfiled.outbound_entry conn pending (Table.mem_of_find? hpending)).1

theorem Filed.promoteToActive {direction : Direction} {node : Node} (hfiled : Filed registry)
    (hpromote : registry.promoteToActive now conn direction node = .ok after) : Filed after := by
  obtain ⟨_, _, _, _, pending, middle, hpending, hyield, rfl⟩ := promoteToActive_ok hpromote
  have hmiddle : Filed middle := hfiled.shrink (yieldDial_shrinks hyield)
  have hconn : pending.conn.id = conn := hfiled.pending_own hpending
  cases direction with
  | inbound => exact (hmiddle.shrink (erase_inbound_shrinks middle conn)).insertActive (by simp [hconn])
  | outbound => exact (hmiddle.shrink (erase_outbound_shrinks middle conn)).insertActive (by simp [hconn])

/-! ## Facts about active nodes -/

theorem isActive_updateActive (registry : Registry) (peer other : IdHash) (change : Node → Node) :
    (registry.updateActive peer change).isActive other = registry.isActive other := by
  simp only [Registry.updateActive, Registry.isActive, Table.has, Table.find?_modify]
  split <;> simp

theorem Filed.updateActive (hfiled : Filed registry) (peer : IdHash) (change : Node → Node)
    (hchange : ∀ node, (change node).idHash = node.idHash ∧ (change node).conn = node.conn) :
    Filed (registry.updateActive peer change) := by
  have hkeys : (registry.updateActive peer change).active.keys = registry.active.keys := by
    simp only [Registry.updateActive, Table.keys_modify]
  refine { hfiled with
    active_keys := hkeys ▸ hfiled.active_keys
    temp_not_active := fun node hmem =>
      (isActive_updateActive ..).trans (hfiled.temp_not_active node hmem)
    active_entry := ?_ }
  intro key active hentry
  simp only [Registry.updateActive] at hentry
  rcases (Table.mem_modify _).mp hentry with ⟨_, hold⟩ | ⟨_, old, hold, rfl⟩
  · exact hfiled.active_entry key active hold
  · obtain ⟨hhash, hconn⟩ := hfiled.active_entry key old hold
    exact ⟨(hchange old.node).1.trans hhash, (hchange old.node).2.trans hconn⟩

/-! ## Histories -/

theorem Filed.perform (hfiled : Filed registry) (move : Move) : Filed (registry.perform move) := by
  cases move with
  | addTemp now node => exact unlessRefused_induction hfiled fun _ hadd => hfiled.addTemp hadd
  | addBootNodes now nodes =>
      refine addAll_induction _ ?_ fun _ _ _ h hadd => h.addTemp hadd
      exact hfiled.of_same_sets rfl rfl rfl rfl
  | requeueBootNodes now => exact addAll_induction _ hfiled fun _ _ _ h hadd => h.addTemp hadd
  | takeTemp now seedsOnly => exact hfiled.shrink (takeTemp_shrinks _ _ _)
  | promoteToOutbound now node conn =>
      exact settleOffer_induction (fun _ hinsert => hfiled.insertOutbound hinsert)
        (hfiled.close conn)
  | promoteToInbound now conn =>
      exact settleOffer_induction (fun _ hinsert => hfiled.insertInbound hinsert)
        (hfiled.close conn)
  | promoteToActive now conn direction peer =>
      exact unlessRefused_induction hfiled fun _ hpromote => hfiled.promoteToActive hpromote
  | dropActive peer => exact hfiled.shrink (dropActive_shrinks _ _)
  | removeConn conn => exact hfiled.shrink (removeConn_shrinks _ _)
  | ban now peer => exact hfiled.of_same_sets rfl rfl rfl rfl
  | evict now => exact hfiled.shrink (evict_shrinks _ _)
  | closeAll => exact hfiled.shrink (closeAll_shrinks _)
  | touch now peer =>
      unfold Registry.perform touch
      exact hfiled.updateActive peer _ fun _ => ⟨rfl, rfl⟩
  | updateChainInfo peer bestBlock totalDifficulty =>
      unfold Registry.perform updateChainInfo
      exact hfiled.updateActive peer _ fun _ => ⟨rfl, rfl⟩
  | updateLatency peer latency =>
      unfold Registry.perform updateLatency
      exact hfiled.updateActive peer _ fun _ => ⟨rfl, rfl⟩
  | setPort port => exact hfiled.of_same_sets rfl rfl rfl rfl

theorem Filed.cancel (hfiled : Filed registry) (conn : ConnId) : Filed (registry.cancel conn) := by
  unfold Registry.cancel
  split
  · exact hfiled
  · exact hfiled.of_same_sets rfl rfl rfl rfl

theorem filed_live (self : Identity) (limits : Limits) (events : List Event) :
    Filed ((Registry.create self limits).live events) := by
  suffices hlive : ∀ registry, Filed registry → Filed (registry.live events) from
    hlive _ (filed_create self limits)
  induction events with
  | nil => exact fun registry hfiled => hfiled
  | cons event rest ih =>
      intro registry hfiled
      refine ih _ ?_
      cases event with
      | call move => exact hfiled.perform move
      | cancel conn => exact hfiled.cancel conn

/-! ## Dials to an active peer -/

/-- Once the only dial to a peer is gone, the peer is not dialed any more. -/
theorem Filed.not_dialed_of_erase {pending : Pending} (hfiled : Filed registry)
    (hentry : (conn, pending) ∈ registry.outbound) (hwith : pending.isWith peer = true) :
    { registry with outbound := registry.outbound.erase conn }.isDialed peer = false := by
  rw [← Bool.not_eq_true, isDialed_iff]
  rintro ⟨other, otherPending, hother, hotherWith⟩
  obtain ⟨hne, hother⟩ := Table.mem_erase.mp hother
  exact hne (hfiled.dialed_once peer _ _ _ _ hother hotherWith hentry hwith)

/-- After the yielding of dials an accepted connection finds its peer undialed. -/
theorem Filed.not_dialed_of_yieldDial (hfiled : Filed registry)
    (hyield : registry.yieldDial .inbound peer = .ok after) : after.isDialed peer = false := by
  rcases yieldDial_ok hyield with ⟨h, _⟩ | ⟨_, hfree, rfl⟩ | ⟨_, _, dialing, hdial, rfl⟩
  · cases h
  · exact hfree
  · obtain ⟨pending, hentry, hwith⟩ := Table.mem_of_keyWhere? hdial
    exact ((Shrinks.refl _).close dialing).isDialed (hfiled.not_dialed_of_erase hentry hwith)

/--
Whether a promotion leaves a dial to its peer behind: the one of a dialed
connection does, if the peer it names is being dialed on another connection.
-/
def leavesDial (registry : Registry) (conn : ConnId) (direction : Direction) (peer : IdHash) :
    Bool :=
  direction == .outbound && { registry with outbound := registry.outbound.erase conn }.isDialed peer

/-- A peer that becomes active is still dialed only on a connection that its promotion overlooks. -/
theorem Filed.isDialed_promoteToActive {direction : Direction} {node : Node}
    (hfiled : Filed registry)
    (hpromote : registry.promoteToActive now conn direction node = .ok after) :
    after.isDialed node.idHash = registry.leavesDial conn direction node.idHash := by
  obtain ⟨_, _, _, _, pending, middle, _, hyield, rfl⟩ := promoteToActive_ok hpromote
  cases direction with
  | inbound =>
      have hfree : middle.isDialed node.idHash = false := hfiled.not_dialed_of_yieldDial hyield
      exact hfree
  | outbound =>
      rcases yieldDial_ok hyield with ⟨_, rfl⟩ | ⟨h, _⟩ | ⟨h, _⟩
      · simp [leavesDial, activate, isDialed, dialTo?]
      · cases h
      · cases h

/-- Whether a peer is being dialed although it is active. -/
def clashes (registry : Registry) (peer : IdHash) : Bool :=
  registry.isDialed peer && registry.isActive peer

theorem Shrinks.clashes (hshrinks : Shrinks registry after)
    (hfree : registry.clashes peer = false) : after.clashes peer = false := by
  rcases Bool.and_eq_false_iff.mp hfree with hdialed | hactive
  · exact Bool.and_eq_false_iff.mpr (Or.inl (hshrinks.isDialed hdialed))
  · exact Bool.and_eq_false_iff.mpr (Or.inr (hshrinks.isActive hactive))

theorem addTemp_clashes {node : Node} (hadd : registry.addTemp now node = .ok after)
    (hfree : registry.clashes peer = false) : after.clashes peer = false := by
  obtain ⟨_, _, _, _, _, _, rfl⟩ := addTemp_ok hadd
  exact hfree

/-- A dial is opened only to a peer that is not active. -/
theorem insertOutbound_clashes {node : Node}
    (hinsert : registry.insertOutbound now node conn = .ok after)
    (hfree : registry.clashes peer = false) : after.clashes peer = false := by
  obtain ⟨_, _, _, hactive, _, rfl⟩ := insertOutbound_ok hinsert
  by_cases hpeer : peer = node.idHash
  · subst hpeer
    exact Bool.and_eq_false_iff.mpr (Or.inr hactive)
  · rcases Bool.and_eq_false_iff.mp hfree with hdialed | hother
    · refine Bool.and_eq_false_iff.mpr (Or.inl ?_)
      rw [← Bool.not_eq_true, isDialed_iff] at hdialed ⊢
      rintro ⟨key, pending, hentry, hwith⟩
      rcases Table.mem_insert.mp hentry with ⟨_, hold⟩ | ⟨_, rfl⟩
      · exact hdialed ⟨key, pending, hold, hwith⟩
      · obtain ⟨known, hknown, hhash⟩ := isWith_iff.mp hwith
        cases hknown
        exact hpeer hhash.symm
    · exact Bool.and_eq_false_iff.mpr (Or.inr hother)

/-- Just one peer becomes active. -/
theorem isActive_promoteToActive {direction : Direction} {node : Node}
    (hpromote : registry.promoteToActive now conn direction node = .ok after) (peer : IdHash) :
    after.isActive peer = (peer == node.idHash || registry.isActive peer) := by
  obtain ⟨_, _, _, _, pending, middle, _, hyield, rfl⟩ := promoteToActive_ok hpromote
  have hsame : middle.active = registry.active := by
    rcases yieldDial_ok hyield with ⟨_, rfl⟩ | ⟨_, _, rfl⟩ | ⟨_, _, _, _, rfl⟩
    · rfl
    · rfl
    · exact close_active
  have hactive : (middle.activate now direction conn pending node).isActive peer =
      (middle.active.insert (mergeKnown node pending.node).idHash
        ⟨{ mergeKnown node pending.node with conn := some conn, since := now, lastSeen := now },
          pending.conn⟩).has peer := by
    cases direction <;> rfl
  rw [hactive, Table.has, Table.find?_insert, mergeKnown_idHash, hsame]
  by_cases hpeer : peer = node.idHash
  · simp [hpeer]
  · simp [hpeer, isActive, Table.has]

theorem promoteToActive_dials {direction : Direction} {node : Node}
    (hpromote : registry.promoteToActive now conn direction node = .ok after)
    (hfree : registry.isDialed peer = false) : after.isDialed peer = false := by
  obtain ⟨_, _, _, _, pending, middle, _, hyield, rfl⟩ := promoteToActive_ok hpromote
  have hmiddle : middle.isDialed peer = false := (yieldDial_shrinks hyield).isDialed hfree
  cases direction with
  | inbound => exact hmiddle
  | outbound => exact (erase_outbound_shrinks middle conn).isDialed hmiddle

/-! ## Membership -/

/-- An accepted connection is not known to be with any peer until it is active. -/
theorem Filed.inbound_unknown (hfiled : Filed registry) :
    (registry.inbound.keyWhere? (·.isWith peer)).isSome = false := by
  rw [← Bool.not_eq_true, Table.keyWhere?_isSome_iff]
  rintro ⟨conn, pending, hmem, hwith⟩
  simp [Pending.isWith, (hfiled.inbound_entry conn pending hmem).2] at hwith

theorem Filed.not_inTemp (hfiled : Filed registry)
    (helsewhere : registry.isDialed peer = true ∨ registry.isActive peer = true) :
    registry.inTemp peer = false := by
  rw [← Bool.not_eq_true, inTemp_iff]
  rintro ⟨node, hmem, rfl⟩
  rcases helsewhere with hdialed | hactive
  · rw [hfiled.temp_not_dialed node hmem] at hdialed
    cases hdialed
  · rw [hfiled.temp_not_active node hmem] at hactive
    cases hactive

theorem Filed.membership_of_active (hfiled : Filed registry)
    (hactive : registry.isActive peer = true) :
    registry.membership peer =
      if registry.isDialed peer then [.outbound, .active] else [.active] := by
  unfold membership
  rw [hfiled.inbound_unknown, hfiled.not_inTemp (Or.inr hactive), hactive]
  cases registry.isDialed peer <;> rfl

/-- To be dialed and active is the only way of being in two sets. -/
theorem Filed.one_lt_length_membership (hfiled : Filed registry) (peer : IdHash) :
    1 < (registry.membership peer).length ↔ registry.clashes peer = true := by
  cases hactive : registry.isActive peer with
  | true =>
      rw [hfiled.membership_of_active hactive, clashes, hactive, Bool.and_true]
      cases registry.isDialed peer <;> simp
  | false =>
      unfold membership
      rw [hfiled.inbound_unknown, clashes, hactive, Bool.and_false]
      cases hdialed : registry.isDialed peer with
      | true => simp [hfiled.not_inTemp (Or.inl hdialed)]
      | false => cases registry.inTemp peer <;> simp

/-! ## What makes an active peer a dialed one -/

/-- Whether a call makes a peer active, and overlooks a dial to it. -/
def overlooks (registry : Registry) (peer : IdHash) : Move → Bool
  | .promoteToActive now conn direction node =>
      (registry.promoteToActive now conn direction node).isOk && node.idHash == peer
        && registry.leavesDial conn direction peer
  | _ => false

/-- A peer is dialed and active at once only after a promotion that overlooked a dial to it. -/
theorem Filed.clashes_perform (hfiled : Filed registry) (move : Move)
    (hfree : registry.clashes peer = false) :
    (registry.perform move).clashes peer = registry.overlooks peer move := by
  have hshrink : ∀ {after}, Shrinks registry after → after.clashes peer = false :=
    fun hshrinks => hshrinks.clashes hfree
  have hupdate : ∀ other change, (registry.updateActive other change).clashes peer = false := by
    intro other change
    rw [clashes, isActive_updateActive]
    exact hfree
  cases move with
  | addTemp now node =>
      exact unlessRefused_induction (P := fun after => after.clashes peer = false) hfree
        fun _ hadd => addTemp_clashes hadd hfree
  | addBootNodes now nodes =>
      exact addAll_induction (P := fun after => after.clashes peer = false) _ hfree
        fun _ _ _ h hadd => addTemp_clashes hadd h
  | requeueBootNodes now =>
      exact addAll_induction (P := fun after => after.clashes peer = false) _ hfree
        fun _ _ _ h hadd => addTemp_clashes hadd h
  | takeTemp now seedsOnly => exact hshrink (takeTemp_shrinks _ _ _)
  | promoteToOutbound now node conn =>
      exact settleOffer_induction (P := fun after => after.clashes peer = false)
        (fun _ hinsert => insertOutbound_clashes hinsert hfree)
        (hshrink ((Shrinks.refl registry).close conn))
  | promoteToInbound now conn =>
      refine settleOffer_induction (P := fun after => after.clashes peer = false) ?_
        (hshrink ((Shrinks.refl registry).close conn))
      intro after hinsert
      rw [(insertInbound_ok hinsert).2]
      exact hfree
  | promoteToActive now conn direction node =>
      rw [Registry.perform, overlooks]
      cases hpromote : registry.promoteToActive now conn direction node with
      | error error => exact hfree
      | ok after =>
          rw [unlessRefused, clashes, isActive_promoteToActive hpromote]
          by_cases hpeer : node.idHash = peer
          · subst hpeer
            simp [hfiled.isDialed_promoteToActive hpromote, Except.isOk, Except.toBool]
          · have hother : ¬peer = node.idHash := fun heq => hpeer heq.symm
            simp only [beq_eq_false_iff_ne.mpr hother, beq_eq_false_iff_ne.mpr hpeer,
              Bool.false_or, Bool.and_false, Bool.false_and]
            rcases Bool.and_eq_false_iff.mp hfree with hdialed | hactive
            · rw [promoteToActive_dials hpromote hdialed, Bool.false_and]
            · rw [hactive, Bool.and_false]
  | dropActive peer => exact hshrink (dropActive_shrinks _ _)
  | removeConn conn => exact hshrink (removeConn_shrinks _ _)
  | ban now peer => exact hfree
  | evict now => exact hshrink (evict_shrinks _ _)
  | closeAll => exact hshrink (closeAll_shrinks _)
  | touch now other => exact hupdate other _
  | updateChainInfo other bestBlock totalDifficulty => exact hupdate other _
  | updateLatency other latency => exact hupdate other _
  | setPort port => exact hfree

end Registry

end Peering
