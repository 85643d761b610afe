import Peering.Proofs.Registry.Ownership

/-!
# Which destinations lead to a connection

An accepted connection is led to by its own handle only, until its session makes it
active: no dial has it, and no other move of the registry brings it among the
active ones.
-/

namespace Peering

namespace Registry

variable {registry middle after : Registry} {now : Nat} {conn other : ConnId}
  {dest : Destination} {accepted : Option ConnId}

/-- An entry under a destination has the connection, closed or not. -/
def Leads (registry : Registry) (dest : Destination) (conn : ConnId) : Prop :=
  match dest with
  | .active peer => ∃ active, (peer, active) ∈ registry.active ∧ active.conn.id = conn
  | .inbound key => ∃ pending, (key, pending) ∈ registry.inbound ∧ pending.conn.id = conn
  | .outbound key => ∃ pending, (key, pending) ∈ registry.outbound ∧ pending.conn.id = conn

theorem not_leads_create (self : Identity) (limits : Limits) (dest : Destination) (conn : ConnId) :
    ¬ (create self limits).Leads dest conn := by
  intro hleads
  cases dest with
  | active peer =>
      obtain ⟨_, hmem, _⟩ := hleads
      exact List.not_mem_nil hmem
  | inbound key =>
      obtain ⟨_, hmem, _⟩ := hleads
      exact List.not_mem_nil hmem
  | outbound key =>
      obtain ⟨_, hmem, _⟩ := hleads
      exact List.not_mem_nil hmem

theorem leads_of_writerFor (hwriter : registry.writerFor dest = some conn) :
    registry.Leads dest conn := by
  unfold writerFor at hwriter
  obtain ⟨hfound, _⟩ := Option.filter_eq_some_iff.mp hwriter
  cases dest with
  | active peer =>
      obtain ⟨active, hactive, hconn⟩ := Option.map_eq_some_iff.mp hfound
      exact ⟨active, Table.mem_of_find? hactive, hconn⟩
  | inbound key =>
      obtain ⟨pending, hpending, hconn⟩ := Option.map_eq_some_iff.mp hfound
      exact ⟨pending, Table.mem_of_find? hpending, hconn⟩
  | outbound key =>
      obtain ⟨pending, hpending, hconn⟩ := Option.map_eq_some_iff.mp hfound
      exact ⟨pending, Table.mem_of_find? hpending, hconn⟩

theorem mem_handles_iff_leads : conn ∈ registry.handles ↔ ∃ dest, registry.Leads dest conn := by
  rw [mem_handles]
  constructor
  · rintro (⟨key, hentry⟩ | ⟨key, hentry⟩ | ⟨peer, hentry⟩)
    · exact ⟨.outbound key, hentry⟩
    · exact ⟨.inbound key, hentry⟩
    · exact ⟨.active peer, hentry⟩
  · rintro ⟨dest, hentry⟩
    cases dest with
    | outbound key => exact Or.inl ⟨key, hentry⟩
    | inbound key => exact Or.inr (Or.inl ⟨key, hentry⟩)
    | active peer => exact Or.inr (Or.inr ⟨peer, hentry⟩)

/-- A pending entry stands under the connection that it has. -/
theorem Keyed.eq_of_leads_inbound (hkeyed : Keyed registry)
    (hleads : registry.Leads (.inbound other) conn) : other = conn := by
  obtain ⟨pending, hmem, hconn⟩ := hleads
  exact (hkeyed.inbound_own other pending hmem).symm.trans hconn

/-- What leads to a connection did so before. -/
def Narrows (registry after : Registry) : Prop :=
  ∀ dest conn, after.Leads dest conn → registry.Leads dest conn

theorem Narrows.trans (hfirst : Narrows registry middle) (hsecond : Narrows middle after) :
    Narrows registry after :=
  fun dest conn hleads => hfirst dest conn (hsecond dest conn hleads)

theorem Shrinks.leads (hshrinks : Shrinks registry after) : Narrows registry after := by
  intro dest conn hleads
  cases dest with
  | active peer =>
      obtain ⟨active, hmem, hconn⟩ := hleads
      exact ⟨active, hshrinks.active.subset hmem, hconn⟩
  | inbound key =>
      obtain ⟨pending, hmem, hconn⟩ := hleads
      exact ⟨pending, hshrinks.inbound.subset hmem, hconn⟩
  | outbound key =>
      obtain ⟨pending, hmem, hconn⟩ := hleads
      exact ⟨pending, hshrinks.outbound.subset hmem, hconn⟩

/-- A change that leaves the connections alone, whatever it does to the candidates. -/
theorem narrows_of_same (houtbound : after.outbound = registry.outbound)
    (hinbound : after.inbound = registry.inbound) (hactive : after.active = registry.active) :
    Narrows registry after := by
  intro dest conn hleads
  cases dest with
  | active peer => rwa [Leads, hactive] at hleads
  | inbound key => rwa [Leads, hinbound] at hleads
  | outbound key => rwa [Leads, houtbound] at hleads

theorem updateActive_narrows (registry : Registry) (peer : IdHash) (change : Node → Node) :
    Narrows registry (registry.updateActive peer change) := by
  intro dest conn hleads
  cases dest with
  | inbound key => exact hleads
  | outbound key => exact hleads
  | active known =>
      obtain ⟨active, hmem, hconn⟩ := hleads
      rw [updateActive, Table.mem_modify] at hmem
      rcases hmem with ⟨_, hold⟩ | ⟨_, old, hold, rfl⟩
      · exact ⟨active, hold, hconn⟩
      · exact ⟨old, hold, hconn⟩

theorem Shrinks.trans (hfirst : Shrinks registry middle) (hsecond : Shrinks middle after) :
    Shrinks registry after where
  temp := hsecond.temp.trans hfirst.temp
  outbound := hsecond.outbound.trans hfirst.outbound
  inbound := hsecond.inbound.trans hfirst.inbound
  active := hsecond.active.trans hfirst.active

theorem cancel_shrinks (registry : Registry) (conn : ConnId) :
    Shrinks registry (registry.cancel conn) := by
  unfold cancel
  split
  · exact Shrinks.refl registry
  · exact ⟨List.Sublist.refl _, List.Sublist.refl _, List.Sublist.refl _, List.Sublist.refl _⟩

/-! ## What a move can change about this -/

/--
What leads to a connection did so before, or it is a peer that has become active:
on a connection that was dialed, or on the accepted one that is named.
-/
def Reroutes (registry : Registry) (accepted : Option ConnId) (after : Registry) : Prop :=
  ∀ dest conn, after.Leads dest conn → registry.Leads dest conn ∨
    (∃ peer, dest = .active peer) ∧ (registry.Leads (.outbound conn) conn ∨
      accepted = some conn ∧ registry.Leads (.inbound conn) conn)

theorem Narrows.reroutes (hnarrows : Narrows registry after) : Reroutes registry accepted after :=
  fun dest conn hleads => Or.inl (hnarrows dest conn hleads)

theorem addAll_same (registry : Registry) (now : Nat) (nodes : List Node) :
    (registry.addAll now nodes).1.outbound = registry.outbound ∧
      (registry.addAll now nodes).1.inbound = registry.inbound ∧
      (registry.addAll now nodes).1.active = registry.active :=
  addAll_induction (P := fun after => after.outbound = registry.outbound ∧
    after.inbound = registry.inbound ∧ after.active = registry.active) nodes ⟨rfl, rfl, rfl⟩
    fun _ _ _ hsame hadd => by
      obtain ⟨_, _, _, _, _, _, rfl⟩ := addTemp_ok hadd
      exact hsame

/-- A connection that becomes active does so under the hash of the peer. -/
theorem activate_leads {direction : Direction} {pending : Pending} {peer : Node}
    (hkeyed : Keyed registry) (hentry : (conn, pending) ∈ registry.pendingSet direction)
    (hleads : (registry.activate now direction conn pending peer).Leads dest other) :
    registry.Leads dest other ∨ dest = .active peer.idHash ∧ other = conn := by
  have hsubset : ∀ key old,
      ((key, old) ∈ (registry.activate now direction conn pending peer).inbound →
        (key, old) ∈ registry.inbound) ∧
      ((key, old) ∈ (registry.activate now direction conn pending peer).outbound →
        (key, old) ∈ registry.outbound) := by
    intro key old
    cases direction with
    | inbound => exact ⟨fun hmem => (Table.mem_erase.mp hmem).2, id⟩
    | outbound => exact ⟨id, fun hmem => (Table.mem_erase.mp hmem).2⟩
  have hown : pending.conn.id = conn := by
    cases direction with
    | inbound => exact hkeyed.inbound_own conn pending hentry
    | outbound => exact hkeyed.outbound_own conn pending hentry
  cases dest with
  | inbound key =>
      obtain ⟨old, hmem, hconn⟩ := hleads
      exact Or.inl ⟨old, (hsubset key old).1 hmem, hconn⟩
  | outbound key =>
      obtain ⟨old, hmem, hconn⟩ := hleads
      exact Or.inl ⟨old, (hsubset key old).2 hmem, hconn⟩
  | active known =>
      obtain ⟨active, hmem, rfl⟩ := hleads
      have hactive : (known, active) ∈ registry.active ∨
          known = peer.idHash ∧ active.conn = pending.conn := by
        rw [← mergeKnown_idHash peer pending.node]
        cases direction <;> rcases Table.mem_insert.mp hmem with ⟨_, hold⟩ | ⟨rfl, rfl⟩
        · exact Or.inl hold
        · exact Or.inr ⟨rfl, rfl⟩
        · exact Or.inl hold
        · exact Or.inr ⟨rfl, rfl⟩
      rcases hactive with hold | ⟨rfl, hconn⟩
      · exact Or.inl ⟨active, hold, rfl⟩
      · exact Or.inr ⟨rfl, by rw [hconn, hown]⟩

theorem Keyed.promoteToActive_leads {direction : Direction} {peer : Node} (hkeyed : Keyed registry)
    (hpromote : registry.promoteToActive now conn direction peer = .ok after)
    (hleads : after.Leads dest other) :
    registry.Leads dest other ∨ dest = .active peer.idHash ∧ other = conn := by
  obtain ⟨_, _, _, _, pending, middle, hpending, hyield, rfl⟩ := promoteToActive_ok hpromote
  have hyields := yieldDial_shrinks hyield
  rw [← pendingSet_of_yieldDial hyield] at hpending
  exact (activate_leads (hkeyed.shrink hyields) (Table.mem_of_find? hpending) hleads).imp
    (hyields.leads _ _) id

theorem Keyed.promoteToActive_reroutes {direction : Direction} {peer : Node} (hkeyed : Keyed registry)
    (haccepted : direction = .inbound → accepted = some conn)
    (hpromote : registry.promoteToActive now conn direction peer = .ok after) :
    Reroutes registry accepted after := by
  intro dest found hleads
  rcases hkeyed.promoteToActive_leads hpromote hleads with hold | ⟨rfl, rfl⟩
  · exact Or.inl hold
  obtain ⟨_, _, _, _, pending, _, hpending, _⟩ := promoteToActive_ok hpromote
  have hentry : (found, pending) ∈ registry.pendingSet direction := Table.mem_of_find? hpending
  refine Or.inr ⟨⟨_, rfl⟩, ?_⟩
  cases direction with
  | inbound => exact Or.inr ⟨haccepted rfl, pending, hentry, hkeyed.inbound_own _ _ hentry⟩
  | outbound => exact Or.inl ⟨pending, hentry, hkeyed.outbound_own _ _ hentry⟩

/-- The accepted connection that a move makes active. -/
def Move.accepts? : Move → Option ConnId
  | .promoteToActive _ conn .inbound _ => some conn
  | _ => none

/-- Whether a move makes a connection active. -/
def Move.isPromotion : Move → Bool
  | .promoteToActive .. => true
  | _ => false

/-- A move that neither offers a connection nor makes one active leads nowhere new. -/
theorem perform_narrows {move : Move} (hoffer : move.offer? = none)
    (hpromotion : move.isPromotion = false) : Narrows registry (registry.perform move) := by
  cases move with
  | addTemp now node =>
      refine unlessRefused_induction (narrows_of_same rfl rfl rfl) fun _ hadd => ?_
      obtain ⟨_, _, _, _, _, _, rfl⟩ := addTemp_ok hadd
      exact narrows_of_same rfl rfl rfl
  | addBootNodes now nodes =>
      obtain ⟨houtbound, hinbound, hactive⟩ := addAll_same { registry with
        seeds := nodes.foldl (fun seeds node =>
          if seeds.contains node.ip then seeds else seeds ++ [node.ip]) registry.seeds
        bootNodes := nodes } now nodes
      exact narrows_of_same houtbound hinbound hactive
  | requeueBootNodes now =>
      obtain ⟨houtbound, hinbound, hactive⟩ := addAll_same registry now registry.bootNodes
      exact narrows_of_same houtbound hinbound hactive
  | takeTemp now seedsOnly => exact (takeTemp_shrinks registry now seedsOnly).leads
  | promoteToOutbound now node conn => cases hoffer
  | promoteToInbound now conn => cases hoffer
  | promoteToActive now conn direction peer => cases hpromotion
  | dropActive peer => exact (dropActive_shrinks registry peer).leads
  | removeConn conn => exact (removeConn_shrinks registry conn).leads
  | ban now peer => exact narrows_of_same rfl rfl rfl
  | evict now => exact (evict_shrinks registry now).leads
  | closeAll => exact (closeAll_shrinks registry).leads
  | touch now peer => exact updateActive_narrows registry peer _
  | updateChainInfo peer bestBlock totalDifficulty => exact updateActive_narrows registry peer _
  | updateLatency peer latency => exact updateActive_narrows registry peer _
  | setPort port => exact narrows_of_same rfl rfl rfl

/-- A move that offers no connection makes at most the one active that it names. -/
theorem Keyed.perform_reroutes (hkeyed : Keyed registry) {move : Move} (hoffer : move.offer? = none) :
    Reroutes registry move.accepts? (registry.perform move) := by
  cases move with
  | promoteToActive now conn direction peer =>
      refine unlessRefused_induction (fun _ _ => Or.inl) fun _ hpromote =>
        hkeyed.promoteToActive_reroutes ?_ hpromote
      rintro rfl
      rfl
  | _ => exact (perform_narrows hoffer rfl).reroutes

/-! ## Connections that are offered -/

/-- An accepted connection is led to by its handle, and nothing else is new. -/
theorem promoteToInbound_leads (hleads : (registry.promoteToInbound now conn).1.Leads dest other) :
    registry.Leads dest other ∨ dest = .inbound conn ∧ other = conn := by
  refine settleOffer_induction (P := fun after => after.Leads dest other →
    registry.Leads dest other ∨ dest = .inbound conn ∧ other = conn) (fun after hinsert hleads => ?_)
    (fun hleads => Or.inl (((Shrinks.refl registry).close conn).leads _ _ hleads)) hleads
  rw [(insertInbound_ok hinsert).2] at hleads
  cases dest with
  | active peer => exact Or.inl hleads
  | outbound key => exact Or.inl hleads
  | inbound key =>
      obtain ⟨pending, hmem, rfl⟩ := hleads
      rcases Table.mem_insert.mp hmem with ⟨_, hold⟩ | ⟨rfl, rfl⟩
      · exact Or.inl ⟨pending, hold, rfl⟩
      · exact Or.inr ⟨rfl, rfl⟩

theorem promoteToOutbound_leads {node : Node}
    (hleads : (registry.promoteToOutbound now node conn).1.Leads dest other) :
    registry.Leads dest other ∨ dest = .outbound conn ∧ other = conn := by
  refine settleOffer_induction (P := fun after => after.Leads dest other →
    registry.Leads dest other ∨ dest = .outbound conn ∧ other = conn) (fun after hinsert hleads => ?_)
    (fun hleads => Or.inl (((Shrinks.refl registry).close conn).leads _ _ hleads)) hleads
  obtain ⟨_, _, _, _, _, rfl⟩ := insertOutbound_ok hinsert
  cases dest with
  | active peer => exact Or.inl hleads
  | inbound key => exact Or.inl hleads
  | outbound key =>
      obtain ⟨pending, hmem, rfl⟩ := hleads
      rcases Table.mem_insert.mp hmem with ⟨_, hold⟩ | ⟨rfl, rfl⟩
      · exact Or.inl ⟨pending, hold, rfl⟩
      · exact Or.inr ⟨rfl, rfl⟩

/-! ## Connections that nothing else leads to -/

/-- Nothing but its own handle leads to an accepted connection. -/
def Aside (registry : Registry) (conn : ConnId) : Prop :=
  ∀ dest, registry.Leads dest conn → dest = .inbound conn

/-- A connection does not stand among the accepted ones. -/
def Unaccepted (registry : Registry) (conn : ConnId) : Prop :=
  ¬ registry.Leads (.inbound conn) conn

theorem Aside.reroutes (haside : registry.Aside conn) (hreroutes : Reroutes registry accepted after)
    (haccepted : accepted ≠ some conn) : after.Aside conn := by
  intro dest hleads
  rcases hreroutes dest conn hleads with hsame | ⟨_, hdialed | ⟨heq, _⟩⟩
  · exact haside dest hsame
  · cases haside _ hdialed
  · exact absurd heq haccepted

theorem Unaccepted.reroutes (hunaccepted : registry.Unaccepted conn)
    (hreroutes : Reroutes registry accepted after) : after.Unaccepted conn := by
  intro hleads
  rcases hreroutes (.inbound conn) conn hleads with hsame | ⟨⟨_, hactive⟩, _⟩
  · exact hunaccepted hsame
  · cases hactive

end Registry

end Peering
