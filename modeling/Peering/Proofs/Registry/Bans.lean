import Peering.Proofs.Registry.Places

/-!
# Bans

Every way into a set asks whether the peer is banned, so a banned peer can only
leave the sets. A ban lasts through every operation until it ends: what expires is
removed by the clock at which it is asked for, and a ban that replaces another one
of the same peer ends later.
-/

namespace Peering

namespace Registry

variable {registry middle after : Registry} {now expiry : Nat} {conn : ConnId} {peer : IdHash}
  {move : Move}

/-! ## Entries that do not come -/

/-- Every entry for a peer in the second registry was in the first one, on the same connection. -/
structure Bars (peer : IdHash) (registry after : Registry) : Prop where
  temp : ∀ node ∈ after.temp, node.idHash = peer → node ∈ registry.temp
  outbound : ∀ conn pending, (conn, pending) ∈ after.outbound → pending.isWith peer = true →
    (conn, pending) ∈ registry.outbound
  active : ∀ active, (peer, active) ∈ after.active →
    ∃ known, (peer, known) ∈ registry.active ∧ known.conn = active.conn

/-- What leaves the three sets alone bars everyone. -/
theorem bars_of_same_sets (peer : IdHash) (htemp : after.temp = registry.temp)
    (houtbound : after.outbound = registry.outbound) (hactive : after.active = registry.active) :
    Bars peer registry after where
  temp := fun _ hmem _ => htemp ▸ hmem
  outbound := fun _ _ hmem _ => houtbound ▸ hmem
  active := fun active hmem => ⟨active, hactive ▸ hmem, rfl⟩

theorem Bars.refl (peer : IdHash) (registry : Registry) : Bars peer registry registry :=
  bars_of_same_sets peer rfl rfl rfl

theorem Bars.trans (hfirst : Bars peer registry middle) (hsecond : Bars peer middle after) :
    Bars peer registry after where
  temp := fun node hmem hpeer => hfirst.temp node (hsecond.temp node hmem hpeer) hpeer
  outbound := fun conn pending hmem hwith =>
    hfirst.outbound conn pending (hsecond.outbound conn pending hmem hwith) hwith
  active := fun active hmem => by
    obtain ⟨known, hknown, hconn⟩ := hsecond.active active hmem
    obtain ⟨first, hfirst, hsame⟩ := hfirst.active known hknown
    exact ⟨first, hfirst, hsame.trans hconn⟩

theorem Shrinks.bars (hshrinks : Shrinks registry after) (peer : IdHash) :
    Bars peer registry after where
  temp := fun _ hmem _ => hshrinks.temp.subset hmem
  outbound := fun _ _ hmem _ => hshrinks.outbound.subset hmem
  active := fun active hmem => ⟨active, hshrinks.active.subset hmem, rfl⟩

theorem Bars.isActive (hbars : Bars peer registry after) (hfree : registry.isActive peer = false) :
    after.isActive peer = false := by
  rw [← Bool.not_eq_true, isActive_iff] at hfree ⊢
  rintro ⟨active, hmem⟩
  obtain ⟨known, hknown, _⟩ := hbars.active active hmem
  exact hfree ⟨known, hknown⟩

/-- A node whose ban has been looked up is another one than the banned peer. -/
theorem ne_of_isBanned {other : IdHash} (hbanned : registry.isBanned now peer = true)
    (hother : registry.isBanned now other = false) : other ≠ peer := by
  rintro rfl
  rw [hbanned] at hother
  cases hother

theorem bars_addTemp {node : Node} (hbanned : registry.isBanned now peer = true)
    (hadd : registry.addTemp now node = .ok after) : Bars peer registry after := by
  obtain ⟨_, hallowed, _, _, _, _, rfl⟩ := addTemp_ok hadd
  have hother := ne_of_isBanned hbanned hallowed
  refine { Bars.refl peer registry with temp := fun found hmem hpeer => ?_ }
  rcases List.mem_append.mp hmem with hold | hnew
  · exact hold
  · rw [List.mem_singleton.mp hnew] at hpeer
    exact absurd hpeer hother

theorem bars_addAll (hbanned : registry.isBanned now peer = true) (nodes : List Node) :
    Bars peer registry (registry.addAll now nodes).1 := by
  suffices h : Bars peer registry (registry.addAll now nodes).1 ∧
      (registry.addAll now nodes).1.bans = registry.bans from h.1
  refine addAll_induction (P := fun other => Bars peer registry other ∧ other.bans = registry.bans)
    nodes ⟨Bars.refl peer registry, rfl⟩ ?_
  rintro before next node ⟨hbars, hbans⟩ hadd
  have hstill : before.isBanned now peer = true := by rwa [isBanned, hbans]
  refine ⟨hbars.trans (bars_addTemp hstill hadd), ?_⟩
  obtain ⟨_, _, _, _, _, _, rfl⟩ := addTemp_ok hadd
  exact hbans

theorem bars_insertOutbound {node : Node} (hbanned : registry.isBanned now peer = true)
    (hinsert : registry.insertOutbound now node conn = .ok after) : Bars peer registry after := by
  obtain ⟨_, hallowed, _, _, _, rfl⟩ := insertOutbound_ok hinsert
  have hother := ne_of_isBanned hbanned hallowed
  refine { Bars.refl peer registry with
    temp := fun found hmem _ => (mem_withoutTemp.mp hmem).1
    outbound := fun key pending hmem hwith => ?_ }
  rcases Table.mem_insert.mp hmem with ⟨_, hold⟩ | ⟨_, rfl⟩
  · exact hold
  · obtain ⟨dialed, hdialed, hpeer⟩ := isWith_iff.mp hwith
    cases hdialed
    exact absurd hpeer hother

theorem bars_activate {direction : Direction} {pending : Pending} {node : Node}
    (hother : node.idHash ≠ peer) :
    Bars peer registry (registry.activate now direction conn pending node) := by
  have hactive : ∀ active, (peer, active) ∈
      (registry.activate now direction conn pending node).active →
        ∃ known, (peer, known) ∈ registry.active ∧ known.conn = active.conn := by
    intro active hmem
    have hkey : peer ≠ (mergeKnown node pending.node).idHash := by
      rw [mergeKnown_idHash]
      exact Ne.symm hother
    cases direction with
    | inbound =>
        rcases Table.mem_insert.mp hmem with ⟨_, hold⟩ | ⟨hpeer, _⟩
        · exact ⟨active, hold, rfl⟩
        · exact absurd hpeer hkey
    | outbound =>
        rcases Table.mem_insert.mp hmem with ⟨_, hold⟩ | ⟨hpeer, _⟩
        · exact ⟨active, hold, rfl⟩
        · exact absurd hpeer hkey
  refine ⟨fun found hmem _ => ?_, fun key pending hmem _ => ?_, hactive⟩
  · cases direction with
    | inbound => exact (mem_withoutTemp.mp hmem).1
    | outbound => exact (mem_withoutTemp.mp hmem).1
  · cases direction with
    | inbound => exact hmem
    | outbound => exact (Table.mem_erase.mp hmem).2

theorem bars_promoteToActive {direction : Direction} {node : Node}
    (hbanned : registry.isBanned now peer = true)
    (hpromote : registry.promoteToActive now conn direction node = .ok after) :
    Bars peer registry after := by
  obtain ⟨_, hallowed, _, _, pending, middle, _, hyield, rfl⟩ := promoteToActive_ok hpromote
  exact ((yieldDial_shrinks hyield).bars peer).trans (bars_activate (ne_of_isBanned hbanned hallowed))

theorem isActive_dropActive (registry : Registry) (peer : IdHash) :
    (registry.dropActive peer).1.isActive peer = false := by
  unfold dropActive
  split
  · rw [isActive, close_active, Table.has, Table.find?_erase, if_pos rfl]
    rfl
  · rename_i hnone
    rw [isActive, Table.has, hnone]
    rfl

theorem bars_updateActive (registry : Registry) (peer other : IdHash) (change : Node → Node) :
    Bars peer registry (registry.updateActive other change) := by
  refine { Bars.refl peer registry with active := fun active hmem => ?_ }
  rw [updateActive, Table.mem_modify] at hmem
  rcases hmem with ⟨_, hold⟩ | ⟨_, known, hold, rfl⟩
  · exact ⟨active, hold, rfl⟩
  · exact ⟨known, hold, rfl⟩

/-! ## Moves at the current clock -/

/-- The same move, made at another time. -/
def Move.timed (now : Nat) : Move → Move
  | .addTemp _ node => .addTemp now node
  | .addBootNodes _ nodes => .addBootNodes now nodes
  | .requeueBootNodes _ => .requeueBootNodes now
  | .takeTemp _ seedsOnly => .takeTemp now seedsOnly
  | .promoteToOutbound _ node conn => .promoteToOutbound now node conn
  | .promoteToInbound _ conn => .promoteToInbound now conn
  | .promoteToActive _ conn direction peer => .promoteToActive now conn direction peer
  | .ban _ peer => .ban now peer
  | .evict _ => .evict now
  | .touch _ peer => .touch now peer
  | move => move

/-- No move puts a banned peer into the queue of candidates, the dialed or the active ones. -/
theorem bars_perform (hbanned : registry.isBanned now peer = true) (move : Move) :
    Bars peer registry (registry.perform (move.timed now)) := by
  cases move with
  | addTemp _ node =>
      exact unlessRefused_induction (.refl peer registry) fun _ hadd => bars_addTemp hbanned hadd
  | addBootNodes _ nodes =>
      let seeded : Registry := { registry with
        seeds := nodes.foldl (fun seeds node =>
          if seeds.contains node.ip then seeds else seeds ++ [node.ip]) registry.seeds
        bootNodes := nodes }
      have hseeded : seeded.isBanned now peer = true := hbanned
      have hbars := bars_addAll hseeded nodes
      exact ⟨hbars.temp, hbars.outbound, hbars.active⟩
  | requeueBootNodes _ => exact bars_addAll hbanned _
  | takeTemp _ seedsOnly => exact (takeTemp_shrinks registry now seedsOnly).bars peer
  | promoteToOutbound _ node conn =>
      exact settleOffer_induction (fun _ hinsert => bars_insertOutbound hbanned hinsert)
        (((Shrinks.refl registry).close conn).bars peer)
  | promoteToInbound _ conn =>
      refine settleOffer_induction (fun _ hinsert => ?_)
        (((Shrinks.refl registry).close conn).bars peer)
      rw [(insertInbound_ok hinsert).2]
      exact bars_of_same_sets peer rfl rfl rfl
  | promoteToActive _ conn direction node =>
      exact unlessRefused_induction (.refl peer registry) fun _ hpromote =>
        bars_promoteToActive hbanned hpromote
  | dropActive other => exact (dropActive_shrinks registry other).bars peer
  | removeConn conn => exact (removeConn_shrinks registry conn).bars peer
  | ban _ other => exact bars_of_same_sets peer rfl rfl rfl
  | evict _ => exact (evict_shrinks registry now).bars peer
  | closeAll => exact (closeAll_shrinks registry).bars peer
  | touch _ other =>
      exact bars_updateActive registry peer other fun node => { node with lastSeen := now }
  | updateChainInfo other bestBlock totalDifficulty =>
      exact bars_updateActive registry peer other fun node =>
        { node with bestBlock := bestBlock, totalDifficulty := totalDifficulty }
  | updateLatency other latency =>
      exact bars_updateActive registry peer other fun node =>
        { node with latencyMs := some (UInt64.ofNat (latency / millisecond)) }
  | setPort _ => exact bars_of_same_sets peer rfl rfl rfl

/-! ## Bans that stay -/

/-- A peer is banned until some time, or for longer. -/
def BannedUntil (registry : Registry) (peer : IdHash) (expiry : Nat) : Prop :=
  ∃ known, registry.bans.find? peer = some known ∧ expiry ≤ known

theorem BannedUntil.isBanned (hban : BannedUntil registry peer expiry) (hnow : now < expiry) :
    registry.isBanned now peer = true := by
  obtain ⟨known, hfind, hlater⟩ := hban
  simp [Registry.isBanned, hfind, Nat.lt_of_lt_of_le hnow hlater]

theorem bannedUntil_ban (registry : Registry) (now : Nat) (peer : IdHash) :
    BannedUntil (registry.ban now peer) peer (now + registry.limits.banDuration) :=
  ⟨_, (Table.find?_insert _ _ _ _).trans (if_pos rfl), Nat.le_refl _⟩

/-- Neither the bans nor the time for which they are made change. -/
structure KeepsBans (registry after : Registry) : Prop where
  bans : after.bans = registry.bans
  limits : after.limits = registry.limits

theorem KeepsTerms.keepsBans (h : KeepsTerms registry after) : KeepsBans registry after :=
  ⟨h.bans, h.limits⟩

theorem KeepsBans.trans (hfirst : KeepsBans registry middle) (hsecond : KeepsBans middle after) :
    KeepsBans registry after :=
  ⟨hsecond.bans.trans hfirst.bans, hsecond.limits.trans hfirst.limits⟩

theorem close_keepsBans (registry : Registry) (conn : ConnId) :
    KeepsBans registry (registry.close conn) :=
  ⟨close_bans, close_limits⟩

theorem closeMany_keepsBans (registry : Registry) (conns : List ConnId) :
    KeepsBans registry (registry.closeMany conns) :=
  closeMany_induction conns ⟨rfl, rfl⟩ fun next conn h => h.trans (close_keepsBans next conn)

theorem addAll_keepsBans (registry : Registry) (now : Nat) (nodes : List Node) :
    KeepsBans registry (registry.addAll now nodes).1 := by
  refine addAll_induction (P := KeepsBans registry) nodes ⟨rfl, rfl⟩ ?_
  intro before next node hbefore hadd
  obtain ⟨_, _, _, _, _, _, rfl⟩ := addTemp_ok hadd
  exact ⟨hbefore.bans, hbefore.limits⟩

theorem dropActive_keepsBans (registry : Registry) (peer : IdHash) :
    KeepsBans registry (registry.dropActive peer).1 := by
  unfold dropActive
  split
  · exact ⟨close_bans, close_limits⟩
  · exact ⟨rfl, rfl⟩

theorem promoteToActive_keepsBans {direction : Direction} {node : Node}
    (hpromote : registry.promoteToActive now conn direction node = .ok after) :
    KeepsBans registry after := by
  obtain ⟨_, _, _, _, pending, middle, _, hyield, rfl⟩ := promoteToActive_ok hpromote
  have hmiddle : KeepsBans registry middle := by
    rcases yieldDial_ok hyield with ⟨_, rfl⟩ | ⟨_, _, rfl⟩ | ⟨_, _, _, _, rfl⟩
    · exact ⟨rfl, rfl⟩
    · exact ⟨rfl, rfl⟩
    · exact ⟨close_bans, close_limits⟩
  exact hmiddle.trans (activate_keepsTerms middle now direction conn pending node).keepsBans

/-- Only a ban and the removal of what has expired touch the bans. -/
theorem perform_keepsBans (hban : ∀ now peer, move ≠ .ban now peer)
    (hevict : ∀ now, move ≠ .evict now) : KeepsBans registry (registry.perform move) := by
  cases move with
  | addTemp now node =>
      refine unlessRefused_induction ⟨rfl, rfl⟩ fun _ hadd => ?_
      obtain ⟨_, _, _, _, _, _, rfl⟩ := addTemp_ok hadd
      exact ⟨rfl, rfl⟩
  | addBootNodes now nodes =>
      obtain ⟨hbans, hlimits⟩ := addAll_keepsBans { registry with
        seeds := nodes.foldl (fun seeds node =>
          if seeds.contains node.ip then seeds else seeds ++ [node.ip]) registry.seeds
        bootNodes := nodes } now nodes
      exact ⟨hbans, hlimits⟩
  | requeueBootNodes now => exact addAll_keepsBans _ _ _
  | takeTemp now seedsOnly =>
      obtain ⟨rest, _, heq⟩ := registry.takeTemp_snd now seedsOnly
      rw [perform, heq]
      exact ⟨rfl, rfl⟩
  | promoteToOutbound now node conn =>
      refine settleOffer_induction (fun _ hinsert => ?_) (close_keepsBans registry conn)
      obtain ⟨_, _, _, _, _, rfl⟩ := insertOutbound_ok hinsert
      exact ⟨rfl, rfl⟩
  | promoteToInbound now conn =>
      refine settleOffer_induction (fun _ hinsert => ?_) (close_keepsBans registry conn)
      rw [(insertInbound_ok hinsert).2]
      exact ⟨rfl, rfl⟩
  | promoteToActive now conn direction node =>
      exact unlessRefused_induction ⟨rfl, rfl⟩ fun _ hpromote => promoteToActive_keepsBans hpromote
  | dropActive other => exact dropActive_keepsBans registry other
  | removeConn conn => exact (removeConn_keepsTerms registry conn).keepsBans
  | ban now other => exact absurd rfl (hban now other)
  | evict now => exact absurd rfl (hevict now)
  | closeAll =>
      obtain ⟨hbans, hlimits⟩ := closeMany_keepsBans
        { registry with temp := [], inbound := [], outbound := [], active := [] }
        (registry.inbound.keys ++ registry.outbound.keys ++ registry.active.values.map (·.conn.id))
      exact ⟨hbans, hlimits⟩
  | touch now other => exact ⟨rfl, rfl⟩
  | updateChainInfo other _ _ => exact ⟨rfl, rfl⟩
  | updateLatency other _ => exact ⟨rfl, rfl⟩
  | setPort port => exact ⟨rfl, rfl⟩

theorem evict_bans (registry : Registry) (now : Nat) :
    (registry.evict now).1.bans = registry.bans.select (now < ·) := by
  unfold evict
  dsimp only
  rw [(closeMany_keepsBans _ _).bans]

theorem perform_limits (registry : Registry) (move : Move) :
    (registry.perform move).limits = registry.limits := by
  by_cases hban : ∃ now peer, move = .ban now peer
  · obtain ⟨now, peer, rfl⟩ := hban
    rfl
  by_cases hevict : ∃ now, move = .evict now
  · obtain ⟨now, rfl⟩ := hevict
    exact (closeMany_keepsBans _ _).limits
  · exact (perform_keepsBans (fun now peer heq => hban ⟨now, peer, heq⟩)
      fun now heq => hevict ⟨now, heq⟩).limits

/-- A ban lasts through every move before it ends; a later ban of the same peer ends later. -/
theorem BannedUntil.perform (hban : BannedUntil registry peer expiry) (hnow : now < expiry)
    (hlength : expiry ≤ now + registry.limits.banDuration) (move : Move) :
    BannedUntil (registry.perform (move.timed now)) peer expiry := by
  obtain ⟨known, hfind, hlater⟩ := hban
  by_cases hnew : ∃ other, move.timed now = .ban now other
  · obtain ⟨other, heq⟩ := hnew
    rw [heq]
    by_cases hpeer : peer = other
    · exact ⟨_, (Table.find?_insert _ _ _ _).trans (if_pos hpeer), hlength⟩
    · exact ⟨known, ((Table.find?_insert _ _ _ _).trans (if_neg hpeer)).trans hfind, hlater⟩
  by_cases hevict : move.timed now = .evict now
  · rw [hevict]
    refine ⟨known, ?_, hlater⟩
    have htest : decide (now < known) = true := decide_eq_true (Nat.lt_of_lt_of_le hnow hlater)
    show (registry.evict now).1.bans.find? peer = some known
    rw [evict_bans, Table.find?_select hfind htest]
  · have hkeeps : KeepsBans registry (registry.perform (move.timed now)) := by
      refine perform_keepsBans (fun other banned heq => ?_) (fun other heq => ?_)
      · cases move <;> cases heq
        exact hnew ⟨banned, rfl⟩
      · cases move <;> cases heq
        exact hevict rfl
    exact ⟨known, by rw [hkeeps.bans, hfind], hlater⟩

end Registry

end Peering
