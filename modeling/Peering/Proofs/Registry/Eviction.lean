import Peering.Proofs.Registry.Bans
import Peering.Proofs.Registry.Ownership

/-!
# Eviction

What a pass keeps is decided for each entry alone, by a test that an entry fails for
good once it has failed it. So it does not matter how many passes were made before:
only the clock of the last one counts. A ban that a pass removes has ended by then,
so no later question about bans notices that it is gone.

Main statement: what a pass keeps, closes and reports, that two passes come to the
same as the second one alone, and that bans are in force with or without a pass.
-/

namespace Peering

namespace Registry

variable {registry middle after once : Registry} {now earlier later : Nat} {conn : ConnId}
  {peer : IdHash} {node : Node} {report first second : Eviction}

/-! ## One pass -/

/-- Whether a pending connection, dialed or accepted, is as old as the timeout. -/
def TimedOut (registry : Registry) (now : Nat) (conn : ConnId) : Prop :=
  ∃ pending, ((conn, pending) ∈ registry.inbound ∨ (conn, pending) ∈ registry.outbound) ∧
    registry.limits.handshakeTimeout ≤ now - pending.conn.openedAt

/--
What one pass does: the candidates, the pending connections and the bans that are
kept, in their order; the connections that are closed, each once unless it was
closed before; the numbers that are reported; and that nothing else changes.
-/
structure Evicts (registry : Registry) (now : Nat) (after : Registry) (report : Eviction) :
    Prop where
  temp : after.temp = registry.temp.filter fun node =>
    now - node.since < registry.limits.tempTtl
  inbound : after.inbound = registry.inbound.filter fun entry =>
    now - entry.2.conn.openedAt < registry.limits.handshakeTimeout
  outbound : after.outbound = registry.outbound.filter fun entry =>
    now - entry.2.conn.openedAt < registry.limits.handshakeTimeout
  bans : after.bans = registry.bans.filter fun entry => now < entry.2
  rest : after = { registry with
    temp := after.temp
    inbound := after.inbound
    outbound := after.outbound
    bans := after.bans
    closed := after.closed
    teardowns := after.teardowns }
  closed : ∃ added : List ConnId, added.Nodup ∧
    (∀ conn, conn ∈ added ↔ registry.TimedOut now conn ∧ registry.isClosed conn = false) ∧
    after.closed = registry.closed ++ added ∧ after.teardowns = registry.teardowns ++ added
  reported_temp : report.temp + after.temp.length = registry.temp.length
  reported_handshakes : report.handshakes + (after.inbound.length + after.outbound.length) =
    registry.inbound.length + registry.outbound.length
  reported_bans : report.bans + after.bans.length = registry.bans.length

/-- Connections are closed once each, in the order in which they come. -/
theorem closeMany_once (registry : Registry) (conns : List ConnId) :
    ∃ added : List ConnId, added.Nodup ∧
      (∀ conn, conn ∈ added ↔ conn ∈ conns ∧ registry.isClosed conn = false) ∧
      registry.closeMany conns = { registry with
        closed := registry.closed ++ added
        teardowns := registry.teardowns ++ added } := by
  induction conns generalizing registry with
  | nil => exact ⟨[], List.nodup_nil, by simp, by simp [closeMany]⟩
  | cons conn rest ih =>
      obtain ⟨added, hnodup, hadded, heq⟩ := ih (registry.close conn)
      rw [closeMany, List.foldl_cons, ← closeMany, heq]
      by_cases hclosed : registry.isClosed conn = true
      · have hsame : registry.close conn = registry := if_pos hclosed
        rw [hsame] at hadded ⊢
        refine ⟨added, hnodup, fun other => ?_, rfl⟩
        rw [hadded, List.mem_cons]
        constructor
        · rintro ⟨hmem, hopen⟩
          exact ⟨Or.inr hmem, hopen⟩
        · rintro ⟨rfl | hmem, hopen⟩
          · exact absurd hclosed (Bool.eq_false_iff.mp hopen)
          · exact ⟨hmem, hopen⟩
      · rw [Bool.not_eq_true] at hclosed
        have hnext : ∀ other, (registry.close conn).isClosed other = false ↔
            registry.isClosed other = false ∧ other ≠ conn := by
          intro other
          rw [← Bool.not_eq_true, isClosed_close, not_or, Bool.not_eq_true]
        have hnew : conn ∉ added := by
          intro hmem
          exact ((hnext conn).mp ((hadded conn).mp hmem).2).2 rfl
        refine ⟨conn :: added, List.nodup_cons.mpr ⟨hnew, hnodup⟩, fun other => ?_,
          by simp [close, hclosed]⟩
        rw [List.mem_cons, hadded, hnext, List.mem_cons]
        constructor
        · rintro (rfl | ⟨hmem, hopen, _⟩)
          · exact ⟨Or.inl rfl, hclosed⟩
          · exact ⟨Or.inr hmem, hopen⟩
        · rintro ⟨rfl | hmem, hopen⟩
          · exact Or.inl rfl
          · by_cases hsame : other = conn
            · exact Or.inl hsame
            · exact Or.inr ⟨hmem, hopen, hsame⟩

theorem select_not_isOverdue (registry : Registry) (now : Nat) (table : Table ConnId Pending) :
    (table.select fun pending => !registry.isOverdue now pending) =
      table.filter fun entry =>
        now - entry.2.conn.openedAt < registry.limits.handshakeTimeout := by
  refine List.filter_congr fun entry _ => ?_
  simp only [isOverdue, ← decide_not, Nat.not_le]

theorem evict_evicts (registry : Registry) (now : Nat) :
    Evicts registry now (registry.evict now).1 (registry.evict now).2 := by
  obtain ⟨added, hnodup, hadded, heq⟩ := closeMany_once
    { registry with
      temp := registry.temp.filter (registry.isFresh now)
      inbound := registry.inbound.select fun pending => !registry.isOverdue now pending
      outbound := registry.outbound.select fun pending => !registry.isOverdue now pending
      bans := registry.bans.select (now < ·) }
    ((registry.inbound.select (registry.isOverdue now)).keys ++
      (registry.outbound.select (registry.isOverdue now)).keys)
  have hinbound := Table.length_select_add registry.inbound (registry.isOverdue now)
  have houtbound := Table.length_select_add registry.outbound (registry.isOverdue now)
  have htemp := List.length_filter_le (registry.isFresh now) registry.temp
  have hbans := List.length_filter_le (fun entry => decide (now < entry.2)) registry.bans
  unfold evict
  dsimp only
  rw [heq]
  refine ⟨rfl, select_not_isOverdue registry now _, select_not_isOverdue registry now _, rfl, rfl,
    ⟨added, hnodup, fun conn => ?_, rfl, rfl⟩, ?_, ?_, ?_⟩
  · rw [hadded, List.mem_append, Table.mem_keys_select, Table.mem_keys_select]
    simp only [TimedOut, isOverdue, decide_eq_true_eq, or_and_right, exists_or]
    rfl
  · exact Nat.sub_add_cancel htemp
  · simp only [List.length_append]
    omega
  · exact Nat.sub_add_cancel hbans

/-! ## Two passes -/

/-- The same registry, except that connections may have been closed in another order. -/
structure Resembles (registry other : Registry) : Prop where
  rest : other = { registry with closed := other.closed, teardowns := other.teardowns }
  closed : registry.closed.Perm other.closed
  teardowns : registry.teardowns.Perm other.teardowns

/-- What fails a test whatever fails an earlier one is found by the later test alone. -/
theorem filter_filter_of_imp {α : Type} {list : List α} {early late : α → Bool}
    (himp : ∀ value, late value = true → early value = true) :
    (list.filter early).filter late = list.filter late := by
  rw [List.filter_filter]
  refine List.filter_congr fun value _ => ?_
  cases hlate : late value with
  | false => rfl
  | true => simp [himp value hlate]

theorem Evicts.limits (hevicts : Evicts registry now after report) :
    after.limits = registry.limits := by
  rw [hevicts.rest]

/-- What times out by the second pass is found by the first one or by the second. -/
theorem Evicts.timedOut_iff (hfirst : Evicts registry earlier middle first) (hle : earlier ≤ now) :
    registry.TimedOut now conn ↔ registry.TimedOut earlier conn ∨ middle.TimedOut now conn := by
  simp only [TimedOut, hfirst.limits, hfirst.inbound, hfirst.outbound, List.mem_filter,
    decide_eq_true_eq]
  constructor
  · rintro ⟨pending, hmem, hold⟩
    by_cases hearly : registry.limits.handshakeTimeout ≤ earlier - pending.conn.openedAt
    · exact Or.inl ⟨pending, hmem, hearly⟩
    · have hkept := Nat.lt_of_not_le hearly
      exact Or.inr ⟨pending, hmem.imp (⟨·, hkept⟩) (⟨·, hkept⟩), hold⟩
  · rintro (⟨pending, hmem, hearly⟩ | ⟨pending, hmem, hold⟩)
    · exact ⟨pending, hmem, by omega⟩
    · exact ⟨pending, hmem.imp And.left And.left, hold⟩

/-- Two passes close the connections that the second one would have closed alone. -/
theorem Evicts.closed_perm (hfirst : Evicts registry earlier middle first)
    (hsecond : Evicts middle now after second) (honce : Evicts registry now once report)
    (hle : earlier ≤ now) :
    after.closed.Perm once.closed ∧ after.teardowns.Perm once.teardowns := by
  obtain ⟨early, hearlyNodup, hearly, hmiddle, hmiddleTeardowns⟩ := hfirst.closed
  obtain ⟨late, hlateNodup, hlate, hafter, hafterTeardowns⟩ := hsecond.closed
  obtain ⟨added, haddedNodup, hadded, hclosed, hteardowns⟩ := honce.closed
  have hopen : ∀ conn, middle.isClosed conn = false ↔
      registry.isClosed conn = false ∧ conn ∉ early := by
    intro conn
    simp [isClosed, hmiddle]
  have hnodup : (early ++ late).Nodup := by
    refine List.nodup_append.mpr ⟨hearlyNodup, hlateNodup, ?_⟩
    rintro conn hmem _ hlater rfl
    exact ((hopen conn).mp ((hlate conn).mp hlater).2).2 hmem
  have hperm : (early ++ late).Perm added := by
    refine (List.perm_ext_iff_of_nodup hnodup haddedNodup).mpr fun conn => ?_
    rw [List.mem_append, hadded, hlate, hopen, hfirst.timedOut_iff hle]
    constructor
    · rintro (hmem | ⟨hlater, hstill, _⟩)
      · exact ⟨Or.inl ((hearly conn).mp hmem).1, ((hearly conn).mp hmem).2⟩
      · exact ⟨Or.inr hlater, hstill⟩
    · rintro ⟨htimed, hstill⟩
      by_cases hmem : conn ∈ early
      · exact Or.inl hmem
      · have hnot : ¬ registry.TimedOut earlier conn := fun h =>
          hmem ((hearly conn).mpr ⟨h, hstill⟩)
        exact Or.inr ⟨htimed.resolve_left hnot, hstill, hmem⟩
  constructor
  · rw [hafter, hmiddle, hclosed, List.append_assoc]
    exact hperm.append_left _
  · rw [hafterTeardowns, hmiddleTeardowns, hteardowns, List.append_assoc]
    exact hperm.append_left _

/-- After any first pass, the second one leaves what it would have left alone. -/
theorem Evicts.compose (hfirst : Evicts registry earlier middle first)
    (hsecond : Evicts middle now after second) (honce : Evicts registry now once report)
    (hle : earlier ≤ now) :
    Resembles after once ∧ first.temp + second.temp = report.temp ∧
      first.handshakes + second.handshakes = report.handshakes ∧
      first.bans + second.bans = report.bans := by
  have hyounger : ∀ since limit, decide (now - since < limit) = true →
      decide (earlier - since < limit) = true := by
    intro since limit hyoung
    simp only [decide_eq_true_eq] at hyoung ⊢
    omega
  have htemp : after.temp = once.temp := by
    rw [hsecond.temp, hfirst.temp, hfirst.limits, honce.temp]
    exact filter_filter_of_imp fun node => hyounger node.since _
  have hinbound : after.inbound = once.inbound := by
    rw [hsecond.inbound, hfirst.inbound, hfirst.limits, honce.inbound]
    exact filter_filter_of_imp fun entry => hyounger entry.2.conn.openedAt _
  have houtbound : after.outbound = once.outbound := by
    rw [hsecond.outbound, hfirst.outbound, hfirst.limits, honce.outbound]
    exact filter_filter_of_imp fun entry => hyounger entry.2.conn.openedAt _
  have hbans : after.bans = once.bans := by
    rw [hsecond.bans, hfirst.bans, honce.bans]
    refine filter_filter_of_imp fun entry hlasts => ?_
    simp only [decide_eq_true_eq] at hlasts ⊢
    omega
  obtain ⟨hclosed, hteardowns⟩ := hfirst.closed_perm hsecond honce hle
  have hrest : once = { after with closed := once.closed, teardowns := once.teardowns } := by
    rw [honce.rest, hsecond.rest, hfirst.rest]
    simp only [htemp, hinbound, houtbound, hbans]
  refine ⟨⟨hrest, hclosed, hteardowns⟩, ?_, ?_, ?_⟩
  · have h1 := hfirst.reported_temp
    have h2 := hsecond.reported_temp
    have h3 := honce.reported_temp
    rw [htemp] at h2
    omega
  · have h1 := hfirst.reported_handshakes
    have h2 := hsecond.reported_handshakes
    have h3 := honce.reported_handshakes
    rw [hinbound, houtbound] at h2
    omega
  · have h1 := hfirst.reported_bans
    have h2 := hsecond.reported_bans
    have h3 := honce.reported_bans
    rw [hbans] at h2
    omega

/-- A pass at the time of the last one finds nothing to do. -/
theorem Evicts.again (hfirst : Evicts registry now middle first)
    (hsecond : Evicts middle now after second) : after = middle ∧ second = ⟨0, 0, 0⟩ := by
  -- The first pass alone is what the two of them come to.
  obtain ⟨hsame, htemp, hhandshakes, hended⟩ := hfirst.compose hsecond hfirst (Nat.le_refl now)
  obtain ⟨added, _, _, hclosed, hteardowns⟩ := hsecond.closed
  have hnone : added = [] := by
    have hlength := hsame.closed.length_eq
    rw [hclosed, List.length_append] at hlength
    exact List.length_eq_zero_iff.mp (by omega)
  rw [hnone, List.append_nil] at hclosed hteardowns
  constructor
  · calc after = { after with closed := middle.closed, teardowns := middle.teardowns } := by
          rw [← hclosed, ← hteardowns]
      _ = middle := hsame.rest.symm
  · obtain ⟨temp, handshakes, bans⟩ := second
    simp only at htemp hhandshakes hended
    simp only [Eviction.mk.injEq]
    omega

/-! ## Bans -/

/-- In every history a peer has one ban at most. -/
theorem nodup_bans_perform (hbans : registry.bans.keys.Nodup) (move : Move) :
    (registry.perform move).bans.keys.Nodup := by
  by_cases hban : ∃ now peer, move = .ban now peer
  · obtain ⟨now, peer, rfl⟩ := hban
    exact Table.nodup_keys_insert hbans
  by_cases hevict : ∃ now, move = .evict now
  · obtain ⟨now, rfl⟩ := hevict
    rw [perform, evict_bans]
    exact (List.filter_sublist.map _).nodup hbans
  · rw [(perform_keepsBans (fun now peer heq => hban ⟨now, peer, heq⟩)
      fun now heq => hevict ⟨now, heq⟩).bans]
    exact hbans

theorem nodup_bans_run (registry : Registry) (hbans : registry.bans.keys.Nodup)
    (moves : List Move) : (registry.run moves).bans.keys.Nodup :=
  run_induction (P := fun registry => registry.bans.keys.Nodup) moves hbans
    fun _ move hbans => nodup_bans_perform hbans move

/-- As a peer has one ban at most, one that is gone uncovers no other. -/
theorem Evicts.isBanned (hevicts : Evicts registry now after report)
    (hbans : registry.bans.keys.Nodup) (hle : now ≤ later) (peer : IdHash) :
    after.isBanned later peer = registry.isBanned later peer := by
  have hkept : after.bans = registry.bans.select (now < ·) := hevicts.bans
  rw [Registry.isBanned, hkept, Table.find?_select_of_nodup hbans, Registry.isBanned]
  cases registry.bans.find? peer with
  | none => rfl
  | some expiry =>
      by_cases hlasts : now < expiry
      · simp [Option.filter, hlasts]
      · have hover : ¬ later < expiry := by omega
        simp [Option.filter, hlasts, hover]

theorem addTemp_eq_banned_iff : registry.addTemp now node = .error .banned ↔
    registry.isSelf node = false ∧ registry.isBanned now node.idHash = true := by
  unfold addTemp
  split
  · rename_i hself
    simp [hself]
  rename_i hself
  split
  · rename_i hbanned
    simp [hself, hbanned]
  rename_i hbanned
  split
  · simp [hbanned]
  split <;> simp [hbanned]

theorem insertOutbound_eq_banned_iff : registry.insertOutbound now node conn = .error .banned ↔
    registry.isSelf node = false ∧ registry.isBanned now node.idHash = true := by
  unfold insertOutbound
  split
  · rename_i hself
    simp [hself]
  rename_i hself
  split
  · rename_i hbanned
    simp [hself, hbanned]
  rename_i hbanned
  split
  · simp [hbanned]
  split
  · simp [hbanned]
  split <;> simp [hbanned]

/-- A dial that does not yield is the only thing that a promotion is refused for there. -/
theorem yieldDial_error {direction : Direction} {error : RegistryError}
    (hyield : registry.yieldDial direction peer = .error error) : error = .alreadyConnected := by
  unfold yieldDial at hyield
  split at hyield
  · split at hyield
    · cases hyield
    · exact (Except.error.inj hyield).symm
  · cases hyield

/-- A socket that is not pending in the named direction is missed before the ban is looked up. -/
theorem promoteToActive_eq_banned_iff {direction : Direction} :
    registry.promoteToActive now conn direction node = .error .banned ↔
      registry.isSelf node = false ∧ (registry.pendingSet direction).has conn = true ∧
        registry.isBanned now node.idHash = true := by
  unfold promoteToActive
  split
  · rename_i hself
    simp [hself]
  rename_i hself
  split
  · rename_i hnone
    simp [Table.has, hnone]
  rename_i pending hpending
  have hhas : (registry.pendingSet direction).has conn = true := by simp [Table.has, hpending]
  split
  · rename_i hbanned
    simp [hself, hhas, hbanned]
  rename_i hbanned
  split
  · simp [hbanned]
  split
  · simp [hbanned]
  · cases hyield : registry.yieldDial direction node.idHash with
    | ok after => simp [hbanned, bind, Except.bind, pure, Except.pure]
    | error error =>
        simp [hbanned, yieldDial_error hyield, bind, Except.bind]

theorem promoteToOutbound_eq_banned_iff :
    (registry.promoteToOutbound now node conn).2 = .error .banned ↔
      registry.isSelf node = false ∧ registry.isBanned now node.idHash = true := by
  have hinsert : registry.insertOutbound now node conn = .error .banned ↔ _ :=
    insertOutbound_eq_banned_iff
  rw [← hinsert, promoteToOutbound]
  cases registry.insertOutbound now node conn with
  | ok after => simp [settleOffer]
  | error error => simp [settleOffer]

theorem Evicts.isSelf (hevicts : Evicts registry now after report) (node : Node) :
    after.isSelf node = registry.isSelf node := by
  rw [hevicts.rest]
  rfl

theorem Evicts.has_pendingSet (hevicts : Evicts registry now after report) (direction : Direction)
    (hhas : (after.pendingSet direction).has conn = true) :
    (registry.pendingSet direction).has conn = true := by
  obtain ⟨pending, hmem⟩ := Table.has_iff.mp hhas
  refine Table.has_iff.mpr ⟨pending, ?_⟩
  cases direction with
  | inbound =>
      rw [pendingSet, hevicts.inbound] at hmem
      exact (List.mem_filter.mp hmem).1
  | outbound =>
      rw [pendingSet, hevicts.outbound] at hmem
      exact (List.mem_filter.mp hmem).1

/--
A pass keeps the candidates younger than their time to live, the pending connections
younger than the timeout and the bans that have not ended; it closes the connections
that it removes, and reports how many entries it removed. A pass after an earlier one
leaves what it would have left alone, and the reports add up; at the same time it
finds nothing. From the time of a pass on, a peer is banned, a candidate refused and a
promotion refused for a ban just as without the pass, unless it is the promotion of a
connection that the pass has removed.
-/
theorem evict_composes (registry : Registry) (earlier now : Nat) (hle : earlier ≤ now)
    (hbans : registry.bans.keys.Nodup) :
    let pass := registry.evict now
    let early := registry.evict earlier
    let twice := early.1.evict now
    Evicts registry now pass.1 pass.2 ∧
    (Resembles twice.1 pass.1 ∧ early.2.temp + twice.2.temp = pass.2.temp ∧
      early.2.handshakes + twice.2.handshakes = pass.2.handshakes ∧
      early.2.bans + twice.2.bans = pass.2.bans) ∧
    pass.1.evict now = (pass.1, ⟨0, 0, 0⟩) ∧
    ∀ later, now ≤ later → ∀ (peer : IdHash) (node : Node) (conn : ConnId) (direction : Direction),
      pass.1.isBanned later peer = registry.isBanned later peer ∧
      (pass.1.addTemp later node = .error .banned ↔
        registry.addTemp later node = .error .banned) ∧
      ((pass.1.promoteToOutbound later node conn).2 = .error .banned ↔
        (registry.promoteToOutbound later node conn).2 = .error .banned) ∧
      (pass.1.promoteToActive later conn direction node = .error .banned ↔
        (pass.1.pendingSet direction).has conn = true ∧
          registry.promoteToActive later conn direction node = .error .banned) := by
  intro pass early twice
  have hpass : Evicts registry now pass.1 pass.2 := evict_evicts registry now
  refine ⟨hpass, (evict_evicts registry earlier).compose (evict_evicts early.1 now) hpass hle,
    ?_, fun later hlater peer node conn direction => ⟨?_, ?_, ?_, ?_⟩⟩
  · obtain ⟨hsame, hnothing⟩ := hpass.again (evict_evicts pass.1 now)
    exact Prod.ext hsame hnothing
  · exact hpass.isBanned hbans hlater peer
  · rw [addTemp_eq_banned_iff, addTemp_eq_banned_iff, hpass.isSelf, hpass.isBanned hbans hlater]
  · rw [promoteToOutbound_eq_banned_iff, promoteToOutbound_eq_banned_iff, hpass.isSelf,
      hpass.isBanned hbans hlater]
  · rw [promoteToActive_eq_banned_iff, promoteToActive_eq_banned_iff, hpass.isSelf,
      hpass.isBanned hbans hlater]
    constructor
    · rintro ⟨hself, hhas, hbanned⟩
      exact ⟨hhas, hself, hpass.has_pendingSet direction hhas, hbanned⟩
    · rintro ⟨hhas, hself, _, hbanned⟩
      exact ⟨hself, hhas, hbanned⟩

/-- Entries of every kind, some of which are exactly as old as they may not be. -/
def expiring : List Move :=
  [.addTemp 0 (repeatedNode 0x61), .addTemp 30 (repeatedNode 0x63), .promoteToInbound 0 1,
    .promoteToInbound 40 2, .promoteToOutbound 10 (repeatedNode 0x64) 3,
    .ban 0 (repeatedNode 0x65).idHash, .ban 50 (repeatedNode 0x66).idHash]

theorem evict_composes_of_expiring :
    let registry := crossingStart.run expiring
    let early := registry.evict 60
    let twice := early.1.evict 110
    registry.bans.keys.Nodup ∧ early.2 = ⟨1, 1, 1⟩ ∧ (registry.evict 110).2 = ⟨2, 3, 2⟩ ∧
      twice.2.temp = 1 ∧ twice.2.handshakes = 2 ∧ twice.2.bans = 1 ∧
      Resembles twice.1 (registry.evict 110).1 := by
  intro registry early twice
  have hbans : registry.bans.keys.Nodup := nodup_bans_run crossingStart (by decide) expiring
  have hearly : early.2 = ⟨1, 1, 1⟩ := by decide +kernel
  have honce : (registry.evict 110).2 = ⟨2, 3, 2⟩ := by decide +kernel
  obtain ⟨_, ⟨hresembles, htemp, hhandshakes, hended⟩, _, _⟩ :=
    evict_composes registry 60 110 (by decide) hbans
  rw [hearly, honce] at htemp hhandshakes hended
  exact ⟨hbans, hearly, honce, Nat.add_left_cancel htemp, Nat.add_left_cancel hhandshakes,
    Nat.add_left_cancel hended, hresembles⟩

end Registry

end Peering
