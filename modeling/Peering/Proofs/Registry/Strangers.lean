import Peering.Proofs.Registry.Identity
import Peering.Proofs.Registry.Ownership

/-!
# Never ourselves

A node is us if it has our id, or our id hash and port, or our address and port. Every
move that is offered a node turns away one that is us, and none changes who an entry
is with. Only our port can change, and it is recorded before there is any connection;
candidates that were queued before that are looked at again when they are taken.
-/

namespace Peering

/-- A node is us by id, by id hash and port, or by address and port if we have an address. -/
def Identity.Names (self : Identity) (node : Node) : Prop :=
  node.id = self.id ∨ (node.idHash = self.idHash ∧ node.port = self.port) ∨
    (node.ip = self.ip ∧ node.port = self.port ∧ self.ip.isUnspecified = false)

instance (self : Identity) (node : Node) : Decidable (self.Names node) :=
  inferInstanceAs (Decidable (_ ∨ _))

namespace Registry

variable {registry after : Registry} {us : Identity} {now : Nat} {conn : ConnId}
  {peer : IdHash} {direction : Direction} {node : Node}

theorem isSelf_iff : registry.isSelf node = true ↔ registry.self.Names node := by
  simp [isSelf, Identity.Names, or_assoc, and_assoc]

theorem not_names_of_isSelf (hother : registry.isSelf node = false) : ¬ registry.self.Names node :=
  fun hnames => Bool.false_ne_true (hother.symm.trans (isSelf_iff.mpr hnames))

theorem mergeKnown_names (node : Node) (known : Option Node) :
    us.Names (mergeKnown node known) ↔ us.Names node := by
  cases known <;> exact Iff.rfl

/-! ## Nodes that are turned away -/

theorem addTemp_of_names (hnames : registry.self.Names node) (now : Nat) :
    registry.addTemp now node = .error .isSelf := by
  rw [addTemp, if_pos (isSelf_iff.mpr hnames)]

theorem promoteToOutbound_of_names (hnames : registry.self.Names node) (now : Nat) (conn : ConnId) :
    registry.promoteToOutbound now node conn = (registry.close conn, .error .isSelf) := by
  rw [promoteToOutbound, insertOutbound, if_pos (isSelf_iff.mpr hnames)]
  rfl

theorem promoteToActive_of_names (hnames : registry.self.Names node) (now : Nat) (conn : ConnId)
    (direction : Direction) :
    registry.promoteToActive now conn direction node = .error .isSelf := by
  rw [promoteToActive, if_pos (isSelf_iff.mpr hnames)]

theorem validate_of_names (hnames : registry.self.Names node) (now : Nat) :
    registry.validate now node = false := by
  rw [validate, isSelf_iff.mpr hnames]
  rfl

/-- Many candidates are queued as if those that are us were not among them. -/
theorem addAll_eq (registry : Registry) (now : Nat) (nodes : List Node) :
    registry.addAll now nodes =
      registry.addAll now (nodes.filter fun node => ¬ registry.self.Names node) := by
  induction nodes generalizing registry with
  | nil => rfl
  | cons node rest ih =>
      by_cases hnames : registry.self.Names node
      · rw [List.filter_cons_of_neg (by simpa using hnames), ← ih, addAll,
          addTemp_of_names hnames]
      · rw [List.filter_cons_of_pos (by simpa using hnames), addAll, addAll]
        cases hadd : registry.addTemp now node with
        | error error => exact ih registry
        | ok after =>
            obtain ⟨_, _, _, _, _, _, hafter⟩ := addTemp_ok hadd
            have hself : after.self = registry.self := by rw [hafter]
            dsimp only
            rw [ih after, hself]

/-- The registry that remembers boot nodes and their addresses, before any of them is queued. -/
def remembering (registry : Registry) (nodes : List Node) : Registry :=
  { registry with
    seeds := nodes.foldl
      (fun seeds node => if seeds.contains node.ip then seeds else seeds ++ [node.ip])
      registry.seeds
    bootNodes := nodes }

theorem addBootNodes_eq (registry : Registry) (now : Nat) (nodes : List Node) :
    registry.addBootNodes now nodes =
      (registry.remembering nodes).addAll now
        (nodes.filter fun node => ¬ registry.self.Names node) :=
  addAll_eq (registry.remembering nodes) now nodes

/-- A candidate that is taken is not us, as we are now. -/
theorem not_names_of_takeTemp {seedsOnly : Bool}
    (htake : (registry.takeTemp now seedsOnly).1 = some node) : ¬ registry.self.Names node := by
  unfold takeTemp at htake
  split at htake
  · cases htake
  · rename_i first rest hrest
    obtain rfl := Option.some.inj htake
    intro hnames
    have hpassed := List.head?_dropWhile_not (fun node => !registry.isDialable now seedsOnly node)
      registry.temp
    rw [hrest] at hpassed
    simp [isDialable, validate_of_names hnames] at hpassed

/-! ## Connected nodes -/

/-- No node that is dialed or active is the given one. -/
structure Foreign (us : Identity) (registry : Registry) : Prop where
  dialed : ∀ conn pending node, (conn, pending) ∈ registry.outbound → pending.node = some node →
    ¬ us.Names node
  active : ∀ peer active, (peer, active) ∈ registry.active → ¬ us.Names active.node

theorem Foreign.shrink (hforeign : Foreign us registry) (hshrinks : Shrinks registry after) :
    Foreign us after where
  dialed := fun conn pending node hmem => hforeign.dialed conn pending node
    (hshrinks.outbound.subset hmem)
  active := fun peer active hmem => hforeign.active peer active (hshrinks.active.subset hmem)

theorem Foreign.of_same (hforeign : Foreign us registry)
    (houtbound : after.outbound = registry.outbound) (hactive : after.active = registry.active) :
    Foreign us after :=
  ⟨houtbound ▸ hforeign.dialed, hactive ▸ hforeign.active⟩

theorem Foreign.addAll (hforeign : Foreign us registry) (now : Nat) (nodes : List Node) :
    Foreign us (registry.addAll now nodes).1 :=
  addAll_induction (P := Foreign us) nodes hforeign fun _ _ _ hbefore hadd => by
    obtain ⟨_, _, _, _, _, _, rfl⟩ := addTemp_ok hadd
    exact hbefore.of_same rfl rfl

theorem Foreign.insertOutbound (hforeign : Foreign registry.self registry)
    (hinsert : registry.insertOutbound now node conn = .ok after) :
    Foreign registry.self after := by
  obtain ⟨hself, _, _, _, _, rfl⟩ := insertOutbound_ok hinsert
  refine ⟨fun key pending dialed hmem hdialed => ?_, hforeign.active⟩
  rcases Table.mem_insert.mp hmem with ⟨_, hold⟩ | ⟨_, rfl⟩
  · exact hforeign.dialed key pending dialed hold hdialed
  · cases hdialed
    exact not_names_of_isSelf hself

theorem Foreign.promoteToActive (hforeign : Foreign registry.self registry)
    (hpromote : registry.promoteToActive now conn direction node = .ok after) :
    Foreign registry.self after := by
  obtain ⟨hself, _, _, _, pending, middle, _, hyield, rfl⟩ := promoteToActive_ok hpromote
  have hmiddle := hforeign.shrink (yieldDial_shrinks hyield)
  have hpeer : ¬ registry.self.Names (mergeKnown node pending.node) := fun hnames =>
    not_names_of_isSelf hself ((mergeKnown_names node pending.node).mp hnames)
  cases direction with
  | inbound =>
      refine ⟨hmiddle.dialed, fun peer active hmem => ?_⟩
      rcases Table.mem_insert.mp hmem with ⟨_, hold⟩ | ⟨_, rfl⟩
      · exact hmiddle.active peer active hold
      · exact hpeer
  | outbound =>
      refine ⟨fun key pending dialed hmem => ?_, fun peer active hmem => ?_⟩
      · exact hmiddle.dialed key pending dialed (Table.mem_erase.mp hmem).2
      · rcases Table.mem_insert.mp hmem with ⟨_, hold⟩ | ⟨_, rfl⟩
        · exact hmiddle.active peer active hold
        · exact hpeer

theorem Foreign.updateActive (hforeign : Foreign us registry) (peer : IdHash)
    (change : Node → Node) (hchange : ∀ node, us.Names (change node) → us.Names node) :
    Foreign us (registry.updateActive peer change) := by
  refine ⟨hforeign.dialed, fun other active hmem => ?_⟩
  rw [Registry.updateActive, Table.mem_modify] at hmem
  rcases hmem with ⟨_, hold⟩ | ⟨_, known, hold, rfl⟩
  · exact hforeign.active other active hold
  · exact fun hnames => hforeign.active other known hold (hchange known.node hnames)

theorem Foreign.perform (hforeign : Foreign registry.self registry) {move : Move}
    (hport : move.setsPort = false) : Foreign registry.self (registry.perform move) := by
  cases move with
  | addTemp now node =>
      refine unlessRefused_induction hforeign fun _ hadd => ?_
      obtain ⟨_, _, _, _, _, _, rfl⟩ := addTemp_ok hadd
      exact hforeign.of_same rfl rfl
  | addBootNodes now nodes =>
      have hremembering : Foreign registry.self (registry.remembering nodes) :=
        hforeign.of_same rfl rfl
      exact hremembering.addAll now nodes
  | requeueBootNodes now => exact hforeign.addAll now _
  | takeTemp now seedsOnly => exact hforeign.shrink (takeTemp_shrinks registry now seedsOnly)
  | promoteToOutbound now node conn =>
      exact settleOffer_induction (fun _ hinsert => hforeign.insertOutbound hinsert)
        (hforeign.shrink ((Shrinks.refl registry).close conn))
  | promoteToInbound now conn =>
      refine settleOffer_induction (fun _ hinsert => ?_)
        (hforeign.shrink ((Shrinks.refl registry).close conn))
      rw [(insertInbound_ok hinsert).2]
      exact hforeign.of_same rfl rfl
  | promoteToActive now conn direction peer =>
      exact unlessRefused_induction hforeign fun _ hpromote => hforeign.promoteToActive hpromote
  | dropActive peer => exact hforeign.shrink (dropActive_shrinks registry peer)
  | removeConn conn => exact hforeign.shrink (removeConn_shrinks registry conn)
  | ban now peer => exact hforeign.of_same rfl rfl
  | evict now => exact hforeign.shrink (evict_shrinks registry now)
  | closeAll => exact hforeign.shrink (closeAll_shrinks registry)
  | touch now peer =>
      exact hforeign.updateActive peer (fun node => { node with lastSeen := now })
        fun _ hnames => hnames
  | updateChainInfo peer bestBlock totalDifficulty =>
      exact hforeign.updateActive peer
        (fun node => { node with bestBlock := bestBlock, totalDifficulty := totalDifficulty })
        fun _ hnames => hnames
  | updateLatency peer latency =>
      exact hforeign.updateActive peer
        (fun node => { node with latencyMs := some (UInt64.ofNat (latency / millisecond)) })
        fun _ hnames => hnames
  | setPort port => cases hport

/-! ## Histories in which the port comes first -/

/-- The port is recorded, if at all, before the first connection is offered. -/
def bindsPortFirst : List Move → Bool
  | [] => true
  | move :: rest =>
      if move.offer?.isSome then rest.all (!·.setsPort) else bindsPortFirst rest

/-- There is no connection yet. -/
structure Unconnected (registry : Registry) : Prop where
  keyed : Keyed registry
  handles : registry.handles = []

theorem Unconnected.foreign (hnone : Unconnected registry) (us : Identity) :
    Foreign us registry := by
  have hout : ∀ conn, conn ∉ registry.handles := fun conn => by
    rw [hnone.handles]
    exact List.not_mem_nil
  refine ⟨fun conn pending node hmem => absurd ?_ (hout pending.conn.id),
    fun peer active hmem => absurd ?_ (hout active.conn.id)⟩
  · exact mem_handles.mpr (Or.inl ⟨conn, pending, hmem, rfl⟩)
  · exact mem_handles.mpr (Or.inr (Or.inr ⟨peer, active, hmem, rfl⟩))

/-- Without an offer there is no connection to promote either. -/
theorem Unconnected.perform (hnone : Unconnected registry) {move : Move}
    (hoffer : move.offer? = none) : Unconnected (registry.perform move) := by
  obtain ⟨released, hsettles⟩ := hnone.keyed.perform_settles move (by simp [hoffer])
  have hhandles := hsettles.handles
  rw [hoffer, hnone.handles] at hhandles
  have hempty : released ++ (registry.perform move).handles = [] := List.nil_perm.mp hhandles
  exact ⟨hsettles.keyed, (List.append_eq_nil_iff.mp hempty).2⟩

theorem Foreign.run (hforeign : Foreign registry.self registry) (moves : List Move)
    (hports : moves.all (!·.setsPort) = true) :
    Foreign (registry.run moves).self (registry.run moves) := by
  induction moves generalizing registry with
  | nil => exact hforeign
  | cons move rest ih =>
      obtain ⟨hmove, hrest⟩ := Bool.and_eq_true_iff.mp hports
      have hport : move.setsPort = false := by simpa using hmove
      refine ih ?_ hrest
      rw [perform_self registry hport]
      exact hforeign.perform hport

theorem Unconnected.run_foreign (hnone : Unconnected registry) (moves : List Move)
    (hports : bindsPortFirst moves = true) :
    Foreign (registry.run moves).self (registry.run moves) := by
  induction moves generalizing registry with
  | nil => exact hnone.foreign _
  | cons move rest ih =>
      rw [bindsPortFirst] at hports
      split at hports
      · rename_i hoffer
        have hport : move.setsPort = false := by
          cases move with
          | setPort port => cases hoffer
          | _ => rfl
        have hmoved := (hnone.foreign registry.self).perform hport
        rw [← perform_self registry hport] at hmoved
        exact hmoved.run rest hports
      · rename_i hoffer
        exact ih (hnone.perform (Option.not_isSome_iff_eq_none.mp hoffer)) hports

/--
In every history from the empty registry in which the port is recorded, if at all,
before the first connection is offered, no node that is dialed or active is us, and
none that is taken from the queue of candidates is. Whatever a registry holds, a node
that is us is found unfit to be dialed, is not queued, neither alone nor among boot
nodes, and is promoted on no connection; a socket that was dialed for it is closed.
-/
theorem run_never_self (self : Identity) (limits : Limits) (moves : List Move)
    (hports : bindsPortFirst moves = true) :
    let registry := (Registry.create self limits).run moves
    (∀ conn pending node, (conn, pending) ∈ registry.outbound → pending.node = some node →
      ¬ registry.self.Names node) ∧
    (∀ peer active, (peer, active) ∈ registry.active → ¬ registry.self.Names active.node) ∧
    (∀ now seedsOnly node, (registry.takeTemp now seedsOnly).1 = some node →
      ¬ registry.self.Names node) ∧
    (∀ (any : Registry) (node : Node) (now : Nat) (conn : ConnId) (direction : Direction),
      any.self.Names node →
        any.validate now node = false ∧
        any.addTemp now node = .error .isSelf ∧
        any.promoteToOutbound now node conn = (any.close conn, .error .isSelf) ∧
        any.promoteToActive now conn direction node = .error .isSelf) ∧
    ∀ (any : Registry) (now : Nat) (nodes : List Node),
      any.addBootNodes now nodes = (any.remembering nodes).addAll now
        (nodes.filter fun node => ¬ any.self.Names node) ∧
      any.requeueBootNodes now =
        any.addAll now (any.bootNodes.filter fun node => ¬ any.self.Names node) := by
  intro registry
  have hforeign : Foreign registry.self registry :=
    Unconnected.run_foreign ⟨keyed_create self limits, rfl⟩ moves hports
  refine ⟨hforeign.dialed, hforeign.active, fun _ _ _ => not_names_of_takeTemp,
    fun any node now conn direction hnames => ?_, fun any now nodes => ?_⟩
  · exact ⟨validate_of_names hnames now, addTemp_of_names hnames now,
      promoteToOutbound_of_names hnames now conn,
      promoteToActive_of_names hnames now conn direction⟩
  · exact ⟨addBootNodes_eq any now nodes, addAll_eq any now _⟩

/-- A node at our own address, by a name that is not ours. -/
def mirror : Node := repeatedNode 0x61

def stranger : Node := Node.create (repeatedId 0x63) (.v4 0x0a000003) 30303 0

/-- At first any port would do, so that a candidate at our address and the port that is bound is queued. -/
def portlessStart : Registry :=
  Registry.create (Identity.create (repeatedId 0x62) mirror.ip 0) ⟨8, 8, 60, 60, 60⟩

def lateBinding : List Move := [.addBootNodes 0 [mirror, stranger], .setPort mirror.port]

theorem run_never_self_lateBinding :
    let registry := portlessStart.run lateBinding
    bindsPortFirst lateBinding = true ∧ registry.temp.map (·.id) = [mirror.id, stranger.id] ∧
      registry.self.Names mirror ∧ registry.validate 1 mirror = false ∧
      ∃ node, (registry.takeTemp 1 false).1 = some node ∧ node.id = stranger.id ∧
        ¬ registry.self.Names node := by
  intro registry
  have hports : bindsPortFirst lateBinding = true := by decide
  have hmirror : registry.self.Names mirror := by decide +kernel
  have htake : (registry.takeTemp 1 false).1.map (·.id) = some stranger.id := by decide +kernel
  obtain ⟨node, hnode, hid⟩ := Option.map_eq_some_iff.mp htake
  obtain ⟨_, _, htaken, hrefused, _⟩ := run_never_self portlessStart.self portlessStart.limits
    lateBinding hports
  exact ⟨hports, by decide +kernel, hmirror, (hrefused registry mirror 1 1 .outbound hmirror).1,
    node, hnode, hid, htaken 1 false node hnode⟩

end Registry

end Peering
