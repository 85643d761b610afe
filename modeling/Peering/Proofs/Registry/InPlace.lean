import Peering.Proofs.Registry.Filing

/-!
# The moves as calls on one shared registry

A move that is refused gives no registry back, so its caller goes on with the one
that it had. Here the four moves that can be refused work on a registry in place:
they check and change it in the order of their steps, and what was changed before a
refusal stays changed. The two views give the same results, so no step comes too
early: a refusal takes back nothing because there is nothing to take back.

The main statement says what each of the four leaves behind, and what a promotion
to the active set changes: its own entries, and a dial to the same peer that yields.
-/

namespace Peering

namespace Registry

/-- A call on a registry in place: what it has changed stays, also if it is refused. -/
abbrev InPlace (α : Type) := EStateM RegistryError Registry α

/-- The error of a result. -/
def errorOf {α : Type} : Except RegistryError α → Option RegistryError
  | .ok _ => none
  | .error error => some error

/-- The error of a move that is refused. -/
def refusal? (registry : Registry) : Move → Option RegistryError
  | .addTemp now node => errorOf (registry.addTemp now node)
  | .promoteToOutbound now node conn => errorOf (registry.promoteToOutbound now node conn).2
  | .promoteToInbound now conn => errorOf (registry.promoteToInbound now conn).2
  | .promoteToActive now conn direction peer =>
      errorOf (registry.promoteToActive now conn direction peer)
  | _ => none

/-- How a call ends that leaves this registry. -/
def outcome (registry : Registry) :
    Option RegistryError → EStateM.Result RegistryError Registry Unit
  | none => .ok () registry
  | some error => .error error registry

/-- How a call ends that makes a move which gives no registry back when it is refused. -/
def settled (registry : Registry) (result : Except RegistryError Registry) :
    EStateM.Result RegistryError Registry Unit :=
  outcome (registry.unlessRefused result) (errorOf result)

/-- A registry without a pending entry. -/
def withoutPending (registry : Registry) (conn : ConnId) : Direction → Registry
  | .inbound => { registry with inbound := registry.inbound.erase conn }
  | .outbound => { registry with outbound := registry.outbound.erase conn }

namespace InPlace

/-! ## The calls -/

/-- One check. -/
def refuseIf (holds : Registry → Bool) (error : RegistryError) : InPlace Unit := do
  if holds (← get) then throw error

def addTemp (now : Nat) (node : Node) : InPlace Unit := do
  refuseIf (·.isSelf node) .isSelf
  refuseIf (·.isBanned now node.idHash) .banned
  refuseIf (fun registry => registry.inTemp node.idHash || registry.isActive node.idHash
    || registry.isDialed node.idHash) .alreadyKnown
  refuseIf (fun registry => registry.limits.maxTemp ≤ registry.temp.length) .full
  modify fun registry =>
    { registry with temp := registry.temp ++ [{ node with since := now, conn := none }] }

def insertOutbound (now : Nat) (node : Node) (conn : ConnId) : InPlace Unit := do
  refuseIf (·.isSelf node) .isSelf
  refuseIf (·.isBanned now node.idHash) .banned
  refuseIf (·.isActive node.idHash) .alreadyActive
  refuseIf (·.isDialed node.idHash) .alreadyConnected
  refuseIf (fun registry =>
    registry.limits.maxActive ≤ registry.active.length + registry.outbound.length) .full
  modify fun registry => { registry with temp := registry.withoutTemp node.idHash }
  modify fun registry => { registry with
    outbound := registry.outbound.insert conn
      ⟨⟨conn, now⟩, some { node with conn := some conn, since := now }⟩ }

def insertInbound (now : Nat) (conn : ConnId) : InPlace Unit := do
  refuseIf (fun registry =>
    registry.limits.maxActive ≤ registry.active.length + registry.inbound.length) .full
  modify fun registry =>
    { registry with inbound := registry.inbound.insert conn ⟨⟨conn, now⟩, none⟩ }

/-- A connection that is refused is closed before the error goes on. -/
def closing (conn : ConnId) (offer : InPlace Unit) : InPlace Unit :=
  tryCatch offer fun error => do
    modify (·.close conn)
    throw error

def promoteToOutbound (now : Nat) (node : Node) (conn : ConnId) : InPlace Unit :=
  closing conn (insertOutbound now node conn)

def promoteToInbound (now : Nat) (conn : ConnId) : InPlace Unit :=
  closing conn (insertInbound now conn)

/-- Takes a pending entry out of its set, if it is there. -/
def takePending (direction : Direction) (conn : ConnId) : InPlace (Option Pending) := do
  let registry ← get
  set (registry.withoutPending conn direction)
  return (registry.pendingSet direction).find? conn

/-- Drops the dial to a peer whose own connection is to be promoted, or refuses the promotion. -/
def yieldDial (direction : Direction) (peer : IdHash) : InPlace Unit := do
  if direction = .inbound then
    if let some dialing := (← get).dialTo? peer then
      refuseIf (fun registry => ¬peer < registry.self.idHash) .alreadyConnected
      if let some pending ← takePending .outbound dialing then
        modify (·.close pending.conn.id)

/-- The checks come first; then a dial yields, and only then the connection leaves its set. -/
def promoteToActive (now : Nat) (conn : ConnId) (direction : Direction) (peer : Node) :
    InPlace Unit := do
  refuseIf (·.isSelf peer) .isSelf
  refuseIf (fun registry => !(registry.pendingSet direction).has conn) (.notFound conn)
  refuseIf (·.isBanned now peer.idHash) .banned
  refuseIf (·.isActive peer.idHash) .alreadyActive
  refuseIf (fun registry => registry.limits.maxActive ≤ registry.active.length) .full
  yieldDial direction peer.idHash
  match ← takePending direction conn with
  | none => throw (.notFound conn)
  | some pending =>
      modify fun registry => { registry with temp := registry.withoutTemp peer.idHash }
      modify fun registry => { registry with
        active := registry.active.insert peer.idHash
          ⟨{ mergeKnown peer pending.node with
              conn := some conn, since := now, lastSeen := now }, pending.conn⟩ }

/-- The call that makes a move, if the move can be refused. -/
def ofMove : Move → Option (InPlace Unit)
  | .addTemp now node => some (addTemp now node)
  | .promoteToOutbound now node conn => some (promoteToOutbound now node conn)
  | .promoteToInbound now conn => some (promoteToInbound now conn)
  | .promoteToActive now conn direction peer => some (promoteToActive now conn direction peer)
  | _ => none

/-! ## Both views agree -/

variable {registry after : Registry} {now : Nat} {conn : ConnId} {direction : Direction}
  {peer : IdHash} {node : Node} {error : RegistryError}

theorem bind_eq {α β : Type} (first : InPlace α) (next : α → InPlace β) :
    (first >>= next) registry =
      match first registry with
      | .ok value after => next value after
      | .error error after => .error error after := by
  change EStateM.bind first next registry = _
  unfold EStateM.bind
  cases first registry <;> rfl

theorem get_bind {α : Type} (next : Registry → InPlace α) :
    (get >>= next) registry = next registry registry :=
  rfl

theorem refuseIf_bind {α : Type} (holds : Registry → Bool) (next : Unit → InPlace α) :
    (refuseIf holds error >>= next) registry =
      if holds registry then .error error registry else next () registry := by
  have hcheck : refuseIf holds error registry =
      if holds registry then .error error registry else .ok () registry := by
    change (if holds registry then throw error else pure () : InPlace Unit) registry = _
    cases holds registry <;> rfl
  rw [bind_eq, hcheck]
  cases holds registry <;> rfl

theorem takePending_bind {α : Type} (next : Option Pending → InPlace α) :
    (takePending direction conn >>= next) registry =
      next ((registry.pendingSet direction).find? conn) (registry.withoutPending conn direction) :=
  rfl

theorem closing_apply (offer : InPlace Unit) :
    closing conn offer registry =
      match offer registry with
      | .ok _ after => .ok () after
      | .error error after => .error error (after.close conn) := by
  change EStateM.tryCatch offer _ registry = _
  delta EStateM.tryCatch
  cases offer registry <;> rfl

theorem addTemp_eq : addTemp now node registry = registry.settled (registry.addTemp now node) := by
  simp only [addTemp, refuseIf_bind, Registry.addTemp, decide_eq_true_eq]
  repeat' split
  all_goals rfl

theorem insertOutbound_eq : insertOutbound now node conn registry =
    registry.settled (registry.insertOutbound now node conn) := by
  simp only [insertOutbound, refuseIf_bind, Registry.insertOutbound, decide_eq_true_eq]
  repeat' split
  all_goals rfl

theorem insertInbound_eq : insertInbound now conn registry =
    registry.settled (registry.insertInbound now conn) := by
  simp only [insertInbound, refuseIf_bind, Registry.insertInbound, decide_eq_true_eq]
  split
  all_goals rfl

theorem closing_eq {offer : InPlace Unit} {result : Except RegistryError Registry}
    (hoffer : offer registry = registry.settled result) :
    closing conn offer registry =
      outcome (registry.settleOffer conn result).1
        (errorOf (registry.settleOffer conn result).2) := by
  rw [closing_apply, hoffer]
  cases result <;> rfl

/-- The dial that yields is found under its key, and it is its own connection that is closed. -/
theorem yieldDial_eq (hfiled : Filed registry) :
    yieldDial direction peer registry = registry.settled (registry.yieldDial direction peer) := by
  cases direction with
  | outbound => rfl
  | inbound =>
      simp only [yieldDial, if_true, get_bind, Registry.yieldDial]
      cases hdial : registry.dialTo? peer with
      | none => rfl
      | some dialing =>
          obtain ⟨pending, hentry, _⟩ := Table.mem_of_keyWhere? hdial
          have hfound : (registry.pendingSet .outbound).find? dialing = some pending :=
            Table.find?_of_mem hfiled.outbound_keys hentry
          simp only [refuseIf_bind, takePending_bind, hfound]
          by_cases hless : peer < registry.self.idHash
          · simp only [hless, not_true_eq_false, decide_false, Bool.false_eq_true, if_false, if_true]
            rw [(hfiled.outbound_entry dialing pending hentry).1]
            rfl
          · simp only [hless, not_false_eq_true, decide_true, if_true, if_false]
            rfl

/-- The connection is still in its set after the dial has yielded, so the second look finds it. -/
theorem promoteToActive_eq (hfiled : Filed registry) :
    promoteToActive now conn direction node registry =
      registry.settled (registry.promoteToActive now conn direction node) := by
  simp only [promoteToActive, refuseIf_bind, Registry.promoteToActive, Table.has]
  split
  · rfl
  cases hfind : (registry.pendingSet direction).find? conn with
  | none => rfl
  | some pending =>
      simp only [Option.isSome_some, Bool.not_true, Bool.false_eq_true, if_false, decide_eq_true_eq]
      split
      · rfl
      split
      · rfl
      split
      · rfl
      rw [bind_eq, yieldDial_eq hfiled]
      cases hyield : registry.yieldDial direction node.idHash with
      | error error => rfl
      | ok middle =>
          rw [← pendingSet_of_yieldDial hyield] at hfind
          have hhash : (mergeKnown node pending.node).idHash = node.idHash := mergeKnown_idHash ..
          have hdone : registry.settled (do
              let registry ← .ok middle
              return registry.activate now direction conn pending node) =
                .ok () (middle.activate now direction conn pending node) := rfl
          simp only [settled, outcome, errorOf, unlessRefused, takePending_bind, hfind] at hdone ⊢
          rw [hdone]
          cases direction with
          | inbound =>
              simp only [activate, hhash]
              rfl
          | outbound =>
              simp only [activate, hhash]
              rfl

/-- In place, a move leaves what it leaves by itself, and ends the same way. -/
theorem ofMove_eq {move : Move} {program : InPlace Unit} (hfiled : Filed registry)
    (hprogram : ofMove move = some program) :
    program registry = (registry.perform move).outcome (registry.refusal? move) := by
  cases move with
  | addTemp now node =>
      cases hprogram
      exact addTemp_eq
  | promoteToOutbound now node conn =>
      cases hprogram
      exact closing_eq insertOutbound_eq
  | promoteToInbound now conn =>
      cases hprogram
      exact closing_eq insertInbound_eq
  | promoteToActive now conn direction node =>
      cases hprogram
      exact promoteToActive_eq hfiled
  | _ => cases hprogram

end InPlace

/-! ## What a refusal leaves -/

variable {registry after : Registry} {now : Nat} {conn : ConnId} {direction : Direction}
  {peer : IdHash} {node : Node} {error : RegistryError}

/-- No set has changed, and nothing is closed but what was offered. -/
structure Refuses (registry : Registry) (offered : Option ConnId) (after : Registry) : Prop where
  temp : after.temp = registry.temp
  outbound : after.outbound = registry.outbound
  inbound : after.inbound = registry.inbound
  active : after.active = registry.active
  bans : after.bans = registry.bans
  bootNodes : after.bootNodes = registry.bootNodes
  seeds : after.seeds = registry.seeds
  closed : ∀ conn, after.isClosed conn = true ↔
    registry.isClosed conn = true ∨ offered = some conn
  unoffered : offered = none → after = registry

theorem Refuses.refl (registry : Registry) : Refuses registry none registry := by
  constructor <;> simp

theorem close_refuses (registry : Registry) (conn : ConnId) :
    Refuses registry (some conn) (registry.close conn) where
  temp := close_temp
  outbound := close_outbound
  inbound := close_inbound
  active := close_active
  bans := by unfold close; split <;> rfl
  bootNodes := by unfold close; split <;> rfl
  seeds := by unfold close; split <;> rfl
  closed := fun other => by rw [isClosed_close, Option.some_inj, eq_comm (a := conn)]
  unoffered := fun hnone => by cases hnone

theorem unlessRefused_refuses {result : Except RegistryError Registry}
    (hrefused : errorOf result = some error) :
    Refuses registry none (registry.unlessRefused result) := by
  cases result with
  | ok after => cases hrefused
  | error error => exact Refuses.refl registry

theorem settleOffer_refuses {result : Except RegistryError Registry}
    (hrefused : errorOf (registry.settleOffer conn result).2 = some error) :
    Refuses registry (some conn) (registry.settleOffer conn result).1 := by
  cases result with
  | ok after => cases hrefused
  | error error => exact close_refuses registry conn

theorem perform_refuses {move : Move} (hrefused : registry.refusal? move = some error) :
    Refuses registry move.offer? (registry.perform move) := by
  cases move with
  | addTemp now node => exact unlessRefused_refuses hrefused
  | promoteToOutbound now node conn => exact settleOffer_refuses hrefused
  | promoteToInbound now conn => exact settleOffer_refuses hrefused
  | promoteToActive now conn direction peer => exact unlessRefused_refuses hrefused
  | _ => cases hrefused

/-! ## What a promotion changes -/

/--
A pending connection becomes the active entry of a peer, which leaves the queue of
candidates. If it is an accepted one, the dials to the peer go, and are closed.
-/
structure Promotes (registry : Registry) (now : Nat) (conn : ConnId) (direction : Direction)
    (node : Node) (after : Registry) : Prop where
  active : registry.isActive node.idHash = false ∧
    ∃ pending, (registry.pendingSet direction).find? conn = some pending ∧ pending.conn.id = conn ∧
      after.active = registry.active ++ [(node.idHash,
        ⟨{ mergeKnown node pending.node with conn := some conn, since := now, lastSeen := now },
          pending.conn⟩)]
  temp : after.temp = registry.temp.filter (·.idHash ≠ node.idHash)
  inbound : after.inbound =
    match direction with
    | .inbound => registry.inbound.erase conn
    | .outbound => registry.inbound
  outbound : after.outbound =
    match direction with
    | .inbound => registry.outbound.select fun pending => !pending.isWith node.idHash
    | .outbound => registry.outbound.erase conn
  closed : ∀ other, after.isClosed other = true ↔ registry.isClosed other = true ∨
    direction = .inbound ∧
      ∃ pending, (other, pending) ∈ registry.outbound ∧ pending.isWith node.idHash = true
  bans : after.bans = registry.bans
  bootNodes : after.bootNodes = registry.bootNodes
  seeds : after.seeds = registry.seeds
  self : after.self = registry.self
  limits : after.limits = registry.limits
  nextConn : after.nextConn = registry.nextConn

theorem Filed.dialTo?_eq_some_iff (hfiled : Filed registry) : registry.dialTo? peer = some conn ↔
    ∃ pending, (conn, pending) ∈ registry.outbound ∧ pending.isWith peer = true := by
  constructor
  · exact Table.mem_of_keyWhere?
  · rintro ⟨pending, hmem, hwith⟩
    have hdialed : (registry.dialTo? peer).isSome = true := isDialed_iff.mpr ⟨_, _, hmem, hwith⟩
    obtain ⟨dialing, hdialing⟩ := Option.isSome_iff_exists.mp hdialed
    obtain ⟨found, hfound, hwithFound⟩ := Table.mem_of_keyWhere? hdialing
    rw [hdialing, hfiled.dialed_once peer _ _ _ _ hmem hwith hfound hwithFound]

/-- The dials to other peers are all but one. -/
theorem Filed.select_not_isWith (hfiled : Filed registry) (peer : IdHash) :
    (registry.outbound.select fun pending => !pending.isWith peer) =
      (registry.dialTo? peer).elim registry.outbound registry.outbound.erase := by
  have hwith : ∀ entry ∈ registry.outbound,
      (entry.2.isWith peer = true ↔ registry.dialTo? peer = some entry.1) := by
    intro entry hmem
    rw [hfiled.dialTo?_eq_some_iff]
    constructor
    · exact fun hwith => ⟨entry.2, hmem, hwith⟩
    · rintro ⟨pending, hpending, hwith⟩
      rwa [Table.eq_of_mem_of_mem hfiled.outbound_keys hmem hpending]
  cases hdial : registry.dialTo? peer with
  | none =>
      refine List.filter_eq_self.mpr fun entry hmem => ?_
      rw [Bool.not_eq_true', ← Bool.not_eq_true, hwith entry hmem, hdial]
      simp
  | some dialing =>
      refine List.filter_congr fun entry hmem => ?_
      rw [Bool.eq_iff_iff, Bool.not_eq_true', ← Bool.not_eq_true, hwith entry hmem, hdial,
        Option.some_inj, decide_eq_true_iff, ne_eq, eq_comm]

/-- When a dial has yielded, the dials to others are left, and it is closed. -/
theorem Filed.yieldDial_inbound (hfiled : Filed registry)
    (hyield : registry.yieldDial .inbound peer = .ok after) :
    after = { registry with
      outbound := registry.outbound.select fun pending => !pending.isWith peer }.closeMany
        (registry.dialTo? peer).toList := by
  rw [hfiled.select_not_isWith]
  rcases yieldDial_ok hyield with ⟨h, _⟩ | ⟨_, hfree, rfl⟩ | ⟨_, _, dialing, hdial, rfl⟩
  · cases h
  · have hnone : after.dialTo? peer = none := by simpa [isDialed] using hfree
    rw [hnone]
    rfl
  · rw [hdial]
    rfl

/-- The closing of connections touches the lists of closed ones only. -/
theorem closeMany_eq (registry : Registry) (conns : List ConnId) :
    ∃ closed teardowns, registry.closeMany conns =
      { registry with closed := closed, teardowns := teardowns } := by
  refine closeMany_induction (P := fun after => ∃ closed teardowns,
    after = { registry with closed := closed, teardowns := teardowns }) conns ⟨_, _, rfl⟩ ?_
  rintro _ conn ⟨closed, teardowns, rfl⟩
  unfold close
  split <;> exact ⟨_, _, rfl⟩

theorem Filed.promoteToActive_promotes (hfiled : Filed registry)
    (hpromote : registry.promoteToActive now conn direction node = .ok after) :
    Promotes registry now conn direction node after := by
  obtain ⟨_, _, _, hinactive, pending, middle, hpending, hyield, rfl⟩ := promoteToActive_ok hpromote
  have hown : pending.conn.id = conn := hfiled.pending_own hpending
  have hhash : (mergeKnown node pending.node).idHash = node.idHash := mergeKnown_idHash _ _
  cases direction with
  | outbound =>
      have hsame : middle = registry := by
        cases hyield
        rfl
      subst hsame
      refine ⟨⟨hinactive, pending, hpending, hown, ?_⟩, ?_, rfl, rfl, ?_, rfl, rfl, rfl, rfl, rfl, rfl⟩
      · simp only [activate, hhash]
        exact Table.insert_of_free hinactive
      · simp only [activate, hhash]
        rfl
      · simp [isClosed, activate]
  | inbound =>
      have hclosed : ∀ other, middle.isClosed other = true ↔ registry.isClosed other = true ∨
          ∃ pending, (other, pending) ∈ registry.outbound ∧ pending.isWith node.idHash = true := by
        intro other
        rw [hfiled.yieldDial_inbound hyield, isClosed_closeMany, Option.mem_toList,
          hfiled.dialTo?_eq_some_iff]
        rfl
      obtain ⟨closed, teardowns, hmiddle⟩ := closeMany_eq { registry with
        outbound := registry.outbound.select fun pending => !pending.isWith node.idHash }
        (registry.dialTo? node.idHash).toList
      rw [← hfiled.yieldDial_inbound hyield] at hmiddle
      subst hmiddle
      refine ⟨⟨hinactive, pending, hpending, hown, ?_⟩, ?_, rfl, rfl, ?_, rfl, rfl, rfl, rfl, rfl, rfl⟩
      · simp only [activate, hhash]
        exact Table.insert_of_free hinactive
      · simp only [activate, hhash]
        rfl
      · intro other
        rw [eq_self, true_and]
        exact hclosed other

/-! ## Every reachable registry -/

/--
In every history: a move that can be refused, made step by step on the registry in
place, does what the move does. If it is refused, no set has changed, and nothing
is closed but the connection that was offered. If it promotes a connection to the
active set, then that connection, its peer and the dials to the peer are all that
has changed.
-/
theorem live_calls_atomic (self : Identity) (limits : Limits) (events : List Event) :
    let registry := (Registry.create self limits).live events
    (∀ move program, InPlace.ofMove move = some program →
      program registry = (registry.perform move).outcome (registry.refusal? move) ∧
      ∀ error after, program registry = .error error after → Refuses registry move.offer? after) ∧
    ∀ now conn direction node after,
      InPlace.promoteToActive now conn direction node registry = .ok () after →
        Promotes registry now conn direction node after := by
  intro registry
  have hfiled : Filed registry := filed_live self limits events
  refine ⟨?_, ?_⟩
  · intro move program hprogram
    have hsame := InPlace.ofMove_eq hfiled hprogram
    refine ⟨hsame, fun error after herror => ?_⟩
    rw [hsame] at herror
    cases hrefused : registry.refusal? move with
    | none =>
        rw [hrefused] at herror
        cases herror
    | some refusal =>
        rw [hrefused] at herror
        cases herror
        exact perform_refuses hrefused
  · intro now conn direction node after hok
    rw [InPlace.promoteToActive_eq hfiled] at hok
    cases hpromote : registry.promoteToActive now conn direction node with
    | error error =>
        rw [hpromote] at hok
        cases hok
    | ok result =>
        rw [hpromote] at hok
        cases hok
        exact hfiled.promoteToActive_promotes hpromote

/-- Two dials, to a peer with a smaller id hash and to one with a larger, and a request. -/
def twoDialsAndRequest : List Event :=
  [.call (.promoteToOutbound 0 (repeatedNode 0x61) 1),
    .call (.promoteToOutbound 0 (repeatedNode 0x6c) 3), .call (.promoteToInbound 0 2)]

/-- For the request of one of the peers the dial yields; the request of the other is refused. -/
theorem live_calls_atomic_of_requests :
    let registry := crossingStart.live twoDialsAndRequest
    let granted : Move := .promoteToActive 1 2 .inbound (repeatedNode 0x61)
    let refused : Move := .promoteToActive 1 2 .inbound (repeatedNode 0x6c)
    (registry.refusal? granted = none ∧ (registry.perform granted).isClosed 1 = true) ∧
    (registry.refusal? refused = some .alreadyConnected ∧ registry.perform refused = registry) := by
  intro registry granted refused
  have hgranted : registry.refusal? granted = none := by decide +kernel
  have hrefused : registry.refusal? refused = some .alreadyConnected := by decide +kernel
  have hdial : registry.dialTo? (repeatedNode 0x61).idHash = some 1 := by decide +kernel
  obtain ⟨hcalls, hpromotes⟩ :=
    live_calls_atomic crossingStart.self crossingStart.limits twoDialsAndRequest
  refine ⟨⟨hgranted, ?_⟩, hrefused, ?_⟩
  · obtain ⟨hcall, _⟩ := hcalls granted _ rfl
    have hpromoted := hpromotes 1 2 .inbound (repeatedNode 0x61) (registry.perform granted)
      (hcall.trans (congrArg _ hgranted))
    exact (hpromoted.closed 1).mpr (Or.inr ⟨rfl, Table.mem_of_keyWhere? hdial⟩)
  · obtain ⟨hcall, hrefuses⟩ := hcalls refused _ rfl
    have herror := hcall.trans (congrArg _ hrefused)
    exact (hrefuses .alreadyConnected (registry.perform refused) herror).unoffered rfl

end Registry

end Peering
