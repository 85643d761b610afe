import Peering.Proofs.Registry.Bans
import Peering.Violations

/-!
# Checks under way

A check of a peer counts a violation, bans the peer if that crosses the tolerance,
and drops it then. Each of the three is one step, and anything may happen in
between: the steps of other checks, other operations of the registry, and time.
What bears the law is the order of the last two. A peer that comes back before it
is banned is dropped; once it is banned it cannot come back, so it stays dropped.

Main statement: a peer that a check has banned and dropped is not active until the
ban ends, nothing puts it into a set from the ban on, and a check that lets its
peer pass never touches the registry.
-/

namespace Peering

/-- How far a check has come, and when the ban ends that it has made. -/
inductive CheckStage where
  | counting
  | banning
  | dropping (expiry : Nat)
  | banned (expiry : Nat)
  | passed
deriving DecidableEq, Repr

/-- The end of the ban that a check has made. -/
def CheckStage.expiry? : CheckStage → Option Nat
  | .dropping expiry => some expiry
  | .banned expiry => some expiry
  | _ => none

/-- Whether a check has found the tolerance crossed. -/
def CheckStage.isCrossed : CheckStage → Bool
  | .counting => false
  | .passed => false
  | _ => true

structure Check where
  peer : IdHash
  stage : CheckStage
deriving DecidableEq, Repr

/-- A registry, the counts of violations and the clock, with every check that was called. -/
structure Patrol where
  registry : Registry
  violations : Violations
  clock : Nat
  checks : List Check

namespace Patrol

inductive Step where
  /-- Somebody calls for a check of a peer. -/
  | call (peer : IdHash)
  /-- A check makes its next step. -/
  | check (index : Nat)
  /-- An operation of the registry, at the clock as it stands. -/
  | move (move : Registry.Move)
  | tick (duration : Nat)

def opening (registry : Registry) (violations : Violations) (clock : Nat) : Patrol where
  registry := registry
  violations := violations
  clock := clock
  checks := []

/-- One of the three steps of a check, and how far the check has come by it. -/
def advance (patrol : Patrol) (check : Check) : Patrol × CheckStage :=
  match check.stage with
  | .counting =>
      let (violations, crossed) := patrol.violations.record check.peer
      ({ patrol with violations := violations }, if crossed then .banning else .passed)
  | .banning =>
      ({ patrol with registry := patrol.registry.ban patrol.clock check.peer },
        .dropping (patrol.clock + patrol.registry.limits.banDuration))
  | .dropping expiry =>
      ({ patrol with registry := (patrol.registry.dropActive check.peer).1 }, .banned expiry)
  | .banned expiry => (patrol, .banned expiry)
  | .passed => (patrol, .passed)

def act (patrol : Patrol) : Step → Patrol
  | .call peer => { patrol with checks := patrol.checks ++ [⟨peer, .counting⟩] }
  | .check index =>
      match patrol.checks[index]? with
      | none => patrol
      | some check =>
          let (next, stage) := patrol.advance check
          { next with checks := patrol.checks.set index ⟨check.peer, stage⟩ }
  | .move move => { patrol with registry := patrol.registry.perform (move.timed patrol.clock) }
  | .tick duration => { patrol with clock := patrol.clock + duration }

def run (patrol : Patrol) (steps : List Step) : Patrol :=
  steps.foldl act patrol

variable {patrol : Patrol} {check : Check} {stage : CheckStage} {step : Step} {steps : List Step}
  {peer : IdHash} {expiry index : Nat}

theorem run_append (patrol : Patrol) (first second : List Step) :
    patrol.run (first ++ second) = (patrol.run first).run second :=
  List.foldl_append

/-- What every step keeps, a run keeps. -/
theorem run_induction {P : Patrol → Prop} (hstart : P patrol)
    (hact : ∀ patrol step, P patrol → P (patrol.act step)) (steps : List Step) :
    P (patrol.run steps) := by
  induction steps generalizing patrol with
  | nil => exact hstart
  | cons step rest ih => exact ih (hact patrol step hstart)

/-- A check that nothing interrupts is the whole check. -/
theorem run_check_alone (patrol : Patrol) (peer : IdHash) :
    let index := patrol.checks.length
    let (violations, registry, banned) :=
      patrol.violations.check patrol.registry patrol.clock peer
    patrol.run [.call peer, .check index, .check index, .check index] =
      ⟨registry, violations, patrol.clock, patrol.checks ++ [⟨peer,
        if banned then .banned (patrol.clock + patrol.registry.limits.banDuration)
        else .passed⟩]⟩ := by
  by_cases hcrossed : (patrol.violations.record peer).2 = true
  · simp [run, act, advance, Violations.check, hcrossed]
  · simp [run, act, advance, Violations.check, hcrossed]

/-! ## What one step does -/

theorem act_check (hcheck : patrol.checks[index]? = some check) :
    patrol.act (.check index) = { (patrol.advance check).1 with
      checks := patrol.checks.set index ⟨check.peer, (patrol.advance check).2⟩ } := by
  simp only [act, hcheck]

theorem act_check_of_none (hcheck : patrol.checks[index]? = none) :
    patrol.act (.check index) = patrol := by
  simp only [act, hcheck]

/-- A step leaves the registry as it is, or makes one of its moves at the clock. -/
theorem act_registry (patrol : Patrol) (step : Step) :
    (patrol.act step).registry = patrol.registry ∨
      ∃ move : Registry.Move,
        (patrol.act step).registry = patrol.registry.perform (move.timed patrol.clock) := by
  cases step with
  | call peer => exact Or.inl rfl
  | check index =>
      cases hcheck : patrol.checks[index]? with
      | none => exact Or.inl (by rw [act_check_of_none hcheck])
      | some check =>
          rw [act_check hcheck]
          dsimp only [advance]
          cases check.stage with
          | counting => exact Or.inl rfl
          | banning => exact Or.inr ⟨.ban patrol.clock check.peer, rfl⟩
          | dropping expiry => exact Or.inr ⟨.dropActive check.peer, rfl⟩
          | banned expiry => exact Or.inl rfl
          | passed => exact Or.inl rfl
  | move move => exact Or.inr ⟨move, rfl⟩
  | tick duration => exact Or.inl rfl

theorem clock_le_act (patrol : Patrol) (step : Step) : patrol.clock ≤ (patrol.act step).clock := by
  cases step with
  | call peer => exact Nat.le_refl _
  | check index =>
      cases hcheck : patrol.checks[index]? with
      | none => exact Nat.le_of_eq (by rw [act_check_of_none hcheck])
      | some check =>
          rw [act_check hcheck]
          dsimp only [advance]
          cases check.stage <;> exact Nat.le_refl _
  | move move => exact Nat.le_refl _
  | tick duration => exact Nat.le_add_right _ _

theorem act_limits (patrol : Patrol) (step : Step) :
    (patrol.act step).registry.limits = patrol.registry.limits := by
  rcases act_registry patrol step with hsame | ⟨move, hmove⟩
  · rw [hsame]
  · rw [hmove, Registry.perform_limits]

/-! ## While a ban lasts -/

/-- The ban that a check has made is in force until it ends, and a peer that was dropped is out. -/
structure Enforces (patrol : Patrol) (check : Check) : Prop where
  near : ∀ expiry, check.stage.expiry? = some expiry →
    expiry ≤ patrol.clock + patrol.registry.limits.banDuration
  ban : ∀ expiry, check.stage.expiry? = some expiry → patrol.clock < expiry →
    patrol.registry.BannedUntil check.peer expiry
  dropped : ∀ expiry, check.stage = .banned expiry → patrol.clock < expiry →
    patrol.registry.isActive check.peer = false

theorem enforces_of_unbanned (hstage : check.stage.expiry? = none) : patrol.Enforces check where
  near := fun expiry hexpiry => by simp [hstage] at hexpiry
  ban := fun expiry hexpiry => by simp [hstage] at hexpiry
  dropped := fun expiry hbanned => by simp [hbanned, CheckStage.expiry?] at hstage

/-- While a ban lasts, no step puts the peer into a set. -/
theorem Enforces.bars (henforces : patrol.Enforces check)
    (hexpiry : check.stage.expiry? = some expiry) (hlasts : patrol.clock < expiry) (step : Step) :
    Registry.Bars check.peer patrol.registry (patrol.act step).registry := by
  have hbanned := (henforces.ban expiry hexpiry hlasts).isBanned hlasts
  rcases act_registry patrol step with hsame | ⟨move, hmove⟩
  · rw [hsame]
    exact .refl check.peer patrol.registry
  · rw [hmove]
    exact Registry.bars_perform hbanned move

/-- What a check has brought about outlives every step, its own ones included. -/
theorem Enforces.act (henforces : patrol.Enforces check) (step : Step) :
    (patrol.act step).Enforces check where
  near := fun expiry hexpiry => by
    have hnear := henforces.near expiry hexpiry
    have hclock := clock_le_act patrol step
    rw [act_limits]
    omega
  ban := fun expiry hexpiry hlasts => by
    have hbefore := Nat.lt_of_le_of_lt (clock_le_act patrol step) hlasts
    have hban := henforces.ban expiry hexpiry hbefore
    rcases act_registry patrol step with hsame | ⟨move, hmove⟩
    · rw [hsame]
      exact hban
    · rw [hmove]
      exact hban.perform hbefore (henforces.near expiry hexpiry) move
  dropped := fun expiry hbanned hlasts => by
    have hbefore := Nat.lt_of_le_of_lt (clock_le_act patrol step) hlasts
    have hexpiry : check.stage.expiry? = some expiry := by rw [hbanned]; rfl
    exact (henforces.bars hexpiry hbefore step).isActive (henforces.dropped expiry hbanned hbefore)

/-- A check enforces what its own step brings about. -/
theorem Enforces.advance (henforces : patrol.Enforces check) :
    (patrol.advance check).1.Enforces ⟨check.peer, (patrol.advance check).2⟩ := by
  obtain ⟨peer, stage⟩ := check
  cases stage with
  | counting =>
      apply enforces_of_unbanned
      unfold Patrol.advance
      dsimp only
      split <;> rfl
  | banning =>
      refine ⟨fun expiry hexpiry => ?_, fun expiry hexpiry _ => ?_, fun expiry hbanned => ?_⟩
      · cases hexpiry
        exact Nat.le_refl _
      · cases hexpiry
        exact Registry.bannedUntil_ban patrol.registry patrol.clock peer
      · cases hbanned
  | dropping expiry =>
      have hact := henforces.act (.move (.dropActive peer))
      refine ⟨fun other hexpiry => hact.near other hexpiry,
        fun other hexpiry hlasts => hact.ban other hexpiry hlasts, fun other _ _ => ?_⟩
      exact Registry.isActive_dropActive patrol.registry peer
  | banned expiry => exact henforces
  | passed => exact henforces

/-- The checks after a step: those before it, one that has moved on, or a new one. -/
theorem mem_checks_act (hmem : check ∈ (patrol.act step).checks) :
    check ∈ patrol.checks ∨ check.stage = .counting ∨
      ∃ index before, step = .check index ∧ patrol.checks[index]? = some before ∧
        check = ⟨before.peer, (patrol.advance before).2⟩ := by
  cases step with
  | call peer =>
      rcases List.mem_append.mp hmem with hold | hnew
      · exact Or.inl hold
      · rw [List.mem_singleton.mp hnew]
        exact Or.inr (Or.inl rfl)
  | check index =>
      cases hcheck : patrol.checks[index]? with
      | none =>
          rw [act_check_of_none hcheck] at hmem
          exact Or.inl hmem
      | some before =>
          rw [act_check hcheck] at hmem
          rcases List.mem_or_eq_of_mem_set hmem with hold | hnew
          · exact Or.inl hold
          · exact Or.inr (Or.inr ⟨index, before, rfl, hcheck, hnew⟩)
  | move move => exact Or.inl hmem
  | tick duration => exact Or.inl hmem

theorem act_enforces (henforces : ∀ check ∈ patrol.checks, patrol.Enforces check) :
    ∀ check ∈ (patrol.act step).checks, (patrol.act step).Enforces check := by
  intro check hmem
  rcases mem_checks_act hmem with hold | hcounting | ⟨index, before, rfl, hcheck, rfl⟩
  · exact (henforces check hold).act step
  · exact enforces_of_unbanned (by rw [hcounting]; rfl)
  · have hadvance := (henforces before (List.mem_of_getElem? hcheck)).advance
    rw [act_check hcheck]
    exact ⟨hadvance.near, hadvance.ban, hadvance.dropped⟩

/-! ## Checks that let the peer pass -/

theorem act_of_uncrossed (hcheck : patrol.checks[index]? = some check)
    (hstage : check.stage.isCrossed = false) :
    (patrol.act (.check index)).registry = patrol.registry := by
  rw [act_check hcheck]
  dsimp only [advance]
  cases hcase : check.stage with
  | counting => rfl
  | passed => rfl
  | banning => simp [hcase, CheckStage.isCrossed] at hstage
  | dropping expiry => simp [hcase, CheckStage.isCrossed] at hstage
  | banned expiry => simp [hcase, CheckStage.isCrossed] at hstage

/-- Once a check has found the tolerance crossed, it does not let the peer pass. -/
theorem act_of_crossed (hcheck : patrol.checks[index]? = some check)
    (hstage : check.stage.isCrossed = true) (step : Step) :
    ∃ after, (patrol.act step).checks[index]? = some after ∧ after.stage.isCrossed = true := by
  have hbound : index < patrol.checks.length := (List.getElem?_eq_some_iff.mp hcheck).1
  cases step with
  | call peer => exact ⟨check, by simp [act, List.getElem?_append_left hbound, hcheck], hstage⟩
  | check other =>
      cases hother : patrol.checks[other]? with
      | none => exact ⟨check, by rw [act_check_of_none hother, hcheck], hstage⟩
      | some moved =>
          rw [act_check hother]
          by_cases hsame : other = index
          · subst hsame
            obtain rfl : check = moved := Option.some.inj (hcheck.symm.trans hother)
            refine ⟨_, List.getElem?_set_self hbound, ?_⟩
            dsimp only [advance]
            cases hcase : check.stage with
            | counting => simp [hcase, CheckStage.isCrossed] at hstage
            | passed => simp [hcase, CheckStage.isCrossed] at hstage
            | banning => rfl
            | dropping expiry => rfl
            | banned expiry => rfl
          · exact ⟨check, (List.getElem?_set_ne hsame).trans hcheck, hstage⟩
  | move move => exact ⟨check, hcheck, hstage⟩
  | tick duration => exact ⟨check, hcheck, hstage⟩

theorem run_of_crossed (hcheck : patrol.checks[index]? = some check)
    (hstage : check.stage.isCrossed = true) (steps : List Step) :
    ∃ after, (patrol.run steps).checks[index]? = some after ∧ after.stage.isCrossed = true :=
  run_induction (P := fun patrol => ∃ after, patrol.checks[index]? = some after ∧
    after.stage.isCrossed = true) ⟨check, hcheck, hstage⟩
    (fun _ step ⟨_, hcheck, hstage⟩ => act_of_crossed hcheck hstage step) steps

/--
Checks may be called for any peers, at any time, and their steps may fall anywhere
between the operations of the registry. A peer that a check has banned and dropped
is not active before that ban ends. From the step of the ban to its end no step of
anybody brings a new entry of the peer into the candidates, the dialed or the
active ones. A check that lets its peer pass changes nothing in the registry by any
of its steps.
-/
theorem run_bans_hold (registry : Registry) (violations : Violations) (clock : Nat)
    (steps : List Step) :
    let start := opening registry violations clock
    let patrol := start.run steps
    (∀ check ∈ patrol.checks, ∀ expiry, check.stage = .banned expiry → patrol.clock < expiry →
      patrol.registry.isActive check.peer = false) ∧
    (∀ check ∈ patrol.checks, ∀ expiry, check.stage.expiry? = some expiry →
      patrol.clock < expiry →
      ∀ step, Registry.Bars check.peer patrol.registry (patrol.act step).registry) ∧
    (∀ check index, patrol.checks[index]? = some check → check.stage = .passed →
      ∀ before after, steps = before ++ .check index :: after →
        ((start.run before).act (.check index)).registry = (start.run before).registry) := by
  intro start patrol
  have henforces : ∀ check ∈ patrol.checks, patrol.Enforces check :=
    run_induction (P := fun patrol => ∀ check ∈ patrol.checks, patrol.Enforces check)
      (fun _ hmem => absurd hmem List.not_mem_nil) (fun _ _ h => act_enforces h) steps
  refine ⟨fun check hmem => (henforces check hmem).dropped,
    fun check hmem expiry hexpiry hlasts step => (henforces check hmem).bars hexpiry hlasts step,
    ?_⟩
  rintro check index hcheck hpassed before after rfl
  cases hbefore : (start.run before).checks[index]? with
  | none => simp [act, hbefore]
  | some first =>
      refine act_of_uncrossed hbefore (Bool.eq_false_iff.mpr fun hcrossed => ?_)
      obtain ⟨last, hlast, hstill⟩ := run_of_crossed hbefore hcrossed (.check index :: after)
      rw [← run_append, show (start.run (before ++ .check index :: after)) = patrol from rfl,
        hcheck] at hlast
      cases hlast
      rw [hpassed] at hstill
      cases hstill

/-- A peer that comes back before it is banned, and tries twice after that. -/
def returning : List Step :=
  let node := Registry.repeatedNode 0x61
  [.move (.promoteToInbound 0 1), .move (.promoteToActive 0 1 .inbound node),
    .call node.idHash, .check 0, .move (.dropActive node.idHash),
    .move (.promoteToInbound 0 2), .move (.promoteToActive 0 2 .inbound node), .check 0,
    .move (.addTemp 0 node), .check 0,
    .move (.promoteToInbound 0 3), .move (.promoteToActive 0 3 .inbound node), .tick 59]

/-- One step before the ban and one after it, the peer is active and then no longer. -/
theorem run_bans_hold_of_returning :
    let peer := (Registry.repeatedNode 0x61).idHash
    let start := opening Registry.crossingStart (Violations.create 0 8) 5
    (start.run (returning.take 8)).registry.isActive peer = true ∧
    ⟨peer, .banned 65⟩ ∈ (start.run returning).checks ∧
    (start.run returning).registry.isActive peer = false := by
  intro peer start
  have hmem : ⟨peer, .banned 65⟩ ∈ (start.run returning).checks := by decide +kernel
  exact ⟨by decide +kernel, hmem,
    (run_bans_hold Registry.crossingStart (Violations.create 0 8) 5 returning).1
      ⟨peer, .banned 65⟩ hmem 65 rfl (by decide +kernel)⟩

end Patrol

end Peering
