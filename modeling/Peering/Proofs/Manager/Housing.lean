import Peering.Proofs.Manager.Tenure

/-!
# The port that was bound

Only the call that has claimed the start binds the address. It keeps the answer of
the host in hand and takes over the port before it goes on, so that the registry,
the call and what has been started agree about the port, whatever the others do.
-/

namespace Peering

namespace Task

variable {manager : Manager} {task : Task}

/-- What the host gave to a call when it bound the address. -/
def inHand? : Task → Option (Option SocketAddress)
  | .run (.bound address) => some address
  | .run (.announced address) => some address
  | .run (.identified address _) => some address
  | .run (.built address _) => some address
  | .run (.ready address) => some address
  | .run (.begun address) => some address
  | .run (.flagged address) => some address
  | .run (.tasked address) => some address
  | _ => none

/-- Whether a call has started queues and threads, and is not through. -/
def isStarted : Task → Bool
  | .run (.begun _) => true
  | .run (.flagged _) => true
  | .run (.tasked _) => true
  | _ => false

/-! ## Steps -/

/-- Only a call that has bound the address, and is not through, has it in hand. -/
theorem inHand?_of_idle (hidle : task.isClaiming = false) (hunstarted : task.isStarted = false) :
    task.inHand? = none := by
  cases task with
  | run stage => cases stage <;> simp_all [inHand?, isClaiming, isStarted]
  | _ => rfl

theorem step_binds (manager : Manager) (answers : Answers) (hbinds : task.binds = true) :
    task.isClaiming = true ∧ task.starts answers = false ∧
      (∀ address, (task.step manager answers).2.inHand? = some address →
        address = answers.bound.toOption) ∧
      ∀ found, answers.bound.toOption = some found →
        (task.step manager answers).2 = .run (.bound (some found)) := by
  cases task with
  | run stage =>
      cases stage with
      | claimed =>
          obtain ⟨after, hmove, hstep⟩ := step_run manager answers .claimed
          rw [hstep]
          cases hmove with
          | binds found hbound => simp [hbound, inHand?, isClaiming, starts, Except.toOption]
          | goesWithout cause hbound _ =>
              simp [hbound, inHand?, isClaiming, starts, Except.toOption]
          | givesUp cause hbound _ => simp [hbound, inHand?, isClaiming, starts, Except.toOption]
      | _ => cases hbinds
  | _ => cases hbinds

theorem step_inHand? (answers : Answers) {address : Option SocketAddress}
    (hbinds : task.binds = false) (hafter : (task.step manager answers).2.inHand? = some address) :
    task.inHand? = some address := by
  cases task with
  | run stage =>
      obtain ⟨after, hmove, hstep⟩ := step_run manager answers stage
      rw [hstep] at hafter
      cases hmove with
      | binds => cases hbinds
      | goesWithout => cases hbinds
      | _ => first | exact hafter | cases hafter
  | _ => cases hafter

/-- What has been started is put away by the call that has started it. -/
theorem step_started (manager : Manager) (answers : Answers) (hsetup : task.isSetup = true) :
    (task.step manager answers).1.started = manager.started ∨
      task.isStarted = true ∧ ∃ address, task.inHand? = some address ∧
        (task.step manager answers).1.started = some ⟨address⟩ := by
  cases task with
  | shutdown stage => cases hsetup
  | register stage => cases stage <;> exact .inl rfl
  | run stage =>
      obtain ⟨after, hmove, hstep⟩ := step_run manager answers stage
      rw [hstep]
      cases hmove with
      | ends address => exact .inr ⟨rfl, address, rfl, rfl⟩
      | _ => exact .inl rfl

theorem step_isStarted (answers : Answers)
    (hafter : (task.step manager answers).2.isStarted = true) :
    task.isStarted = true ∨ task.starts answers = true := by
  cases task with
  | run stage =>
      obtain ⟨after, hmove, hstep⟩ := step_run manager answers stage
      rw [hstep] at hafter
      cases hmove with
      | begins address hthreads =>
          exact .inr (by simp [starts, hthreads, Except.isOk, Except.toBool])
      | raises address => exact .inl rfl
      | employs address tasks => exact .inl rfl
      | _ => cases hafter
  | _ => cases hafter

theorem step_self (answers : Answers) (hsetup : task.isSetup = true)
    (hapart : ∀ address, task ≠ .run (.bound address)) :
    (task.step manager answers).1.registry.self = manager.registry.self := by
  cases task with
  | shutdown stage => cases hsetup
  | register stage => cases stage <;> rfl
  | run stage =>
      obtain ⟨after, hmove, hstep⟩ := step_run manager answers stage
      rw [hstep]
      cases hmove with
      | movesPort found => exact absurd rfl (hapart (some found))
      | _ => rfl

/-- A call that has bound the address takes over its port. -/
theorem step_bound_port (manager : Manager) (answers : Answers) (found : SocketAddress) :
    ((Task.run (.bound (some found))).step manager answers).1.registry.self.port = found.port := by
  obtain ⟨after, hmove, hstep⟩ := step_run manager answers (.bound (some found))
  rw [hstep]
  cases hmove with
  | keepsPort _ hsame => exact (hsame found rfl).symm
  | movesPort => rfl

end Task

namespace Tenure

variable {tenure : Tenure} {errand : Errand} {answers : Answers} {index : Nat} {task : Task}

/-! ## The one call that starts -/

/-- A call that has claimed the start is the only one, and the start has not been made. -/
theorem Accounts.alone (h : Accounts tenure) (htask : tenure.tasks[index]? = some task)
    (hclaims : task.isClaiming = true) (new : Task) :
    tenure.starts = 0 ∧
      ∀ other ∈ tenure.tasks.set index new, other = new ∨ other.isClaiming = false := by
  have hcount := countP_set_add Task.isClaiming (.register .returned) htask
  have hflag := h.starting
  have hone := Bool.toNat_le tenure.manager.starting
  rw [hclaims, Bool.toNat_true, show (Task.register .returned).isClaiming.toNat = 0 from rfl]
    at hcount
  refine ⟨by omega, fun other hother => ?_⟩
  obtain ⟨place, hplace⟩ := List.mem_iff_getElem?.mp hother
  rw [List.getElem?_set] at hplace
  split at hplace
  · rename_i hsame
    subst hsame
    rw [if_pos (List.getElem?_eq_some_iff.mp htask).choose] at hplace
    exact .inl (Option.some.inj hplace).symm
  · rename_i hapart
    refine .inr (Bool.eq_false_iff.mpr fun hother => ?_)
    have hstays : (tenure.tasks.set index (.register .returned))[place]? = some other := by
      rw [List.getElem?_set_ne hapart, hplace]
    have hsome := List.countP_pos_iff.mpr ⟨other, List.mem_of_getElem? hstays, hother⟩
    omega

/-- Where the node is, as the calls that start it and the registry have it. -/
structure Housed (tenure : Tenure) : Prop where
  inHand : ∀ task ∈ tenure.tasks, ∀ address, task.inHand? = some address → address = tenure.bound
  started : ∀ started, tenure.manager.started = some started → started.address = tenure.bound
  port : ∀ found, tenure.bound = some found →
    tenure.manager.registry.self.port = found.port ∨ .run (.bound (some found)) ∈ tenure.tasks
  unstarted : tenure.starts = 0 →
    tenure.manager.started = none ∧ ∀ task ∈ tenure.tasks, task.isStarted = false

theorem housed_opening {manager : Manager} (hstarted : manager.started = none) :
    Housed (opening manager) where
  inHand := fun task hmem => absurd hmem (not_mem_tasks_opening manager task)
  started := fun started hsome => by cases hstarted.symm.trans hsome
  port := fun found hfound => by cases hfound
  unstarted := fun _ =>
    ⟨hstarted, fun task hmem => absurd hmem (not_mem_tasks_opening manager task)⟩

theorem Housed.begin (h : Housed tenure) (hinHand : task.inHand? = none)
    (hunstarted : task.isStarted = false) : Housed (tenure.begin task) where
  inHand := fun other hmem address hother => by
    rcases mem_tasks_begin.mp hmem with hold | rfl
    · exact h.inHand other hold address hother
    · cases hinHand.symm.trans hother
  started := h.started
  port := fun found hfound =>
    (h.port found hfound).imp id fun hwaits => mem_tasks_begin.mpr (.inl hwaits)
  unstarted := fun hnone => by
    refine ⟨(h.unstarted hnone).1, fun other hmem => ?_⟩
    rcases mem_tasks_begin.mp hmem with hold | rfl
    · exact (h.unstarted hnone).2 other hold
    · exact hunstarted

/-- As long as nothing has been started, no call is behind the start. -/
theorem Housed.unstarted_advance (h : Housed tenure) (hsetup : errand.task.isSetup = true)
    (hget : tenure.errands[index]? = some errand)
    (hnone : (tenure.advance index errand answers).starts = 0) :
    (tenure.advance index errand answers).manager.started = none ∧
      ∀ task ∈ (tenure.advance index errand answers).tasks, task.isStarted = false := by
  have hsum : tenure.starts + (errand.task.starts answers).toNat = 0 := hnone
  have hstays : errand.task.starts answers = false := Bool.toNat_eq_zero.mp (by omega)
  obtain ⟨hunstarted, hothers⟩ := h.unstarted (by omega)
  have hself := hothers errand.task (mem_tasks hget)
  refine ⟨?_, fun other hother => ?_⟩
  · rcases Task.step_started tenure.manager answers hsetup with hsame | ⟨hstarted, _⟩
    · exact hsame.trans hunstarted
    · cases hself.symm.trans hstarted
  · rcases mem_tasks_advance hother with hold | rfl
    · exact hothers other hold
    · refine Bool.eq_false_iff.mpr fun hstarted => ?_
      rcases Task.step_isStarted answers hstarted with hwas | hstarts
      · cases hself.symm.trans hwas
      · cases hstays.symm.trans hstarts

/-- The port that was bound is taken over by the call that has bound it. -/
theorem Housed.port_advance (h : Housed tenure) (hsetup : errand.task.isSetup = true)
    (hget : tenure.errands[index]? = some errand) {found : SocketAddress}
    (hfound : tenure.bound = some found) :
    (tenure.advance index errand answers).manager.registry.self.port = found.port ∨
      .run (.bound (some found)) ∈ (tenure.advance index errand answers).tasks := by
  by_cases hholds : ∃ address, errand.task = .run (.bound address)
  · obtain ⟨address, haddress⟩ := hholds
    have hinHand : errand.task.inHand? = some address := by
      rw [haddress]
      rfl
    have hsame : address = some found :=
      (h.inHand errand.task (mem_tasks hget) address hinHand).trans hfound
    have hport := Task.step_bound_port tenure.manager answers found
    rw [← hsame, ← haddress] at hport
    exact .inl hport
  · have hapart : ∀ address, errand.task ≠ .run (.bound address) :=
      fun address haddress => hholds ⟨address, haddress⟩
    have hself : (tenure.advance index errand answers).manager.registry.self =
        tenure.manager.registry.self := Task.step_self answers hsetup hapart
    rw [hself]
    refine (h.port found hfound).imp id fun hwaits => ?_
    exact (eq_or_mem_tasks_advance hget hwaits).resolve_left fun hold => hapart _ hold.symm

/-- The call that binds the address is the only one that can have one in hand. -/
theorem Housed.advance_binds (h : Housed tenure) (haccounts : Accounts tenure)
    (hsetup : errand.task.isSetup = true) (hget : tenure.errands[index]? = some errand)
    (hbinds : errand.task.binds = true) : Housed (tenure.advance index errand answers) := by
  obtain ⟨hclaims, hstays, hinHand, hport⟩ :=
    Task.step_binds tenure.manager answers hbinds
  obtain ⟨hnone, halone⟩ := haccounts.alone (tasks_getElem? hget) hclaims
    (errand.task.step tenure.manager answers).2
  have hbound : (tenure.advance index errand answers).bound = answers.bound.toOption := by
    simp [Tenure.advance, hbinds]
  have hafter : (tenure.advance index errand answers).starts = 0 := by
    simp [Tenure.advance, hnone, hstays]
  obtain ⟨hunstarted, hfresh⟩ := h.unstarted_advance hsetup hget hafter
  refine ⟨fun other hother address haddress => ?_, fun started hsome => ?_, fun found hfound => ?_,
    h.unstarted_advance hsetup hget⟩
  · rw [hbound]
    have hidle := hfresh other hother
    rw [tasks_advance] at hother
    rcases halone other hother with rfl | hfree
    · exact hinHand address haddress
    · rw [Task.inHand?_of_idle hfree hidle] at haddress
      cases haddress
  · cases hunstarted.symm.trans hsome
  · rw [hbound] at hfound
    exact .inr (hport found hfound ▸ step_mem_tasks hget)

theorem Housed.advance (h : Housed tenure) (haccounts : Accounts tenure)
    (hsetup : errand.task.isSetup = true) (hget : tenure.errands[index]? = some errand) :
    Housed (tenure.advance index errand answers) := by
  have hmem := mem_tasks hget
  cases hbinds : errand.task.binds with
  | true => exact h.advance_binds haccounts hsetup hget hbinds
  | false =>
      have hbound : (tenure.advance index errand answers).bound = tenure.bound := by
        simp [Tenure.advance, hbinds]
      refine ⟨fun other hother address haddress => ?_, fun started hsome => ?_,
        fun found hfound => h.port_advance hsetup hget (hbound.symm.trans hfound),
        h.unstarted_advance hsetup hget⟩
      · rw [hbound]
        rcases mem_tasks_advance hother with hold | rfl
        · exact h.inHand other hold address haddress
        · exact h.inHand errand.task hmem address (Task.step_inHand? answers hbinds haddress)
      · rw [hbound]
        rcases Task.step_started tenure.manager answers hsetup with
          hsame | ⟨_, address, hinHand, hnow⟩
        · exact h.started started (hsame.symm.trans hsome)
        · cases hnow.symm.trans hsome
          exact h.inHand errand.task hmem address hinHand

theorem Housed.act (h : Housed tenure) (haccounts : Accounts tenure)
    (hsetup : ∀ task ∈ tenure.tasks, task.isSetup = true) (turn : Turn) :
    Housed (tenure.act turn) := by
  cases turn with
  | register handlers => exact h.begin rfl rfl
  | run => exact h.begin rfl rfl
  | shutdown => exact h.begin rfl rfl
  | elsewhere other mapper => exact ⟨h.inHand, h.started, h.port, h.unstarted⟩
  | advance index answers =>
      exact act_advance h fun errand hget =>
        h.advance haccounts (hsetup errand.task (mem_tasks hget)) hget

end Tenure

end Peering
