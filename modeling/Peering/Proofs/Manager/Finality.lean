import Peering.Proofs.Manager.Tenure
import Peering.Proofs.Session.Setup

/-!
# Whether a shutdown is final

The network is started at most once, and once a shutdown has returned no call can
begin to start it. But a call that starts the network looks for a shutdown only at
its beginning: one that has passed this check goes on through a shutdown, and raises
the flag and announces its address after it. A shutdown is final exactly if no call
is left that could still do so; in particular if there was none when it began.
-/

namespace Peering

open Manager (RegisterStage RunStage ShutdownStage)

namespace Task

/-- Whether a call can still raise the flag or announce an address, with a host that agrees. -/
def revives (manager : Manager) : Task → Bool
  | .run .checked => !manager.starting
  | .run (.begun _) => true
  | .run (.flagged address) => address.isSome
  | .run (.tasked address) => address.isSome
  | task => task.isClaiming

variable {manager : Manager} {task : Task}

/-- A call that cannot, once a shutdown has begun, leaves a manager down that is down. -/
theorem step_spent (answers : Answers) (hstopped : manager.stopped = true)
    (hspent : task.revives manager = false) :
    (manager.isRunning = false → (task.step manager answers).1.isRunning = false) ∧
      (manager.address = none → (task.step manager answers).1.address = none) ∧
      (task.step manager answers).1.starting = manager.starting ∧
      (task.step manager answers).2.revives manager = false := by
  cases task with
  | register stage => cases stage <;> exact ⟨id, id, rfl, rfl⟩
  | shutdown stage =>
      cases stage with
      | entered =>
          have hstep : (Task.shutdown .entered).step manager answers =
              (manager, .shutdown .returned) := by
            simp only [step, Manager.shutdownStep, hstopped, if_true]
          rw [hstep]
          exact ⟨id, id, rfl, rfl⟩
      | claimed => exact ⟨fun _ => rfl, id, rfl, rfl⟩
      | closed => exact ⟨id, fun _ => rfl, rfl, rfl⟩
      | cleared =>
          -- the last step runs until nothing moves, which does not touch the flag
          refine ⟨fun hdown => ?_, id, rfl, rfl⟩
          show manager.endpoint.settle.1.running = false
          rw [(Endpoint.settle_keepsSetup manager.endpoint).running]
          exact hdown
      | _ => exact ⟨id, id, rfl, rfl⟩
  | run stage =>
      obtain ⟨after, hmove, hstep⟩ := step_run manager answers stage
      rw [hstep]
      cases hmove with
      | refused => exact ⟨id, id, rfl, rfl⟩
      | admitted hopen => cases hstopped.symm.trans hopen
      | late => exact ⟨id, id, rfl, rfl⟩
      | claims hfree => simp [revives, hfree] at hspent
      | employs address tasks => exact ⟨id, id, rfl, hspent⟩
      | ends address =>
          cases address with
          | none => exact ⟨id, fun _ => rfl, rfl, rfl⟩
          | some address => cases hspent
      | rests result => exact ⟨id, id, rfl, rfl⟩
      | _ => cases hspent

/-- The flag of the shutdown is never taken back. -/
theorem step_keeps_stopped (answers : Answers) (hstopped : manager.stopped = true) :
    (task.step manager answers).1.stopped = true := by
  cases task with
  | register stage => cases stage <;> exact hstopped
  | run stage => exact (run_keeps_stopped manager answers stage).trans hstopped
  | shutdown stage =>
      cases stage with
      | entered => simp only [step, Manager.shutdownStep, hstopped, if_true]
      | _ => exact hstopped

/-- Whether a call is the one that shuts down, and has lowered the flag. -/
def isLow : Task → Bool
  | .shutdown .claimed => false
  | task => task.isClosing

theorem isLow_of_finishes (hfinishes : task.finishes = true) : task.isLow = true := by
  unfold finishes at hfinishes
  split at hfinishes
  · rfl
  · cases hfinishes

theorem isClosing_of_isLow (hlow : task.isLow = true) : task.isClosing = true := by
  unfold isLow at hlow
  split at hlow
  · cases hlow
  · exact hlow

theorem step_lowers (answers : Answers) (hhigh : task.isLow = false)
    (hlow : (task.step manager answers).2.isLow = true) :
    (task.step manager answers).1.isRunning = false := by
  cases task with
  | register stage => cases stage <;> cases hlow
  | run stage => cases hlow
  | shutdown stage =>
      cases stage with
      | entered =>
          simp only [step, Manager.shutdownStep] at hlow
          split at hlow <;> cases hlow
      | claimed => rfl
      | returned => cases hlow
      | _ => cases hhigh

theorem step_clears (answers : Answers) (hclear : (task.step manager answers).2.finishes = true) :
    (task.step manager answers).1.address = none := by
  cases task with
  | register stage => cases stage <;> cases hclear
  | run stage => cases hclear
  | shutdown stage =>
      cases stage with
      | entered =>
          simp only [step, Manager.shutdownStep] at hclear
          split at hclear <;> cases hclear
      | closed => rfl
      | _ => cases hclear

/-- What a call can still do depends on the flag of the start, and on nothing else. -/
theorem revives_congr {other : Manager} (hstarting : other.starting = manager.starting)
    (task : Task) : task.revives other = task.revives manager := by
  unfold revives
  rw [hstarting]

end Task

namespace Tenure

variable {tenure : Tenure} {errand : Errand} {answers : Answers} {index : Nat} {task : Task}

/-! ## Calls that can do nothing any more -/

theorem stopped_act (hstopped : tenure.manager.stopped = true) (turn : Turn) :
    (tenure.act turn).manager.stopped = true := by
  cases turn with
  | advance index answers =>
      exact act_advance (P := fun tenure => tenure.manager.stopped = true) hstopped
        fun _ _ => Task.step_keeps_stopped answers hstopped
  | _ => exact hstopped

theorem tornDown_run (htorn : tenure.tornDown = true) (turns : List Turn) :
    (tenure.run turns).tornDown = true := by
  refine run_induction (P := fun tenure => tenure.tornDown = true) htorn ?_ turns
  intro tenure turn htorn
  cases turn with
  | advance index answers =>
      exact act_advance (P := fun tenure => tenure.tornDown = true) htorn
        fun _ _ => by simp [advance, htorn]
  | _ => exact htorn

/-- Some shutdown has come as far as a test asks for, or has returned. -/
def Past (tenure : Tenure) (test : Task → Bool) : Prop :=
  tenure.tornDown = true ∨ ∃ task ∈ tenure.tasks, test task = true

theorem Past.of_begin {test : Task → Bool} (hnew : test task = false)
    (hpast : Past (tenure.begin task) test) : Past tenure test := by
  refine hpast.imp id fun ⟨other, hmem, htest⟩ => ⟨other, ?_, htest⟩
  rcases mem_tasks_begin.mp hmem with hold | rfl
  · exact hold
  · cases hnew.symm.trans htest

/-- A shutdown gets there by a step of its own. -/
theorem Past.of_advance {test : Task → Bool} (hget : tenure.errands[index]? = some errand)
    (hfinishes : errand.task.finishes = true → test errand.task = true)
    (hpast : Past (tenure.advance index errand answers) test) :
    Past tenure test ∨
      test errand.task = false ∧
        test (errand.task.step tenure.manager answers).2 = true := by
  have hmem := mem_tasks hget
  cases htest : test errand.task with
  | true => exact .inl (.inr ⟨errand.task, hmem, htest⟩)
  | false =>
      have hstays : errand.task.finishes = false := by
        refine Bool.eq_false_iff.mpr fun hends => ?_
        cases (hfinishes hends).symm.trans htest
      rcases hpast with htorn | ⟨task, hafter, hafterTest⟩
      · refine .inl (.inl ?_)
        simpa [advance, hstays] using htorn
      · rcases mem_tasks_advance hafter with hold | rfl
        · exact .inl (.inr ⟨task, hold, hafterTest⟩)
        · exact .inr ⟨rfl, hafterTest⟩

/-- A shutdown is under way, or done, and no call is left that could undo it. -/
structure Sinking (tenure : Tenure) : Prop where
  stopped : tenure.manager.stopped = true
  spent : ∀ task ∈ tenure.tasks, task.revives tenure.manager = false
  down : Past tenure Task.isLow → tenure.manager.isRunning = false
  unbound : Past tenure Task.finishes → tenure.manager.address = none

theorem Sinking.begin (h : Sinking tenure) (hspent : task.revives tenure.manager = false)
    (hlow : task.isLow = false) (hfinishes : task.finishes = false) :
    Sinking (tenure.begin task) where
  stopped := h.stopped
  spent := fun other hmem => by
    rcases mem_tasks_begin.mp hmem with hold | rfl
    · exact h.spent other hold
    · exact hspent
  down := fun hpast => h.down (hpast.of_begin hlow)
  unbound := fun hpast => h.unbound (hpast.of_begin hfinishes)

theorem Sinking.advance (h : Sinking tenure) (hget : tenure.errands[index]? = some errand) :
    Sinking (tenure.advance index errand answers) := by
  have hmem := mem_tasks hget
  obtain ⟨hdown, hunbound, hstarting, hspent⟩ :=
    errand.task.step_spent answers h.stopped (h.spent errand.task hmem)
  refine ⟨Task.step_keeps_stopped answers h.stopped, fun other hother => ?_, fun hpast => ?_,
    fun hpast => ?_⟩
  · have hsame : (tenure.advance index errand answers).manager.starting =
        tenure.manager.starting := hstarting
    rw [Task.revives_congr hsame]
    rcases mem_tasks_advance hother with hold | rfl
    · exact h.spent other hold
    · exact hspent
  · rcases hpast.of_advance hget Task.isLow_of_finishes with hbefore | ⟨hhigh, hlow⟩
    · exact hdown (h.down hbefore)
    · exact Task.step_lowers answers hhigh hlow
  · rcases hpast.of_advance hget id with hbefore | ⟨-, hfinishes⟩
    · exact hunbound (h.unbound hbefore)
    · exact Task.step_clears answers hfinishes

theorem Sinking.act (h : Sinking tenure) (turn : Turn) : Sinking (tenure.act turn) := by
  cases turn with
  | register handlers => exact h.begin rfl rfl rfl
  | run => exact h.begin rfl rfl rfl
  | shutdown => exact h.begin rfl rfl rfl
  | elsewhere other mapper => exact ⟨h.stopped, h.spent, h.down, h.unbound⟩
  | advance index answers => exact act_advance h fun errand hget => h.advance hget

theorem Sinking.run (h : Sinking tenure) (turns : List Turn) : Sinking (tenure.run turns) :=
  run_induction h (fun _ turn h => h.act turn) turns

/-- The manager is down, and no call can bring it up. -/
structure Settled (tenure : Tenure) : Prop where
  down : tenure.manager.isRunning = false
  unbound : tenure.manager.address = none
  spent : ∀ task ∈ tenure.tasks, task.revives tenure.manager = false

theorem Sinking.settled (h : Sinking tenure) (htorn : tenure.tornDown = true) : Settled tenure :=
  ⟨h.down (.inl htorn), h.unbound (.inl htorn), h.spent⟩

/-- After the shutdown, a manager that nothing can bring up stays down. -/
theorem Settled.run (h : Settled tenure) (hstopped : tenure.manager.stopped = true)
    (htorn : tenure.tornDown = true) (turns : List Turn) : Settled (tenure.run turns) := by
  have hsinking : Sinking tenure := ⟨hstopped, h.spent, fun _ => h.down, fun _ => h.unbound⟩
  exact (hsinking.run turns).settled (tornDown_run htorn turns)

/-- While the flag of the shutdown is down, no shutdown is under way or done. -/
theorem Accounts.not_past (h : Accounts tenure) (hopen : tenure.manager.stopped = false)
    {test : Task → Bool} (hclosing : ∀ task, test task = true → task.isClosing = true) :
    ¬ Past tenure test := by
  have hflag := h.stopped
  rw [hopen, Bool.toNat_false] at hflag
  rintro (htorn | ⟨task, hmem, htest⟩)
  · rw [htorn, Bool.toNat_true] at hflag
    omega
  · have hsome := List.countP_pos_iff.mpr ⟨task, hmem, hclosing task htest⟩
    omega

/-- A shutdown that begins while no call could bring the manager up is final. -/
theorem settled_of_alone (haccounts : Accounts tenure) (hopen : tenure.manager.stopped = false)
    (hspent : ∀ task ∈ tenure.tasks, task.revives tenure.manager = false)
    (hget : tenure.errands[index]? = some errand) (hentered : errand.task = .shutdown .entered)
    (turns : List Turn)
    (htorn : ((tenure.advance index errand answers).run turns).tornDown = true) :
    Settled ((tenure.advance index errand answers).run turns) := by
  have hstep : errand.task.step tenure.manager answers =
      ({ tenure.manager with stopped := true }, .shutdown .claimed) := by
    simp only [hentered, Task.step, Manager.shutdownStep, hopen, Bool.false_eq_true, if_false]
  have hmanager : (tenure.advance index errand answers).manager =
      { tenure.manager with stopped := true } := congrArg Prod.fst hstep
  have hsinking : Sinking (tenure.advance index errand answers) := by
    refine ⟨by rw [hmanager], fun task hmem => ?_, fun hpast => ?_, fun hpast => ?_⟩
    · have hsame : (tenure.advance index errand answers).manager.starting =
          tenure.manager.starting := by rw [hmanager]
      rw [Task.revives_congr hsame]
      rcases mem_tasks_advance hmem with hold | rfl
      · exact hspent task hold
      · rw [hstep]
        rfl
    · rcases hpast.of_advance hget Task.isLow_of_finishes with hbefore | ⟨-, hlow⟩
      · exact absurd hbefore (haccounts.not_past hopen fun _ => Task.isClosing_of_isLow)
      · rw [hstep] at hlow
        cases hlow
    · rcases hpast.of_advance hget id with hbefore | ⟨-, hfinishes⟩
      · exact absurd hbefore (haccounts.not_past hopen fun _ hends =>
          Task.isClosing_of_isLow (Task.isLow_of_finishes hends))
      · rw [hstep] at hfinishes
        cases hfinishes
  exact (hsinking.run turns).settled htorn

/-! ## Calls that bring the manager up -/

/-- Some continuation finds the manager running, or with an address. -/
def Wakes (tenure : Tenure) : Prop :=
  ∃ turns, (tenure.run turns).manager.isRunning = true ∨
    (tenure.run turns).manager.address ≠ none

theorem Wakes.of_act (turn : Turn) (h : Wakes (tenure.act turn)) : Wakes tenure := by
  obtain ⟨turns, hup⟩ := h
  exact ⟨turn :: turns, hup⟩

/-- A call wakes the manager if its next step leads to where it does. -/
theorem wakes_of_step (answers : Answers) (htask : tenure.tasks[index]? = some task)
    (hnext : ∀ after : Tenure, after.manager = (task.step tenure.manager answers).1 →
      after.tasks[index]? = some (task.step tenure.manager answers).2 → Wakes after) :
    Wakes tenure := by
  rw [tasks, List.getElem?_map, Option.map_eq_some_iff] at htask
  obtain ⟨errand, hget, rfl⟩ := htask
  have hact : tenure.act (.advance index answers) = tenure.advance index errand answers := by
    simp only [act, hget]
  refine Wakes.of_act (.advance index answers) (hact ▸ hnext _ rfl ?_)
  have hbound : index < tenure.tasks.length := by
    rw [tasks, List.length_map]
    exact (List.getElem?_eq_some_iff.mp hget).choose
  rw [tasks_advance, List.getElem?_set_self hbound]

theorem wakes_of_begun {address : Option SocketAddress}
    (htask : tenure.tasks[index]? = some (.run (.begun address))) : Wakes tenure := by
  refine wakes_of_step agreeing htask fun after hmanager _ => ⟨[], Or.inl ?_⟩
  show after.manager.isRunning = true
  rw [hmanager]
  rfl

theorem wakes_of_ready {address : Option SocketAddress}
    (htask : tenure.tasks[index]? = some (.run (.ready address))) : Wakes tenure :=
  wakes_of_step agreeing htask fun _ _ hnext => wakes_of_begun hnext

theorem wakes_of_built {address : Option SocketAddress} {templates : Handshake.Templates}
    (htask : tenure.tasks[index]? = some (.run (.built address templates))) : Wakes tenure :=
  wakes_of_step agreeing htask fun _ _ hnext => wakes_of_ready hnext

theorem wakes_of_identified {address : Option SocketAddress} {self : Identity}
    (htask : tenure.tasks[index]? = some (.run (.identified address self))) : Wakes tenure :=
  wakes_of_step agreeing htask fun _ _ hnext => wakes_of_built hnext

theorem wakes_of_announced {address : Option SocketAddress}
    (htask : tenure.tasks[index]? = some (.run (.announced address))) : Wakes tenure :=
  wakes_of_step agreeing htask fun _ _ hnext => wakes_of_identified hnext

theorem wakes_of_bound {address : Option SocketAddress}
    (htask : tenure.tasks[index]? = some (.run (.bound address))) : Wakes tenure := by
  refine wakes_of_step agreeing htask fun after _ hnext => ?_
  simp only [Task.step, Manager.runStep] at hnext
  split at hnext
  · exact wakes_of_ready hnext
  · exact wakes_of_announced hnext

theorem wakes_of_claimed (htask : tenure.tasks[index]? = some (.run .claimed)) : Wakes tenure :=
  wakes_of_step agreeing htask fun _ _ hnext => wakes_of_bound hnext

theorem wakes_of_checked (hfree : tenure.manager.starting = false)
    (htask : tenure.tasks[index]? = some (.run .checked)) : Wakes tenure := by
  refine wakes_of_step agreeing htask fun after _ hnext => ?_
  simp only [Task.step, Manager.runStep, hfree, Bool.false_eq_true, if_false] at hnext
  exact wakes_of_claimed hnext

theorem wakes_of_tasked {address : SocketAddress}
    (htask : tenure.tasks[index]? = some (.run (.tasked (some address)))) : Wakes tenure := by
  refine wakes_of_step agreeing htask fun after hmanager _ => ⟨[], Or.inr ?_⟩
  show after.manager.address ≠ none
  rw [hmanager]
  exact Option.some_ne_none address

theorem wakes_of_flagged {address : SocketAddress}
    (htask : tenure.tasks[index]? = some (.run (.flagged (some address)))) : Wakes tenure :=
  wakes_of_step agreeing htask fun _ _ hnext => wakes_of_tasked hnext

theorem wakes_of_revives (hmem : task ∈ tenure.tasks)
    (hrevives : task.revives tenure.manager = true) : Wakes tenure := by
  obtain ⟨index, htask⟩ := List.mem_iff_getElem?.mp hmem
  cases task with
  | register stage => cases hrevives
  | shutdown stage => cases stage <;> cases hrevives
  | run stage =>
      cases stage with
      | entered => cases hrevives
      | checked => exact wakes_of_checked (by simpa [Task.revives] using hrevives) htask
      | claimed => exact wakes_of_claimed htask
      | bound address => exact wakes_of_bound htask
      | announced address => exact wakes_of_announced htask
      | identified address self => exact wakes_of_identified htask
      | built address templates => exact wakes_of_built htask
      | ready address => exact wakes_of_ready htask
      | begun address => exact wakes_of_begun htask
      | flagged address =>
          obtain ⟨address, rfl⟩ := Option.isSome_iff_exists.mp hrevives
          exact wakes_of_flagged htask
      | tasked address =>
          obtain ⟨address, rfl⟩ := Option.isSome_iff_exists.mp hrevives
          exact wakes_of_tasked htask
      | returned result => cases hrevives

/-! ## A start that begins too late -/

/-- The call at an index is a start that was refused, or is about to be. -/
def Refused (tenure : Tenure) (index : Nat) : Prop :=
  tenure.tasks[index]? = some (.run .entered) ∨
    tenure.tasks[index]? = some (.run (.returned (.error .shutDown)))

theorem Refused.begin (h : Refused tenure index) (task : Task) :
    Refused (tenure.begin task) index := by
  have hsame : ∀ {found : Task}, tenure.tasks[index]? = some found →
      (tenure.begin task).tasks[index]? = some found := by
    intro found hfound
    rw [tasks_begin, List.getElem?_append_left (List.getElem?_eq_some_iff.mp hfound).choose, hfound]
  exact h.imp hsame hsame

theorem Refused.advance {other : Nat} (h : Refused tenure index)
    (hstopped : tenure.manager.stopped = true) (hget : tenure.errands[other]? = some errand) :
    Refused (tenure.advance other errand answers) index := by
  have htask := tasks_getElem? hget
  unfold Refused at h ⊢
  rw [tasks_advance, List.getElem?_set]
  split
  · rename_i hsame
    subst hsame
    rw [htask] at h
    rw [if_pos (List.getElem?_eq_some_iff.mp htask).choose]
    refine Or.inr (congrArg some ?_)
    rcases h with hentered | hreturned
    · rw [Option.some.inj hentered]
      simp only [Task.step, Manager.runStep, hstopped, if_true]
    · rw [Option.some.inj hreturned]
      rfl
  · exact h

theorem Refused.run (h : Refused tenure index) (hstopped : tenure.manager.stopped = true)
    (turns : List Turn) : Refused (tenure.run turns) index := by
  induction turns generalizing tenure with
  | nil => exact h
  | cons turn rest ih =>
      refine ih ?_ (stopped_act hstopped turn)
      cases turn with
      | register handlers => exact h.begin _
      | run => exact h.begin _
      | shutdown => exact h.begin _
      | elsewhere other mapper => exact h
      | advance other answers =>
          exact act_advance (P := fun tenure => Refused tenure index) h
            fun errand hget => h.advance hstopped hget

/--
The network is started at most once, and a start that begins after the shutdown has
returned is refused. From then on the manager is down and without an address in
every later state exactly if it is so now and no call is under way that has passed
its check for a shutdown and can still raise the flag or announce an address.
-/
theorem run_finality {settings : Settings} {fresh : NodeId} {manager : Manager}
    (hmade : Manager.create settings fresh = .ok manager) (turns : List Turn) :
    let tenure := (opening manager).run turns
    tenure.starts ≤ 1 ∧
    (tenure.tornDown = true →
      (∀ later result,
        ((tenure.act .run).run later).tasks[tenure.tasks.length]? = some (.run (.returned result)) →
          result = .error .shutDown) ∧
      ((∀ later, (tenure.run later).manager.isRunning = false ∧
          (tenure.run later).manager.address = none) ↔ Settled tenure)) := by
  intro tenure
  have haccounts : Accounts tenure := accounts_run hmade turns
  have hstopped : tenure.tornDown = true → tenure.manager.stopped = true :=
    fun htorn => (haccounts.closed htorn).1
  refine ⟨?_, fun htorn => ⟨fun later result hresult => ?_, ?_, ?_⟩⟩
  · have hflag := haccounts.starting
    have hone := Bool.toNat_le tenure.manager.starting
    omega
  · have hentered : Refused (tenure.act .run) tenure.tasks.length := by
      refine Or.inl ?_
      show (tenure.begin (.run .entered)).tasks[tenure.tasks.length]? = _
      rw [tasks_begin, List.getElem?_concat_length]
    have hlater := hentered.run (stopped_act (hstopped htorn) .run) later
    rcases hlater with hwaits | hrefused
    · cases hresult.symm.trans hwaits
    · cases hresult.symm.trans hrefused
      rfl
  · intro hfinal
    refine ⟨(hfinal []).1, (hfinal []).2, fun task hmem => ?_⟩
    refine Bool.eq_false_iff.mpr fun hrevives => ?_
    obtain ⟨later, hup⟩ := wakes_of_revives hmem hrevives
    obtain ⟨hdown, hunbound⟩ := hfinal later
    rcases hup with hrunning | haddress
    · cases hdown.symm.trans hrunning
    · exact haddress hunbound
  · intro hsettled later
    have h := hsettled.run (hstopped htorn) htorn later
    exact ⟨h.down, h.unbound⟩

/-! ## Two shutdowns -/

/-- A call that starts the network, from its beginning to its end. -/
def served : List Turn :=
  .run :: List.replicate 11 (.advance 0 agreeing)

/-- A network that has been started is shut down, and nothing comes between. -/
def orderly : List Turn :=
  served ++ .shutdown :: List.replicate 7 (.advance 1 agreeing)

/-- The node has run and had an address; after an orderly shutdown nothing starts it again. -/
theorem run_finality_of_orderly :
    ∃ manager, Manager.create Settings.default (NodeId.random 0 0) = .ok manager ∧
      ((opening manager).run served).manager.isRunning = true ∧
      ((opening manager).run served).manager.address = some ⟨.v4 0x7f000001, 40404⟩ ∧
      ((opening manager).run orderly).starts = 1 ∧
      ((opening manager).run orderly).tornDown = true ∧
      ∀ later, (((opening manager).run orderly).run later).manager.isRunning = false ∧
        (((opening manager).run orderly).run later).manager.address = none := by
  have hmade : made (fun manager =>
      let up := (opening manager).run served
      let shut := (opening manager).run orderly
      up.manager.isRunning && decide (up.manager.address = some ⟨.v4 0x7f000001, 40404⟩) &&
        decide (shut.starts = 1) && shut.tornDown && !shut.manager.isRunning &&
        decide (shut.manager.address = none) &&
        shut.tasks.all fun task => !task.revives shut.manager) = true := by
    decide +kernel
  obtain ⟨manager, hcreate, htest⟩ := exists_of_made hmade
  simp only [Bool.and_eq_true, decide_eq_true_eq, Bool.not_eq_true', List.all_eq_true] at htest
  obtain ⟨⟨⟨⟨⟨⟨hup, haddress⟩, honce⟩, htorn⟩, hdown⟩, hunbound⟩, hspent⟩ := htest
  have hfinal := ((run_finality hcreate orderly).2 htorn).2.mpr ⟨hdown, hunbound, hspent⟩
  exact ⟨manager, hcreate, hup, haddress, honce, htorn, hfinal⟩

/-- A shutdown that begins and ends while a call that starts the network is about to do so. -/
def overrun : List Turn :=
  .run :: List.replicate 4 (.advance 0 agreeing) ++
    .shutdown :: List.replicate 7 (.advance 1 agreeing)

/--
A shutdown that overtakes a call in its start is undone by it: the shutdown has
returned, and after it the manager runs and has an address.
-/
theorem overrun_shutdown_undone :
    ∃ manager, Manager.create Settings.default (NodeId.random 0 0) = .ok manager ∧
      ((opening manager).run overrun).tornDown = true ∧
      ∃ later, (((opening manager).run overrun).run later).manager.isRunning = true ∧
        (((opening manager).run overrun).run later).manager.address =
          some ⟨.v4 0x7f000001, 40404⟩ := by
  have hmade : made (fun manager =>
      let shut := (opening manager).run overrun
      let later := shut.run (List.replicate 7 (.advance 0 agreeing))
      shut.tornDown && later.manager.isRunning &&
        decide (later.manager.address = some ⟨.v4 0x7f000001, 40404⟩)) = true := by
    decide +kernel
  obtain ⟨manager, hcreate, htest⟩ := exists_of_made hmade
  simp only [Bool.and_eq_true, decide_eq_true_eq] at htest
  obtain ⟨⟨htorn, hrunning⟩, haddress⟩ := htest
  exact ⟨manager, hcreate, htorn, _, hrunning, haddress⟩

end Tenure

end Peering
