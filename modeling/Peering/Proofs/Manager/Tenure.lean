import Peering.Manager.Lifecycle

/-!
# Calls that overlap

Any number of calls that register, start and shut down may be under way on one
manager. Each of their steps is indivisible, and between two steps of one call the
others, and the rest of the node, may do anything. What holds the calls apart is two
flags that are raised by an exchange: one call at a time has claimed the start, or
the start has been made; one call at a time is shutting down, or the shutdown is done.
-/

namespace Peering

open Manager (RegisterStage RunStage ShutdownStage)

/-- What the host answers to a call that asks it for something. -/
structure Answers where
  bound : Except OsError SocketAddress
  threads : Except OsError Unit

/-- What a step of a call that starts the network can be. -/
inductive RunMove (manager : Manager) (answers : Answers) :
    RunStage → Manager × RunStage → Prop where
  | refused (hstopped : manager.stopped = true) :
      RunMove manager answers .entered (manager, .returned (.error .shutDown))
  | admitted (hopen : manager.stopped = false) :
      RunMove manager answers .entered (manager, .checked)
  | late (hstarting : manager.starting = true) :
      RunMove manager answers .checked (manager, .returned (.ok ()))
  | claims (hfree : manager.starting = false) :
      RunMove manager answers .checked ({ manager with starting := true }, .claimed)
  | binds (address : SocketAddress) (hbound : answers.bound = .ok address) :
      RunMove manager answers .claimed (manager, .bound (some address))
  | goesWithout (cause : OsError) (hbound : answers.bound = .error cause)
      (hpolicy : manager.settings.bindFailurePolicy = .degrade) :
      RunMove manager answers .claimed (manager, .bound none)
  | givesUp (cause : OsError) (hbound : answers.bound = .error cause)
      (hpolicy : manager.settings.bindFailurePolicy = .fail) :
      RunMove manager answers .claimed
        ({ manager with starting := false }, .returned (.error (.bind manager.wanted cause)))
  | keepsPort (address : Option SocketAddress)
      (hsame : ∀ found, address = some found → found.port = manager.registry.self.port) :
      RunMove manager answers (.bound address) (manager, .ready address)
  | movesPort (found : SocketAddress) (hother : found.port ≠ manager.registry.self.port) :
      RunMove manager answers (.bound (some found))
        (manager.setEndpoint (manager.endpoint.setRegistry
          (manager.registry.setPort found.port)), .announced (some found))
  | reads (address : Option SocketAddress) :
      RunMove manager answers (.announced address)
        (manager, .identified address manager.registry.self)
  | builds (address : Option SocketAddress) (self : Identity) :
      RunMove manager answers (.identified address self)
        (manager, .built address (manager.buildTemplates self manager.endpoint.handlers.versions))
  | stores (address : Option SocketAddress) (templates : Handshake.Templates) :
      RunMove manager answers (.built address templates)
        (manager.storeTemplates templates, .ready address)
  | begins (address : Option SocketAddress) (hthreads : answers.threads = .ok ()) :
      RunMove manager answers (.ready address) (manager, .begun address)
  | fails (address : Option SocketAddress) (cause : OsError)
      (hthreads : answers.threads = .error cause) :
      RunMove manager answers (.ready address)
        ({ manager with starting := false }, .returned (.error (.spawn cause)))
  | raises (address : Option SocketAddress) :
      RunMove manager answers (.begun address)
        (manager.setEndpoint { manager.endpoint with running := true }, .flagged address)
  | employs (address : Option SocketAddress) (tasks : List Periodic) :
      RunMove manager answers (.flagged address)
        (manager.setEndpoint { manager.endpoint with tasks := tasks }, .tasked address)
  | ends (address : Option SocketAddress) :
      RunMove manager answers (.tasked address)
        ({ manager with started := some ⟨address⟩ }, .returned (.ok ()))
  | rests (result : Except ManagerError Unit) :
      RunMove manager answers (.returned result) (manager, .returned result)

/-- Every step of a start is one of these. -/
theorem runMove (manager : Manager) (answers : Answers) (stage : RunStage) :
    RunMove manager answers stage (manager.runStep answers.bound answers.threads stage) := by
  cases stage with
  | entered =>
      simp only [Manager.runStep]
      split
      case isTrue hstopped => exact .refused hstopped
      case isFalse hopen => exact .admitted (Bool.eq_false_iff.mpr hopen)
  | checked =>
      simp only [Manager.runStep]
      split
      case isTrue hstarting => exact .late hstarting
      case isFalse hfree => exact .claims (Bool.eq_false_iff.mpr hfree)
  | claimed =>
      simp only [Manager.runStep, Manager.afterBind]
      split
      case h_1 address hbound => exact .binds address hbound
      case h_2 cause hbound =>
        split
        case h_1 hpolicy => exact .givesUp cause hbound hpolicy
        case h_2 hpolicy => exact .goesWithout cause hbound hpolicy
  | bound address =>
      simp only [Manager.runStep]
      split
      case h_1 hnone =>
        refine .keepsPort address fun found hfound => ?_
        simpa [hfound] using hnone
      case h_2 other hother =>
        obtain ⟨rfl, hmoved⟩ := Option.filter_eq_some_iff.mp hother
        exact .movesPort other (by simpa using hmoved)
  | announced address => exact .reads address
  | identified address self => exact .builds address self
  | built address templates => exact .stores address templates
  | ready address =>
      simp only [Manager.runStep, Manager.afterStart]
      split
      case h_1 hthreads => exact .begins address hthreads
      case h_2 cause hthreads => exact .fails address cause hthreads
  | begun address => exact .raises address
  | flagged address =>
      have htasks : manager.endpoint.startTasks.1 =
          { manager.endpoint with tasks := manager.endpoint.startTasks.1.tasks } := by
        unfold Endpoint.startTasks
        dsimp only
        split <;> rfl
      simp only [Manager.runStep]
      rw [htasks]
      exact .employs address _
  | tasked address => exact .ends address
  | returned result => exact .rests result

/-- A call of a manager, and how far it has come. -/
inductive Task where
  | register (stage : RegisterStage)
  | run (stage : RunStage)
  | shutdown (stage : ShutdownStage)

namespace Task

/-- The next step of a call. -/
def step (task : Task) (manager : Manager) (answers : Answers) : Manager × Task :=
  match task with
  | .register stage =>
      let (manager, stage) := manager.registerStep stage
      (manager, .register stage)
  | .run stage =>
      let (manager, stage) := manager.runStep answers.bound answers.threads stage
      (manager, .run stage)
  | .shutdown stage =>
      let (manager, stage, _) := manager.shutdownStep stage
      (manager, .shutdown stage)

/-- Whether a call has claimed the start and not yet made it. -/
def isClaiming : Task → Bool
  | .run (.claimed) => true
  | .run (.bound _) => true
  | .run (.announced _) => true
  | .run (.identified _ _) => true
  | .run (.built _ _) => true
  | .run (.ready _) => true
  | _ => false

/-- Whether the next step of a call is the start of queues and threads. -/
def starts (answers : Answers) : Task → Bool
  | .run (.ready _) => answers.threads.isOk
  | _ => false

/-- Whether a call is the one that shuts down, and is not through with it. -/
def isClosing : Task → Bool
  | .shutdown .entered => false
  | .shutdown .returned => false
  | .shutdown _ => true
  | _ => false

/-- Whether the next step of a call ends the shutdown. -/
def finishes : Task → Bool
  | .shutdown .cleared => true
  | _ => false

/-- Whether a call has read the port, and not yet stored the frames that it reads it for. -/
def hasPort : Task → Bool
  | .register (.identified _) => true
  | .register (.built _) => true
  | .run (.identified _ _) => true
  | .run (.built _ _) => true
  | _ => false

/-- Whether a call has also read the versions, so that it stores its frames in its next step. -/
def stores : Task → Bool
  | .register (.built _) => true
  | .run (.built _ _) => true
  | _ => false

/-- Whether a call binds the address in its next step. -/
def binds : Task → Bool
  | .run .claimed => true
  | _ => false

/-- Whether a call is one that registers or starts. -/
def isSetup : Task → Bool
  | .shutdown _ => false
  | _ => true

/-- Whether a call has come to its end. -/
def isOver : Task → Bool
  | .register .returned => true
  | .run (.returned _) => true
  | .shutdown .returned => true
  | _ => false

theorem step_run (manager : Manager) (answers : Answers) (stage : RunStage) :
    ∃ after, RunMove manager answers stage after ∧
      (Task.run stage).step manager answers = (after.1, .run after.2) :=
  ⟨_, runMove manager answers stage, rfl⟩

/-- The flag of the start is up for a call that has claimed it, or once the start is made. -/
theorem step_starting (task : Task) (manager : Manager) (answers : Answers)
    (hclaim : task.isClaiming = true → manager.starting = true) :
    (task.step manager answers).2.isClaiming.toNat + (task.starts answers).toNat +
        manager.starting.toNat =
      task.isClaiming.toNat + (task.step manager answers).1.starting.toNat := by
  cases task with
  | register stage => cases stage <;> rfl
  | shutdown stage =>
      cases stage with
      | entered =>
          simp only [step, Manager.shutdownStep]
          split <;> rfl
      | _ => rfl
  | run stage =>
      obtain ⟨after, hmove, hstep⟩ := step_run manager answers stage
      rw [hstep]
      cases hmove with
      | late hstarting => simp [hstarting, isClaiming, starts]
      | claims hfree => simp [hfree, isClaiming, starts]
      | givesUp cause hbound _ => simp [hclaim rfl, isClaiming, starts]
      | begins address hthreads => simp [hthreads, isClaiming, starts, Except.isOk, Except.toBool]
      | fails address cause hthreads =>
          simp [hthreads, hclaim rfl, isClaiming, starts, Except.isOk, Except.toBool]
      | _ => simp [isClaiming, starts, Manager.setEndpoint, Manager.storeTemplates]

theorem not_finishes_of_idle (task : Task) (hidle : task.isClosing = false) :
    task.finishes = false := by
  unfold finishes
  split
  · cases hidle
  · rfl

theorem run_keeps_stopped (manager : Manager) (answers : Answers) (stage : RunStage) :
    ((Task.run stage).step manager answers).1.stopped = manager.stopped := by
  obtain ⟨after, hmove, hstep⟩ := step_run manager answers stage
  rw [hstep]
  cases hmove <;> rfl

/-- The flag of the shutdown is up for the call that shuts down, and once that is done. -/
theorem step_stopped (task : Task) (manager : Manager) (answers : Answers) :
    (task.step manager answers).2.isClosing.toNat + task.finishes.toNat + manager.stopped.toNat =
      task.isClosing.toNat + (task.step manager answers).1.stopped.toNat := by
  cases task with
  | register stage => cases stage <;> rfl
  | run stage =>
      rw [run_keeps_stopped]
      simp [step, isClosing, finishes]
  | shutdown stage =>
      cases stage with
      | entered =>
          simp only [step, Manager.shutdownStep]
          split
          case isTrue => rfl
          case isFalse hfree => simp [hfree, isClosing, finishes]
      | cleared => simp [step, Manager.shutdownStep, Manager.setEndpoint, isClosing, finishes]
      | _ => rfl

end Task

/-! ## Calls side by side -/

/-- What frames are built from that can change: the port, and the versions that are served. -/
@[ext]
structure View where
  port : UInt16
  versions : Handshake.VersionSet
deriving DecidableEq

/-- What a call would read at present. -/
def Manager.view (manager : Manager) : View where
  port := manager.registry.self.port
  versions := manager.endpoint.handlers.versions

/-- What a call has read for its frames once it has made its next step. -/
def Task.look (view read : View) : Task → View
  | .register .listed => { read with port := view.port }
  | .run (.announced _) => { read with port := view.port }
  | .register (.identified _) => { read with versions := view.versions }
  | .run (.identified _ _) => { read with versions := view.versions }
  | _ => read

/-- A call, what it has read, and whether another one has changed that before it was stored. -/
structure Errand where
  task : Task
  read : View
  overtaken : Bool

namespace Errand

/-- What a call has read is no longer so when another one moves the port or adds versions. -/
def misses (before after : View) (errand : Errand) : Bool :=
  (errand.task.hasPort && before.port != after.port) ||
    (errand.task.stores && before.versions != after.versions)

/-- Another call makes a step. -/
def standBy (before after : View) (errand : Errand) : Errand :=
  { errand with overtaken := errand.overtaken || errand.misses before after }

end Errand

/-- A manager with every call that was made, and what they have done to it. -/
structure Tenure where
  manager : Manager
  errands : List Errand
  /-- What the host gave to the call that bound the address last. -/
  bound : Option SocketAddress
  /-- How often queues and threads have been started. -/
  starts : Nat
  /-- The call that shuts down has returned. -/
  tornDown : Bool
  /-- What the call that stored frames last had read. -/
  shown : View
  /-- The call that stored frames last had been overtaken. -/
  lost : Bool

namespace Tenure

inductive Turn where
  | register (handlers : List Handler)
  | run
  | shutdown
  /-- A call makes its next step. -/
  | advance (index : Nat) (answers : Answers)
  /-- Whatever the rest of the node does. -/
  | elsewhere (other : Endpoint) (mapper : PortMapping.Mapper)

def opening (manager : Manager) : Tenure where
  manager := manager
  errands := []
  bound := none
  starts := 0
  tornDown := false
  shown := manager.view
  lost := false

def begin (tenure : Tenure) (task : Task) : Tenure :=
  { tenure with errands := tenure.errands ++ [⟨task, tenure.manager.view, false⟩] }

def advance (tenure : Tenure) (index : Nat) (errand : Errand) (answers : Answers) : Tenure :=
  let (manager, task) := errand.task.step tenure.manager answers
  { manager := manager
    errands := (tenure.errands.map (·.standBy tenure.manager.view manager.view)).set index
      ⟨task, errand.task.look tenure.manager.view errand.read, errand.overtaken⟩
    bound := if errand.task.binds then answers.bound.toOption else tenure.bound
    starts := tenure.starts + (errand.task.starts answers).toNat
    tornDown := tenure.tornDown || errand.task.finishes
    shown := if errand.task.stores then errand.read else tenure.shown
    lost := if errand.task.stores then errand.overtaken else tenure.lost }

/-- Another endpoint, but with all that the calls are about as it is in this manager. -/
def beside (manager : Manager) (other : Endpoint) (mapper : PortMapping.Mapper) : Manager :=
  { manager with
    mapper := mapper
    endpoint := { other.setRegistry { other.registry with self := manager.registry.self } with
      settings := manager.endpoint.settings
      handlers := manager.endpoint.handlers
      templates := manager.endpoint.templates
      running := manager.endpoint.running } }

def act (tenure : Tenure) : Turn → Tenure
  | .register handlers => tenure.begin (.register (.entered handlers))
  | .run => tenure.begin (.run .entered)
  | .shutdown => tenure.begin (.shutdown .entered)
  | .advance index answers =>
      match tenure.errands[index]? with
      | none => tenure
      | some errand => tenure.advance index errand answers
  | .elsewhere other mapper => { tenure with manager := beside tenure.manager other mapper }

def run (tenure : Tenure) (turns : List Turn) : Tenure :=
  turns.foldl act tenure

def tasks (tenure : Tenure) : List Task :=
  tenure.errands.map (·.task)

variable {tenure : Tenure} {errand : Errand} {answers : Answers} {index : Nat}

theorem run_append (tenure : Tenure) (first second : List Turn) :
    tenure.run (first ++ second) = (tenure.run first).run second :=
  List.foldl_append

/-- What every turn keeps, a run keeps. -/
theorem run_induction {P : Tenure → Prop} (hstart : P tenure)
    (hact : ∀ tenure turn, P tenure → P (tenure.act turn)) (turns : List Turn) :
    P (tenure.run turns) := by
  induction turns generalizing tenure with
  | nil => exact hstart
  | cons turn rest ih => exact ih (hact tenure turn hstart)

/-- What holds of a manager, and after a step of any call at the index, holds after such a turn. -/
theorem act_advance {P : Tenure → Prop} (h : P tenure)
    (hadvance : ∀ errand, tenure.errands[index]? = some errand →
      P (tenure.advance index errand answers)) : P (tenure.act (.advance index answers)) := by
  unfold act
  dsimp only
  split
  · exact h
  · rename_i errand hget
    exact hadvance errand hget

theorem not_mem_tasks_opening (manager : Manager) (task : Task) : task ∉ (opening manager).tasks :=
  List.not_mem_nil

theorem tasks_begin (tenure : Tenure) (task : Task) :
    (tenure.begin task).tasks = tenure.tasks ++ [task] := by
  simp [tasks, begin]

theorem mem_tasks_begin {task other : Task} :
    other ∈ (tenure.begin task).tasks ↔ other ∈ tenure.tasks ∨ other = task := by
  rw [tasks_begin, List.mem_append, List.mem_singleton]

/-- A step of a call leaves the stages of the others as they are. -/
theorem tasks_advance (tenure : Tenure) (index : Nat) (errand : Errand) (answers : Answers) :
    (tenure.advance index errand answers).tasks =
      tenure.tasks.set index (errand.task.step tenure.manager answers).2 := by
  simp only [tasks, advance, List.map_set, List.map_map, Function.comp_def, Errand.standBy]

theorem tasks_getElem? (hget : tenure.errands[index]? = some errand) :
    tenure.tasks[index]? = some errand.task := by
  rw [tasks, List.getElem?_map, hget]
  rfl

theorem mem_tasks (hget : tenure.errands[index]? = some errand) : errand.task ∈ tenure.tasks :=
  List.mem_of_getElem? (tasks_getElem? hget)

theorem mem_tasks_advance {other : Task}
    (hmem : other ∈ (tenure.advance index errand answers).tasks) :
    other ∈ tenure.tasks ∨ other = (errand.task.step tenure.manager answers).2 := by
  rw [tasks_advance] at hmem
  exact List.mem_or_eq_of_mem_set hmem

theorem step_mem_tasks (hget : tenure.errands[index]? = some errand) :
    (errand.task.step tenure.manager answers).2 ∈ (tenure.advance index errand answers).tasks := by
  rw [tasks_advance]
  exact List.mem_set (List.getElem?_eq_some_iff.mp (tasks_getElem? hget)).choose _

/-- The other calls are where they were. -/
theorem eq_or_mem_tasks_advance {other : Task} (hget : tenure.errands[index]? = some errand)
    (hmem : other ∈ tenure.tasks) :
    other = errand.task ∨ other ∈ (tenure.advance index errand answers).tasks := by
  obtain ⟨place, hplace⟩ := List.mem_iff_getElem?.mp hmem
  by_cases hsame : index = place
  · subst hsame
    exact .inl (Option.some.inj (hplace.symm.trans (tasks_getElem? hget)))
  · refine .inr (List.mem_iff_getElem?.mpr ⟨place, ?_⟩)
    rw [tasks_advance, List.getElem?_set_ne hsame, hplace]

theorem countP_set_add {α : Type} {list : List α} {old : α} (test : α → Bool) (new : α)
    (hget : list[index]? = some old) :
    (list.set index new).countP test + (test old).toNat = list.countP test + (test new).toNat := by
  induction list generalizing index with
  | nil => cases hget
  | cons first rest ih =>
      cases index with
      | zero =>
          cases hget
          simp only [List.set_cons_zero, List.countP_cons]
          cases test old <;> cases test new <;> simp
      | succ index =>
          have hget : rest[index]? = some old := hget
          have hrest := ih hget
          simp only [List.set_cons_succ, List.countP_cons]
          omega

/-! ## The two flags -/

/-- The start is claimed by one call or has been made; so it is with the shutdown. -/
structure Accounts (tenure : Tenure) : Prop where
  starting : tenure.tasks.countP Task.isClaiming + tenure.starts = tenure.manager.starting.toNat
  stopped : tenure.tasks.countP Task.isClosing + tenure.tornDown.toNat =
    tenure.manager.stopped.toNat

theorem Accounts.begin (h : Accounts tenure) {task : Task} (hclaim : task.isClaiming = false)
    (hclose : task.isClosing = false) : Accounts (tenure.begin task) where
  starting := by
    rw [tasks_begin, List.countP_append, List.countP_singleton, hclaim]
    exact h.starting
  stopped := by
    rw [tasks_begin, List.countP_append, List.countP_singleton, hclose]
    exact h.stopped

/-- A claim keeps the flag of the start up. -/
theorem Accounts.starting_of_mem (h : Accounts tenure) {task : Task} (hmem : task ∈ tenure.tasks)
    (hclaims : task.isClaiming = true) : tenure.manager.starting = true := by
  have hsome := List.countP_pos_iff.mpr ⟨task, hmem, hclaims⟩
  have hflag := h.starting
  cases hstarting : tenure.manager.starting with
  | true => rfl
  | false =>
      rw [hstarting, Bool.toNat_false] at hflag
      omega

/-- Once the shutdown is done, its flag is up and no call is at it. -/
theorem Accounts.closed (h : Accounts tenure) (htorn : tenure.tornDown = true) :
    tenure.manager.stopped = true ∧ ∀ task ∈ tenure.tasks, task.isClosing = false := by
  have hflag := h.stopped
  have hone := Bool.toNat_le tenure.manager.stopped
  rw [htorn, Bool.toNat_true] at hflag
  refine ⟨Bool.toNat_eq_one.mp (by omega), fun task hmem => Bool.eq_false_iff.mpr fun hcloses => ?_⟩
  have hsome := List.countP_pos_iff.mpr ⟨task, hmem, hcloses⟩
  omega

theorem Accounts.advance (h : Accounts tenure) (hget : tenure.errands[index]? = some errand) :
    Accounts (tenure.advance index errand answers) := by
  have htask := tasks_getElem? hget
  have hmem := mem_tasks hget
  constructor
  · have hstep := errand.task.step_starting tenure.manager answers (h.starting_of_mem hmem)
    have hcount := countP_set_add Task.isClaiming (errand.task.step tenure.manager answers).2 htask
    have hflag := h.starting
    rw [tasks_advance]
    show _ + (tenure.starts + (errand.task.starts answers).toNat) =
      (errand.task.step tenure.manager answers).1.starting.toNat
    omega
  · have hstep := errand.task.step_stopped tenure.manager answers
    have hcount := countP_set_add Task.isClosing (errand.task.step tenure.manager answers).2 htask
    have hflag := h.stopped
    have htorn : (tenure.tornDown || errand.task.finishes).toNat =
        tenure.tornDown.toNat + errand.task.finishes.toNat := by
      cases hdone : tenure.tornDown with
      | false => simp
      | true =>
          have hidle := (h.closed hdone).2 errand.task hmem
          simp [errand.task.not_finishes_of_idle hidle]
    rw [tasks_advance]
    show _ + (tenure.tornDown || errand.task.finishes).toNat =
      (errand.task.step tenure.manager answers).1.stopped.toNat
    omega

theorem Accounts.act (h : Accounts tenure) (turn : Turn) : Accounts (tenure.act turn) := by
  cases turn with
  | register handlers => exact h.begin rfl rfl
  | run => exact h.begin rfl rfl
  | shutdown => exact h.begin rfl rfl
  | elsewhere other mapper => exact ⟨h.starting, h.stopped⟩
  | advance index answers => exact act_advance h fun errand hget => h.advance hget

/-- A manager that has just been made is down, and no call is under way. -/
theorem create_ok {settings : Settings} {fresh : NodeId} {manager : Manager}
    (hmade : Manager.create settings fresh = .ok manager) :
    ∃ id nodes, manager =
      { endpoint := (Endpoint.create settings id HandlerTable.empty).setRegistry
          ((Registry.create (Identity.create id settings.ip settings.port)
            settings.limits).addBootNodes 0 nodes).1
        mapper := PortMapping.Mapper.create settings.upnpEnabled
          (Settings.durationOf settings.upnpIntervalMs)
        starting := false
        stopped := false
        started := none } := by
  unfold Manager.create at hmade
  cases hvalid : settings.validate.mapError ManagerError.settings with
  | error error => rw [hvalid] at hmade; cases hmade
  | ok _ =>
      cases hid : Manager.identify settings fresh with
      | error error => rw [hvalid, hid] at hmade; cases hmade
      | ok id =>
          cases hnodes : Manager.bootNodes settings.bootNodes with
          | error error => rw [hvalid, hid, hnodes] at hmade; cases hmade
          | ok nodes =>
              rw [hvalid, hid, hnodes] at hmade
              cases hmade
              exact ⟨id, nodes, rfl⟩

theorem accounts_opening {manager : Manager} (hstarting : manager.starting = false)
    (hstopped : manager.stopped = false) : Accounts (opening manager) :=
  ⟨by rw [opening, hstarting]; rfl, by rw [opening, hstopped]; rfl⟩

theorem accounts_run {settings : Settings} {fresh : NodeId} {manager : Manager}
    (hmade : Manager.create settings fresh = .ok manager) (turns : List Turn) :
    Accounts ((opening manager).run turns) := by
  obtain ⟨id, nodes, rfl⟩ := create_ok hmade
  exact run_induction (accounts_opening rfl rfl) (fun _ turn h => h.act turn) turns

/-! ## A manager to try -/

/-- A host that agrees to whatever a call asks for, and chooses the port. -/
def agreeing : Answers :=
  ⟨.ok ⟨.v4 0x7f000001, 40404⟩, .ok ()⟩

/-- A manager is made from the default settings, and passes a test. -/
def made (test : Manager → Bool) : Bool :=
  match Manager.create Settings.default (NodeId.random 0 0) with
  | .ok manager => test manager
  | .error _ => false

theorem exists_of_made {test : Manager → Bool} (hmade : made test = true) :
    ∃ manager, Manager.create Settings.default (NodeId.random 0 0) = .ok manager ∧
      test manager = true := by
  unfold made at hmade
  split at hmade
  · rename_i manager hcreate
    exact ⟨manager, hcreate, hmade⟩
  · cases hmade

end Tenure

end Peering
