import Peering.Proofs.Manager.Freshness
import Peering.Proofs.Manager.Housing
import Peering.Proofs.Registry.Moves

/-!
# What a node announces

When no call is under way any more, the request that a node sends has the port and
lists the versions that the call that stored it had read. If no other call had
changed these in between, that is the port that was bound and the versions that were
registered, as far as there is room for them; otherwise what the other call has
announced is lost.
-/

namespace Peering

theorem Registry.addBootNodes_self (registry : Registry) (now : Nat) (nodes : List Node) :
    (registry.addBootNodes now nodes).1.self = registry.self := by
  refine addAll_induction (P := fun after => after.self = registry.self) nodes rfl ?_
  intro before after node hbefore hadd
  obtain ⟨_, _, _, _, _, _, rfl⟩ := addTemp_ok hadd
  exact hbefore

namespace Tenure

variable {tenure : Tenure} {errand : Errand} {answers : Answers} {index : Nat} {task : Task}

/-! ## The versions that were registered -/

/-- A call with handlers for a version begins. -/
def Turn.Brings (version : UInt16) : Turn → Prop
  | .register handlers => version ∈ HandlerTable.brought handlers
  | _ => False

/-- A version is in the table, or a call is about to put it there. -/
def Offers (tenure : Tenure) (version : UInt16) : Prop :=
  version ∈ tenure.manager.endpoint.handlers.versions ∨
    ∃ handlers, .register (.entered handlers) ∈ tenure.tasks ∧
      version ∈ HandlerTable.brought handlers

variable {version : UInt16}

theorem offers_begin :
    Offers (tenure.begin task) version ↔
      Offers tenure version ∨
        ∃ handlers, task = .register (.entered handlers) ∧
          version ∈ HandlerTable.brought handlers := by
  simp only [Offers, tasks_begin, List.mem_append, List.mem_singleton, or_and_right, exists_or,
    or_assoc, eq_comm (a := task)]
  rfl

/-- A call lists its handlers in its first step, and no other step touches the table. -/
theorem step_handlers (answers : Answers) (hsetup : task.isSetup = true) (manager : Manager) :
    (∃ handlers, task = .register (.entered handlers) ∧
        (task.step manager answers).1.endpoint.handlers =
          manager.endpoint.handlers.register handlers ∧
        (task.step manager answers).2 = .register .listed) ∨
      (∀ handlers, task ≠ .register (.entered handlers)) ∧
        (task.step manager answers).1.endpoint.handlers = manager.endpoint.handlers ∧
        ∀ handlers, (task.step manager answers).2 ≠ .register (.entered handlers) := by
  cases task with
  | shutdown stage => cases hsetup
  | register stage =>
      cases stage with
      | entered handlers => exact .inl ⟨handlers, rfl, rfl, rfl⟩
      | _ => exact .inr ⟨nofun, rfl, nofun⟩
  | run stage =>
      obtain ⟨after, hmove, hstep⟩ := Task.step_run manager answers stage
      rw [hstep]
      cases hmove <;> exact .inr ⟨nofun, rfl, nofun⟩

/-- A call puts its versions into the table; until then it is about to. -/
theorem offers_advance (hsetup : errand.task.isSetup = true)
    (hget : tenure.errands[index]? = some errand) :
    Offers (tenure.advance index errand answers) version ↔ Offers tenure version := by
  have hmem := mem_tasks hget
  unfold Offers
  rcases step_handlers answers hsetup tenure.manager with
    ⟨handlers, hlists, htable, hnew⟩ | ⟨hapart, htable, hnew⟩
  · have hversions : (tenure.advance index errand answers).manager.endpoint.handlers.versions =
        (tenure.manager.endpoint.handlers.register handlers).versions :=
      congrArg HandlerTable.versions htable
    rw [hversions, HandlerTable.versions_register, Handshake.VersionSet.mem_foldl_insert]
    rw [hlists] at hmem
    constructor
    · rintro ((hbrings | hold) | ⟨others, hwaits, hbrought⟩)
      · exact .inr ⟨handlers, hmem, hbrings⟩
      · exact .inl hold
      · refine .inr ⟨others, (mem_tasks_advance hwaits).resolve_right ?_, hbrought⟩
        rw [hnew]
        exact nofun
    · rintro (hold | ⟨others, hwaits, hbrought⟩)
      · exact .inl (.inr hold)
      · rcases eq_or_mem_tasks_advance hget hwaits with hsame | hstays
        · cases hsame.trans hlists
          exact .inl (.inl hbrought)
        · exact .inr ⟨others, hstays, hbrought⟩
  · have hversions : (tenure.advance index errand answers).manager.endpoint.handlers.versions =
        tenure.manager.endpoint.handlers.versions := congrArg HandlerTable.versions htable
    rw [hversions]
    refine or_congr_right (exists_congr fun others => and_congr_left fun _ => ?_)
    constructor
    · exact fun hwaits => (mem_tasks_advance hwaits).resolve_right (hnew others).symm
    · exact fun hwaits => (eq_or_mem_tasks_advance hget hwaits).resolve_left (hapart others).symm

theorem offers_act (hsetup : ∀ task ∈ tenure.tasks, task.isSetup = true) (turn : Turn) :
    Offers (tenure.act turn) version ↔ Offers tenure version ∨ turn.Brings version := by
  cases turn with
  | register handlers => simp [act, offers_begin, Turn.Brings]
  | run => simp [act, offers_begin, Turn.Brings]
  | shutdown => simp [act, offers_begin, Turn.Brings]
  | elsewhere other mapper =>
      simp only [Turn.Brings, or_false]
      rfl
  | advance index answers =>
      simp only [Turn.Brings, or_false]
      exact act_advance (P := fun after => Offers after version ↔ Offers tenure version) Iff.rfl
        fun errand hget => offers_advance (hsetup errand.task (mem_tasks hget)) hget

theorem ascending_act (hsetup : ∀ task ∈ tenure.tasks, task.isSetup = true)
    (hascending : tenure.manager.endpoint.handlers.versions.Ascending) (turn : Turn) :
    (tenure.act turn).manager.endpoint.handlers.versions.Ascending := by
  cases turn with
  | advance index answers =>
      refine act_advance (P := fun after => after.manager.endpoint.handlers.versions.Ascending)
        hascending fun errand hget => ?_
      show (errand.task.step tenure.manager answers).1.endpoint.handlers.versions.Ascending
      rcases step_handlers answers (hsetup errand.task (mem_tasks hget)) tenure.manager with
        ⟨handlers, _, htable, _⟩ | ⟨_, htable, _⟩
      · rw [htable, HandlerTable.versions_register]
        exact hascending.foldl_insert _
      · rw [htable]
        exact hascending
  | _ => exact hascending

/-! ## The versions that were read -/

theorem mem_versions_step (answers : Answers) {manager : Manager} (hsetup : task.isSetup = true)
    (hmem : version ∈ manager.endpoint.handlers.versions) :
    version ∈ (task.step manager answers).1.endpoint.handlers.versions := by
  rcases step_handlers answers hsetup manager with ⟨handlers, _, htable, _⟩ | ⟨_, htable, _⟩
  · rw [htable, HandlerTable.versions_register, Handshake.VersionSet.mem_foldl_insert]
    exact .inr hmem
  · rw [htable]
    exact hmem

/-- A version that a call has read, or that is shown, is in the table. -/
structure Informed (tenure : Tenure) : Prop where
  read : ∀ errand ∈ tenure.errands, ∀ version ∈ errand.read.versions,
    version ∈ tenure.manager.endpoint.handlers.versions
  shown : ∀ version ∈ tenure.shown.versions,
    version ∈ tenure.manager.endpoint.handlers.versions

theorem Informed.begin (h : Informed tenure) (task : Task) : Informed (tenure.begin task) where
  read := fun errand hmem => by
    rcases List.mem_append.mp hmem with hold | hnew
    · exact h.read errand hold
    · rw [List.mem_singleton.mp hnew]
      exact fun _ => id
  shown := h.shown

theorem versions_look {view read : View} {known : List UInt16}
    (hview : ∀ version ∈ view.versions, version ∈ known)
    (hread : ∀ version ∈ read.versions, version ∈ known) (task : Task) :
    ∀ version ∈ (task.look view read).versions, version ∈ known := by
  unfold Task.look
  split
  · exact hread
  · exact hread
  · exact hview
  · exact hview
  · exact hread

theorem Informed.advance (h : Informed tenure) (hsetup : errand.task.isSetup = true)
    (hget : tenure.errands[index]? = some errand) :
    Informed (tenure.advance index errand answers) := by
  have hkeeps : ∀ version ∈ tenure.manager.endpoint.handlers.versions,
      version ∈ (tenure.advance index errand answers).manager.endpoint.handlers.versions :=
    fun version => mem_versions_step answers hsetup
  have hread := h.read errand (List.mem_of_getElem? hget)
  refine ⟨fun other hother version hmem => ?_, fun version hmem => hkeeps version ?_⟩
  · rcases mem_errands_advance hother with ⟨before, hbefore, rfl⟩ | rfl
    · exact hkeeps version (h.read before hbefore version hmem)
    · exact hkeeps version (versions_look (fun _ => id) hread errand.task version hmem)
  · rcases hstores : errand.task.stores with _ | _
    · rw [Tenure.advance, hstores] at hmem
      exact h.shown version hmem
    · rw [Tenure.advance, hstores] at hmem
      exact hread version hmem

theorem Informed.act (h : Informed tenure) (hsetup : ∀ task ∈ tenure.tasks, task.isSetup = true)
    (turn : Turn) : Informed (tenure.act turn) := by
  cases turn with
  | register handlers => exact h.begin _
  | run => exact h.begin _
  | shutdown => exact h.begin _
  | elsewhere other mapper => exact ⟨h.read, h.shown⟩
  | advance index answers =>
      exact act_advance h fun errand hget => h.advance (hsetup errand.task (mem_tasks hget)) hget

/-! ## Runs -/

/-- What holds of a manager while calls register and start. -/
structure Announcing (tenure : Tenure) : Prop where
  accounts : Accounts tenure
  upToDate : UpToDate tenure
  housed : Housed tenure
  informed : Informed tenure
  ascending : tenure.manager.endpoint.handlers.versions.Ascending

theorem Announcing.act (h : Announcing tenure) {turn : Turn} (hturn : turn ≠ .shutdown) :
    Announcing (tenure.act turn) where
  accounts := h.accounts.act turn
  upToDate := h.upToDate.act hturn
  housed := h.housed.act h.accounts h.upToDate.setup turn
  informed := h.informed.act h.upToDate.setup turn
  ascending := ascending_act h.upToDate.setup h.ascending turn

theorem Announcing.run (h : Announcing tenure) {turns : List Turn} (hturns : .shutdown ∉ turns) :
    Announcing (tenure.run turns) ∧
      ∀ version, Offers (tenure.run turns) version ↔
        Offers tenure version ∨ ∃ turn ∈ turns, turn.Brings version := by
  induction turns generalizing tenure with
  | nil => exact ⟨h, fun version => by simp [Tenure.run]⟩
  | cons turn rest ih =>
      obtain ⟨hturn, hrest⟩ := List.ne_and_not_mem_of_not_mem_cons hturns
      obtain ⟨hafter, hoffers⟩ := ih (h.act hturn.symm) hrest
      refine ⟨hafter, fun version => (hoffers version).trans ?_⟩
      simp only [offers_act h.upToDate.setup, or_assoc, List.mem_cons, or_and_right, exists_or,
        exists_eq_left]

/-- A manager that has just been made serves no version, and announces what it is. -/
theorem create_announces {settings : Settings} {fresh : NodeId} {manager : Manager}
    (hmade : Manager.create settings fresh = .ok manager) :
    manager.started = none ∧ manager.endpoint.handlers.versions = [] ∧
      manager.endpoint.templates = manager.current := by
  obtain ⟨id, nodes, rfl⟩ := create_ok hmade
  refine ⟨rfl, rfl, ?_⟩
  show Endpoint.buildTemplates settings (Identity.create id settings.ip settings.port) [] =
    Endpoint.buildTemplates settings
      ((Registry.create (Identity.create id settings.ip settings.port)
        settings.limits).addBootNodes 0 nodes).1.self []
  rw [Registry.addBootNodes_self]
  rfl

theorem announcing_opening {settings : Settings} {fresh : NodeId} {manager : Manager}
    (hmade : Manager.create settings fresh = .ok manager) :
    Announcing (opening manager) ∧ ∀ version, ¬ Offers (opening manager) version := by
  obtain ⟨hstarted, hversions, hcurrent⟩ := create_announces hmade
  have hascending : manager.endpoint.handlers.versions.Ascending := by
    rw [hversions]
    exact List.Pairwise.nil
  have hinformed : Informed (opening manager) :=
    ⟨fun _ hmem => absurd hmem List.not_mem_nil, fun _ => id⟩
  refine ⟨⟨accounts_run hmade [], upToDate_opening hcurrent, housed_opening hstarted, hinformed,
    hascending⟩, fun version hoffered => ?_⟩
  rcases hoffered with hlisted | ⟨_, hwaits, _⟩
  · have hlisted : version ∈ manager.endpoint.handlers.versions := hlisted
    rw [hversions] at hlisted
    cases hlisted
  · exact not_mem_tasks_opening manager _ hwaits

/-! ## When every call has returned -/

/-- Nothing is left to be stored, so the latest is shown unless the last call was overtaken. -/
theorem Announcing.latest (h : Announcing tenure)
    (hover : ∀ task ∈ tenure.tasks, task.isOver = true) (hkept : tenure.lost = false) :
    tenure.shown = tenure.manager.view := by
  rcases h.upToDate.latest with hlatest | hlost | ⟨task, hmem, hpending⟩
  · exact hlatest
  · cases hkept.symm.trans hlost
  · cases (Task.not_isRebuilding_of_isOver (hover task hmem)).symm.trans hpending

/-- The frames are the current ones just when they show the present port and versions. -/
theorem Announcing.templates_eq_current_iff (h : Announcing tenure) :
    tenure.manager.endpoint.templates = tenure.manager.current ↔
      tenure.shown.port = tenure.manager.registry.self.port ∧
        tenure.shown.versions.announced =
          tenure.manager.endpoint.handlers.versions.announced := by
  rw [h.upToDate.frames, ← Manager.framesFor_view, Manager.framesFor_eq_iff]
  rfl

theorem Announcing.port (h : Announcing tenure)
    (hover : ∀ task ∈ tenure.tasks, task.isOver = true) {found : SocketAddress}
    (hfound : tenure.bound = some found ∨ tenure.manager.address = some found) :
    tenure.manager.registry.self.port = found.port := by
  have hbound : tenure.bound = some found := by
    refine hfound.elim id fun haddress => ?_
    obtain ⟨started, hstarted, haddress⟩ := Option.bind_eq_some_iff.mp haddress
    exact (h.housed.started started hstarted).symm.trans haddress
  refine (h.housed.port found hbound).resolve_right fun hwaits => ?_
  cases hover _ hwaits

theorem offers_of_isOver (hover : ∀ task ∈ tenure.tasks, task.isOver = true) :
    Offers tenure version ↔ version ∈ tenure.manager.endpoint.handlers.versions := by
  refine ⟨fun hoffered => hoffered.resolve_right ?_, .inl⟩
  rintro ⟨handlers, hwaits, _⟩
  cases hover _ hwaits

/--
When every call has returned, the frames are those for the port and the versions that
the call that stored last had read. They are current just when a request does not tell
these from the present ones, so in particular if no other call had moved the port after
it was read there, or added versions after they were, before the frames were stored.
Then the request has the port that was bound, and of the versions that were registered
it lists the smallest, all of them if there are not too many.
-/
theorem run_announces {settings : Settings} {fresh : NodeId} {manager : Manager}
    (hmade : Manager.create settings fresh = .ok manager) {turns : List Turn}
    (hturns : Turn.shutdown ∉ turns)
    (hover : ∀ task ∈ ((opening manager).run turns).tasks, task.isOver = true) :
    let tenure := (opening manager).run turns
    let versions := tenure.manager.endpoint.handlers.versions
    tenure.manager.endpoint.templates = tenure.manager.framesFor tenure.shown ∧
      (tenure.manager.endpoint.templates = tenure.manager.current ↔
        tenure.shown.port = tenure.manager.registry.self.port ∧
          tenure.shown.versions.announced = versions.announced) ∧
      (tenure.lost = false → tenure.manager.endpoint.templates = tenure.manager.current) ∧
      ∃ request, Handshake.Request.decode tenure.manager.endpoint.templates.request.payload =
          .ok request ∧
        request.id = tenure.manager.id ∧
        request.port = tenure.shown.port ∧
        request.versions = tenure.shown.versions.announced ∧
        (∀ version ∈ request.versions, ∃ turn ∈ turns, turn.Brings version) ∧
        (tenure.manager.endpoint.templates = tenure.manager.current →
          (∀ found, tenure.bound = some found ∨ tenure.manager.address = some found →
            request.port = found.port) ∧
          (∀ version, version ∈ request.versions ↔
            (∃ turn ∈ turns, turn.Brings version) ∧
              (versions.filter (· < version)).length < Handshake.maxVersions) ∧
          (versions.length ≤ Handshake.maxVersions →
            ∀ version, version ∈ request.versions ↔ ∃ turn ∈ turns, turn.Brings version)) := by
  obtain ⟨hopening, hnone⟩ := announcing_opening hmade
  obtain ⟨h, hoffers⟩ := hopening.run hturns
  intro tenure versions
  have hlisted : ∀ version, version ∈ versions ↔ ∃ turn ∈ turns, turn.Brings version := by
    intro version
    have hall := hoffers version
    rwa [or_iff_right (hnone version), offers_of_isOver hover] at hall
  have hcurrent := h.templates_eq_current_iff
  refine ⟨h.upToDate.frames, hcurrent, fun hkept => ?_, tenure.manager.requestFor tenure.shown,
    ?_, rfl, rfl, rfl, fun version hmem => ?_, fun hframes => ?_⟩
  · rw [h.upToDate.frames, h.latest hover hkept, Manager.framesFor_view]
  · rw [h.upToDate.frames]
    exact tenure.manager.decode_framesFor tenure.shown
  · exact (hlisted version).mp (h.informed.shown version (List.mem_of_mem_take hmem))
  · obtain ⟨hport, hversions⟩ := hcurrent.mp hframes
    have hrequest : (tenure.manager.requestFor tenure.shown).versions = versions.announced :=
      hversions
    rw [hrequest]
    refine ⟨fun found hfound => hport.trans (h.port hover hfound), fun version => ?_,
      fun hfew version => ?_⟩
    · rw [← hlisted]
      exact h.ascending.mem_take_iff Handshake.maxVersions
    · rw [← hlisted, Handshake.VersionSet.announced_eq_self hfew]

/-- A handler for a version. -/
def handlerFor (version : UInt16) : Handler where
  tag := 1
  version := version
  route := ⟨1, 1⟩
  receive := fun _ => .ok
  shutDown := .ok

/-- A call registers a version while another starts the network, on a port of the host's choice. -/
def interwoven : List Turn :=
  .register [handlerFor 7] :: .run ::
    [0, 1, 1, 1, 1, 0, 1, 0, 1, 0, 1, 1, 1, 1, 1, 1].map (.advance · agreeing)

/-- Both the version and the port are in the request. -/
theorem run_announces_of_interwoven :
    ∃ manager, Manager.create Settings.default (NodeId.random 0 0) = .ok manager ∧
      ∃ request, Handshake.Request.decode
          ((opening manager).run interwoven).manager.endpoint.templates.request.payload =
            .ok request ∧
        request.port = 40404 ∧ ∀ version, version ∈ request.versions ↔ version = 7 := by
  have hmade : made (fun manager =>
      let later := (opening manager).run interwoven
      later.tasks.all Task.isOver && !later.lost &&
        decide (later.bound = some ⟨.v4 0x7f000001, 40404⟩) &&
        decide (later.manager.endpoint.handlers.versions.length ≤ Handshake.maxVersions)) =
          true := by
    decide +kernel
  obtain ⟨manager, hcreate, htest⟩ := exists_of_made hmade
  simp only [Bool.and_eq_true, decide_eq_true_eq, Bool.not_eq_true', List.all_eq_true] at htest
  obtain ⟨⟨⟨hover, hkept⟩, hbound⟩, hfew⟩ := htest
  have hturns : Turn.shutdown ∉ interwoven := by simp [interwoven]
  obtain ⟨_, _, hcurrent, request, hdecode, _, _, _, _, hlatest⟩ :=
    run_announces hcreate hturns hover
  obtain ⟨hport, _, hlisted⟩ := hlatest (hcurrent hkept)
  refine ⟨manager, hcreate, request, hdecode, hport _ (.inl hbound), fun version => ?_⟩
  have hbrought : HandlerTable.brought [handlerFor 7] = [7] := rfl
  rw [hlisted hfew]
  simp [interwoven, Turn.Brings, hbrought]

/-- The request that is kept, if it can be read, lists a version. -/
def lists (tenure : Tenure) (version : UInt16) : Bool :=
  match Handshake.Request.decode tenure.manager.endpoint.templates.request.payload with
  | .ok request => request.versions.contains version
  | .error _ => false

/-- A call builds its frames, another one registers more versions, and the first one stores. -/
def overtaken : List Turn :=
  .register [handlerFor 7] :: .register [handlerFor 8] ::
    [0, 0, 0, 1, 1, 1, 1, 0].map (.advance · agreeing)

/-- What the second call has announced is lost when the first one stores. -/
theorem overtaken_store_hides_version :
    ∃ manager, Manager.create Settings.default (NodeId.random 0 0) = .ok manager ∧
      let tenure := (opening manager).run overtaken
      (∀ task ∈ tenure.tasks, task.isOver = true) ∧ tenure.lost = true ∧
        8 ∈ tenure.manager.endpoint.handlers.versions ∧
        lists tenure 7 = true ∧ lists tenure 8 = false := by
  have hmade : made (fun manager =>
      let later := (opening manager).run overtaken
      later.tasks.all Task.isOver && later.lost &&
        decide (8 ∈ later.manager.endpoint.handlers.versions) &&
        lists later 7 && !lists later 8) = true := by
    decide +kernel
  obtain ⟨manager, hcreate, htest⟩ := exists_of_made hmade
  simp only [Bool.and_eq_true, decide_eq_true_eq, Bool.not_eq_true', List.all_eq_true] at htest
  obtain ⟨⟨⟨⟨hover, hlost⟩, hlisted⟩, hfirst⟩, hlast⟩ := htest
  exact ⟨manager, hcreate, hover, hlost, hlisted, hfirst, hlast⟩

end Tenure

end Peering
