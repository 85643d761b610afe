import Peering.Proofs.Handshake.Negotiation
import Peering.Proofs.Manager.Tenure

/-!
# What the frames show

Frames are built from the port and the versions, and a call that changes one of these
builds new frames afterwards. But it reads, builds and stores in separate steps: if
another call changes in between what it has read, what it stores is out of date, and
what the other call has stored is lost. So the frames always show what the call that
stored last had read; once nothing more is to be stored, that is the present port
and the present versions, unless this call had been overtaken.
-/

namespace Peering

namespace Manager

variable {manager other : Manager} {view : View}

/-- The identity of a manager, with another port. -/
def identityOn (manager : Manager) (port : UInt16) : Identity :=
  { manager.registry.self with port := port }

/-- The frames for a port and versions. -/
def framesFor (manager : Manager) (view : View) : Handshake.Templates :=
  manager.buildTemplates (manager.identityOn view.port) view.versions

/-- The frames for what the manager is at present. -/
def current (manager : Manager) : Handshake.Templates :=
  manager.buildTemplates manager.registry.self manager.endpoint.handlers.versions

/-- The request that is in the frames for a port and versions, as it is read. -/
def requestFor (manager : Manager) (view : View) : Handshake.Request :=
  (Endpoint.profile manager.settings (manager.identityOn view.port) view.versions).request.cut

theorem framesFor_view (manager : Manager) : manager.framesFor manager.view = manager.current :=
  rfl

theorem decode_framesFor (manager : Manager) (view : View) :
    Handshake.Request.decode (manager.framesFor view).request.payload =
      .ok (manager.requestFor view) :=
  Handshake.Profile.decode_build_request _

/-- Frames differ just when their requests say different things. -/
theorem framesFor_eq_iff {first second : View} :
    manager.framesFor first = manager.framesFor second ↔
      first.port = second.port ∧ first.versions.announced = second.versions.announced := by
  constructor
  · intro hframes
    have hrequest := manager.decode_framesFor first
    rw [hframes, decode_framesFor] at hrequest
    have hsame : manager.requestFor second = manager.requestFor first := Except.ok.inj hrequest
    exact ⟨congrArg Handshake.Request.port hsame.symm,
      congrArg Handshake.Request.versions hsame.symm⟩
  · rintro ⟨hport, hversions⟩
    simp only [Handshake.VersionSet.announced] at hversions
    simp only [framesFor, buildTemplates, Endpoint.buildTemplates, Handshake.Templates.build,
      Handshake.Profile.request, Endpoint.profile, Handshake.Request.toFrame,
      Handshake.Request.encode, hport, hversions]

/-- Two managers that build the same frames from the same port and the same versions. -/
structure Alike (manager other : Manager) : Prop where
  settings : other.settings = manager.settings
  identity : other.identityOn = manager.identityOn

theorem Alike.framesFor (h : Alike manager other) : other.framesFor = manager.framesFor := by
  funext view
  simp only [Manager.framesFor, buildTemplates, h.settings, h.identity]

end Manager

open Manager (Alike)

namespace Task

variable {manager other : Manager} {task : Task} {view read : View}

/-- Whether a call is yet to store frames. -/
def isRebuilding : Task → Bool
  | .register .listed => true
  | .register (.identified _) => true
  | .register (.built _) => true
  | .run (.announced _) => true
  | .run (.identified _ _) => true
  | .run (.built _ _) => true
  | _ => false

/-- What a call has in hand comes from what it has read. -/
def Bears (manager : Manager) (read : View) : Task → Prop
  | .register (.identified self) => self = manager.identityOn read.port
  | .register (.built templates) => templates = manager.framesFor read
  | .run (.identified _ self) => self = manager.identityOn read.port
  | .run (.built _ templates) => templates = manager.framesFor read
  | _ => True

/-- What a call has read, as far as it has, is what it would read now. -/
structure IsFresh (view read : View) (task : Task) : Prop where
  port : task.hasPort = true → read.port = view.port
  versions : task.stores = true → read.versions = view.versions

/-! ## Steps -/

theorem step_alike (answers : Answers) (hsetup : task.isSetup = true) :
    Alike manager (task.step manager answers).1 := by
  cases task with
  | shutdown stage => cases hsetup
  | register stage => cases stage <;> exact ⟨rfl, rfl⟩
  | run stage =>
      obtain ⟨after, hmove, hstep⟩ := step_run manager answers stage
      rw [hstep]
      cases hmove <;> exact ⟨rfl, rfl⟩

/-- A step that changes what frames are built from has new frames follow it. -/
theorem step_view (answers : Answers) (hsetup : task.isSetup = true) :
    (task.step manager answers).1.view = manager.view ∨
      (task.step manager answers).2.isRebuilding = true := by
  cases task with
  | shutdown stage => cases hsetup
  | register stage =>
      cases stage with
      | entered handlers => exact .inr rfl
      | _ => exact .inl rfl
  | run stage =>
      obtain ⟨after, hmove, hstep⟩ := step_run manager answers stage
      rw [hstep]
      cases hmove with
      | movesPort found hother => exact .inr rfl
      | _ => exact .inl rfl

theorem step_templates (answers : Answers) (hsetup : task.isSetup = true)
    (hkeeps : task.stores = false) :
    (task.step manager answers).1.endpoint.templates = manager.endpoint.templates := by
  cases task with
  | shutdown stage => cases hsetup
  | register stage =>
      cases stage with
      | built templates => cases hkeeps
      | _ => rfl
  | run stage =>
      obtain ⟨after, hmove, hstep⟩ := step_run manager answers stage
      rw [hstep]
      cases hmove with
      | stores address templates => cases hkeeps
      | _ => rfl

/-- A call stores the frames for what it has read, and changes nothing else. -/
theorem step_stores (answers : Answers) (hstores : task.stores = true)
    (hbears : task.Bears manager read) :
    (task.step manager answers).1.endpoint.templates = manager.framesFor read ∧
      (task.step manager answers).1.view = manager.view := by
  cases task with
  | shutdown stage => cases hstores
  | register stage =>
      cases stage with
      | built templates => exact ⟨hbears, rfl⟩
      | _ => cases hstores
  | run stage =>
      cases stage with
      | built address templates => exact ⟨hbears, rfl⟩
      | _ => cases hstores

theorem hasPort_of_stores (hstores : task.stores = true) : task.hasPort = true := by
  unfold stores at hstores
  split at hstores
  · rfl
  · rfl
  · cases hstores

theorem step_isSetup (answers : Answers) (hsetup : task.isSetup = true) :
    (task.step manager answers).2.isSetup = true := by
  cases task with
  | shutdown stage => cases hsetup
  | _ => rfl

theorem step_bears (answers : Answers) (hbears : task.Bears manager read) :
    (task.step manager answers).2.Bears (task.step manager answers).1
      (task.look manager.view read) := by
  cases task with
  | shutdown stage => trivial
  | register stage =>
      cases stage with
      | listed => rfl
      | identified self =>
          rw [show self = manager.identityOn read.port from hbears]
          rfl
      | _ => trivial
  | run stage =>
      obtain ⟨after, hmove, hstep⟩ := step_run manager answers stage
      rw [hstep]
      cases hmove with
      | builds address self =>
          rw [show self = manager.identityOn read.port from hbears]
          rfl
      | reads address => rfl
      | _ => trivial

/-- What a call reads is fresh when it has read it. -/
theorem step_isFresh (answers : Answers) (hfresh : task.IsFresh manager.view read) :
    (task.step manager answers).2.IsFresh (task.step manager answers).1.view
      (task.look manager.view read) := by
  cases task with
  | shutdown stage => exact ⟨nofun, nofun⟩
  | register stage =>
      cases stage with
      | listed => exact ⟨fun _ => rfl, nofun⟩
      | identified self => exact ⟨fun _ => hfresh.port rfl, fun _ => rfl⟩
      | _ => exact ⟨nofun, nofun⟩
  | run stage =>
      obtain ⟨after, hmove, hstep⟩ := step_run manager answers stage
      rw [hstep]
      cases hmove with
      | builds address self => exact ⟨fun _ => hfresh.port rfl, fun _ => rfl⟩
      | reads address => exact ⟨fun _ => rfl, nofun⟩
      | _ => exact ⟨nofun, nofun⟩

theorem Bears.congr (hbears : task.Bears manager read) (halike : Alike manager other) :
    task.Bears other read := by
  unfold Bears
  rw [halike.identity, halike.framesFor]
  exact hbears

/-- A call that is yet to store is so until it has stored. -/
theorem step_isRebuilding (answers : Answers) (hstores : task.stores = false)
    (hpending : task.isRebuilding = true) :
    (task.step manager answers).2.isRebuilding = true := by
  cases task with
  | shutdown stage => cases hpending
  | register stage =>
      cases stage with
      | built templates => cases hstores
      | returned => cases hpending
      | _ => rfl
  | run stage =>
      obtain ⟨after, hmove, hstep⟩ := step_run manager answers stage
      rw [hstep]
      cases hmove with
      | reads address => rfl
      | builds address self => rfl
      | stores address templates => cases hstores
      | _ => cases hpending

theorem not_isRebuilding_of_isOver (hover : task.isOver = true) :
    task.isRebuilding = false := by
  unfold Task.isOver at hover
  split at hover
  · rfl
  · rfl
  · rfl
  · cases hover

end Task

/-- A call that has not been overtaken has read nothing that another one has changed. -/
theorem Errand.isFresh_standBy (errand : Errand) {before after : View}
    (hfresh : errand.overtaken = false → errand.task.IsFresh before errand.read)
    (hintime : (errand.standBy before after).overtaken = false) :
    errand.task.IsFresh after errand.read := by
  obtain ⟨hbefore, hmisses⟩ := Bool.or_eq_false_iff.mp hintime
  obtain ⟨hport, hversions⟩ := Bool.or_eq_false_iff.mp hmisses
  constructor
  · intro hholds
    rw [hholds, Bool.true_and, bne_eq_false_iff_eq] at hport
    exact ((hfresh hbefore).port hholds).trans hport
  · intro hholds
    rw [hholds, Bool.true_and, bne_eq_false_iff_eq] at hversions
    exact ((hfresh hbefore).versions hholds).trans hversions

namespace Tenure

variable {tenure : Tenure} {errand : Errand} {answers : Answers} {index : Nat} {task : Task}

/-! ## Calls that register and start -/

/--
The frames show what the call that stored last had read. That is what the manager is
now, unless frames are yet to be stored, or this call had been overtaken.
-/
structure UpToDate (tenure : Tenure) : Prop where
  setup : ∀ task ∈ tenure.tasks, task.isSetup = true
  inHand : ∀ errand ∈ tenure.errands, errand.task.Bears tenure.manager errand.read
  inTime : ∀ errand ∈ tenure.errands, errand.overtaken = false →
    errand.task.IsFresh tenure.manager.view errand.read
  frames : tenure.manager.endpoint.templates = tenure.manager.framesFor tenure.shown
  latest : tenure.shown = tenure.manager.view ∨ tenure.lost = true ∨
    ∃ task ∈ tenure.tasks, task.isRebuilding = true

theorem upToDate_opening {manager : Manager}
    (hcurrent : manager.endpoint.templates = manager.current) : UpToDate (opening manager) where
  setup := fun task hmem => absurd hmem (not_mem_tasks_opening manager task)
  inHand := fun _ hmem => absurd hmem List.not_mem_nil
  inTime := fun _ hmem => absurd hmem List.not_mem_nil
  frames := hcurrent
  latest := .inl rfl

theorem UpToDate.begin (h : UpToDate tenure) (hsetup : task.isSetup = true)
    (hbears : task.Bears tenure.manager tenure.manager.view) : UpToDate (tenure.begin task) where
  setup := fun other hmem => by
    rcases mem_tasks_begin.mp hmem with hold | rfl
    · exact h.setup other hold
    · exact hsetup
  inHand := fun other hmem => by
    rcases List.mem_append.mp hmem with hold | hnew
    · exact h.inHand other hold
    · rw [List.mem_singleton.mp hnew]
      exact hbears
  inTime := fun other hmem hintime => by
    rcases List.mem_append.mp hmem with hold | hnew
    · exact h.inTime other hold hintime
    · rw [List.mem_singleton.mp hnew]
      exact ⟨fun _ => rfl, fun _ => rfl⟩
  frames := h.frames
  latest := by
    refine h.latest.imp id (Or.imp id fun ⟨other, hmem, hpending⟩ => ⟨other, ?_, hpending⟩)
    exact mem_tasks_begin.mpr (.inl hmem)

/-- After a step of one call, the others stand by, and this one has gone on. -/
theorem mem_errands_advance {other : Errand}
    (hmem : other ∈ (tenure.advance index errand answers).errands) :
    (∃ before ∈ tenure.errands,
        other = before.standBy tenure.manager.view
          (tenure.advance index errand answers).manager.view) ∨
      other = ⟨(errand.task.step tenure.manager answers).2,
        errand.task.look tenure.manager.view errand.read, errand.overtaken⟩ := by
  rcases List.mem_or_eq_of_mem_set hmem with hold | rfl
  · obtain ⟨before, hbefore, rfl⟩ := List.mem_map.mp hold
    exact .inl ⟨before, hbefore, rfl⟩
  · exact .inr rfl

theorem UpToDate.inHand_advance (h : UpToDate tenure)
    (hget : tenure.errands[index]? = some errand) :
    ∀ other ∈ (tenure.advance index errand answers).errands,
      other.task.Bears (tenure.advance index errand answers).manager other.read := by
  intro other hother
  have halike : Alike tenure.manager (tenure.advance index errand answers).manager :=
    Task.step_alike answers (h.setup errand.task (mem_tasks hget))
  rcases mem_errands_advance hother with ⟨before, hbefore, rfl⟩ | rfl
  · exact (h.inHand before hbefore).congr halike
  · exact Task.step_bears answers (h.inHand errand (List.mem_of_getElem? hget))

/-- Whoever changes what others have read overtakes them. -/
theorem UpToDate.inTime_advance (h : UpToDate tenure)
    (hget : tenure.errands[index]? = some errand) :
    ∀ other ∈ (tenure.advance index errand answers).errands, other.overtaken = false →
      other.task.IsFresh (tenure.advance index errand answers).manager.view other.read := by
  intro other hother hintime
  rcases mem_errands_advance hother with ⟨before, hbefore, rfl⟩ | rfl
  · exact before.isFresh_standBy (h.inTime before hbefore) hintime
  · exact Task.step_isFresh answers (h.inTime errand (List.mem_of_getElem? hget) hintime)

theorem UpToDate.frames_advance (h : UpToDate tenure)
    (hget : tenure.errands[index]? = some errand) :
    (tenure.advance index errand answers).manager.endpoint.templates =
      tenure.manager.framesFor (tenure.advance index errand answers).shown := by
  cases hstores : errand.task.stores with
  | true =>
      have hshown : (tenure.advance index errand answers).shown = errand.read := if_pos hstores
      rw [hshown]
      exact (Task.step_stores answers hstores (h.inHand errand (List.mem_of_getElem? hget))).1
  | false =>
      have hshown : (tenure.advance index errand answers).shown = tenure.shown :=
        if_neg (Bool.eq_false_iff.mp hstores)
      rw [hshown, ← h.frames]
      exact Task.step_templates answers (h.setup errand.task (mem_tasks hget)) hstores

/-- A call that stores shows the latest, unless it has been overtaken. -/
theorem UpToDate.latest_of_stores (h : UpToDate tenure)
    (hget : tenure.errands[index]? = some errand) (hstores : errand.task.stores = true) :
    (tenure.advance index errand answers).shown =
        (tenure.advance index errand answers).manager.view ∨
      (tenure.advance index errand answers).lost = true := by
  have hmem := List.mem_of_getElem? hget
  have hshown : (tenure.advance index errand answers).shown = errand.read := if_pos hstores
  have hlost : (tenure.advance index errand answers).lost = errand.overtaken := if_pos hstores
  have hview : (tenure.advance index errand answers).manager.view = tenure.manager.view :=
    (Task.step_stores answers hstores (h.inHand errand hmem)).2
  rw [hshown, hlost, hview]
  cases hovertaken : errand.overtaken with
  | true => exact .inr rfl
  | false =>
      obtain ⟨hport, hversions⟩ := h.inTime errand hmem hovertaken
      exact .inl (View.ext (hport (Task.hasPort_of_stores hstores)) (hversions hstores))

/-- Any other step leaves what is shown, or it is made by a call that is yet to store. -/
theorem UpToDate.latest_of_keeps (h : UpToDate tenure)
    (hget : tenure.errands[index]? = some errand) (hstores : errand.task.stores = false) :
    (tenure.advance index errand answers).shown =
        (tenure.advance index errand answers).manager.view ∨
      (tenure.advance index errand answers).lost = true ∨
      ∃ task ∈ (tenure.advance index errand answers).tasks, task.isRebuilding = true := by
  have hkeeps := Bool.eq_false_iff.mp hstores
  have hshown : (tenure.advance index errand answers).shown = tenure.shown := if_neg hkeeps
  have hlost : (tenure.advance index errand answers).lost = tenure.lost := if_neg hkeeps
  rw [hshown, hlost]
  rcases Task.step_view answers (h.setup errand.task (mem_tasks hget)) with hview | hpending
  · rcases h.latest with hlatest | hlost | ⟨other, hother, hpending⟩
    · exact .inl (hlatest.trans hview.symm)
    · exact .inr (.inl hlost)
    · rcases eq_or_mem_tasks_advance hget hother with rfl | hstays
      · exact .inr (.inr ⟨_, step_mem_tasks hget,
          Task.step_isRebuilding answers hstores hpending⟩)
      · exact .inr (.inr ⟨other, hstays, hpending⟩)
  · exact .inr (.inr ⟨_, step_mem_tasks hget, hpending⟩)

theorem UpToDate.advance (h : UpToDate tenure) (hget : tenure.errands[index]? = some errand) :
    UpToDate (tenure.advance index errand answers) := by
  have hsetup := h.setup errand.task (mem_tasks hget)
  refine ⟨fun other hother => ?_, h.inHand_advance hget, h.inTime_advance hget, ?_, ?_⟩
  · rcases mem_tasks_advance hother with hold | rfl
    · exact h.setup other hold
    · exact Task.step_isSetup answers hsetup
  · have halike : Alike tenure.manager (tenure.advance index errand answers).manager :=
      Task.step_alike answers hsetup
    rw [halike.framesFor]
    exact h.frames_advance hget
  · cases hstores : errand.task.stores with
    | true => exact (h.latest_of_stores hget hstores).imp id .inl
    | false => exact h.latest_of_keeps hget hstores

theorem UpToDate.act (h : UpToDate tenure) {turn : Turn} (hturn : turn ≠ .shutdown) :
    UpToDate (tenure.act turn) := by
  cases turn with
  | register handlers => exact h.begin rfl trivial
  | run => exact h.begin rfl trivial
  | shutdown => exact absurd rfl hturn
  | elsewhere other mapper =>
      have halike : Alike tenure.manager (beside tenure.manager other mapper) := ⟨rfl, rfl⟩
      refine ⟨h.setup, fun errand hmem => (h.inHand errand hmem).congr halike, h.inTime, ?_,
        h.latest⟩
      exact h.frames
  | advance index answers => exact act_advance h fun errand hget => h.advance hget

end Tenure

end Peering
