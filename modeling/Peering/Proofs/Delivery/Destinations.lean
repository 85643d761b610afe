import Peering.Proofs.Delivery.Effects

/-!
# Messages of one destination keep their order

The lane of a message depends on nothing but its destination, so all messages of
a destination wait in one load, in the order in which they were taken in. What has
been written, what the load has, and what is still at the entry, one after the
other, are a part of what was taken in.
-/

namespace Peering

/-! ## What the notes say -/

def Note.bound? : Note → Option Job
  | .bound job => some job
  | _ => none

def Note.written? : Note → Option Job
  | .put job left bytes => if bytes = left then some job else none
  | _ => none

/-- The messages whose call said that they were taken. -/
def accepted (notes : List Note) : List Message :=
  ((calls notes).filter (·.2)).map (·.1)

/-- The jobs for which a socket was found. -/
def bound (notes : List Note) : List Job :=
  notes.filterMap Note.bound?

/-- The jobs of which the last byte has been written. -/
def written (notes : List Note) : List Job :=
  notes.filterMap Note.written?

theorem accepted_append (first second : List Note) :
    accepted (first ++ second) = accepted first ++ accepted second := by
  simp only [accepted, calls_append, List.filter_append, List.map_append]

theorem bound_append (first second : List Note) :
    bound (first ++ second) = bound first ++ bound second :=
  List.filterMap_append

theorem written_append (first second : List Note) :
    written (first ++ second) = written first ++ written second :=
  List.filterMap_append

theorem accepted_of_silent {notes : List Note} (hsilent : notes.all Note.isSilent = true) :
    accepted notes = [] := by
  rw [accepted, calls_of_silent hsilent]
  rfl

theorem bound_of_silent {notes : List Note} (hsilent : notes.all Note.isSilent = true) :
    bound notes = [] := by
  refine filterMap_of_silent (fun note hnote => ?_) hsilent
  cases note with
  | bound job => cases hnote
  | _ => rfl

theorem written_of_silent {notes : List Note} (hsilent : notes.all Note.isSilent = true) :
    written notes = [] := by
  refine filterMap_of_silent (fun note hnote => ?_) hsilent
  cases note with
  | put job left bytes => simpa [Note.isSilent, Note.written?] using hnote
  | _ => rfl

/-- The messages for one destination. -/
def toDest (dest : Destination) (messages : List Message) : List Message :=
  messages.filter (·.dest = dest)

/-- The jobs whose messages are for one destination. -/
def jobsTo (dest : Destination) (jobs : List Job) : List Job :=
  jobs.filter (·.message.dest = dest)

section Selection

variable {dest : Destination}

theorem toDest_append (dest : Destination) (first second : List Message) :
    toDest dest (first ++ second) = toDest dest first ++ toDest dest second :=
  List.filter_append _ _

theorem jobsTo_append (dest : Destination) (first second : List Job) :
    jobsTo dest (first ++ second) = jobsTo dest first ++ jobsTo dest second :=
  List.filter_append _ _

theorem map_jobsTo (dest : Destination) (jobs : List Job) :
    (jobsTo dest jobs).map (·.message) = toDest dest (jobs.map (·.message)) := by
  rw [jobsTo, toDest, List.filter_map]
  rfl

theorem jobsTo_singleton_of_ne {job : Job} (hne : job.message.dest ≠ dest) :
    jobsTo dest [job] = [] := by
  simp [jobsTo, hne]

end Selection

namespace Pipeline

variable {pipeline after : Pipeline} {step : Step} {notes : List Note} {dest : Destination}

/-! ## Every load has its own destinations -/

/-- What a lane has belongs there. -/
def Sorted (pipeline : Pipeline) : Prop :=
  ∀ index,
    (∀ message ∈ (pipeline.load index).waiting,
      message.dest.lane pipeline.outbox.lanes.length = index) ∧
    ∀ job ∈ (pipeline.load index).jobs,
      job.message.dest.lane pipeline.outbox.lanes.length = index

theorem Sorted.of_within (h : pipeline.Sorted)
    (hlanes : after.outbox.lanes.length = pipeline.outbox.lanes.length)
    (hload : ∀ index, (after.load index).Within (pipeline.load index)) : after.Sorted := by
  intro index
  rw [hlanes]
  exact ⟨fun message hmem => (h index).1 message ((hload index).waiting.subset hmem),
    fun job hmem => (h index).2 job ((hload index).jobs.subset hmem)⟩

theorem Sorted.of_loadWith (h : pipeline.Sorted) {index : Nat} {load : Load}
    (hlanes : after.outbox.lanes.length = pipeline.outbox.lanes.length)
    (hload : after.load = pipeline.loadWith index load)
    (hwaiting : ∀ message ∈ load.waiting,
      message.dest.lane pipeline.outbox.lanes.length = index)
    (hjobs : ∀ job ∈ load.jobs, job.message.dest.lane pipeline.outbox.lanes.length = index) :
    after.Sorted := by
  intro other
  rw [hlanes, hload]
  by_cases hother : other = index
  · rw [hother, loadWith_self]
    exact ⟨hwaiting, hjobs⟩
  · rw [loadWith_other hother]
    exact h other

theorem Effect.sorted (h : Effect pipeline step after notes) (hsorted : pipeline.Sorted)
    (hlanes : after.outbox.lanes.length = pipeline.outbox.lanes.length) : after.Sorted := by
  have hsame : after.load = pipeline.load → after.Sorted := fun hload =>
    hsorted.of_within hlanes fun index => hload ▸ Load.Within.refl _
  cases h with
  | still notes silent entry load tally => exact hsame load
  | accepts message fits entry load tally => exact hsame load
  | refuses message fate refusal entry load tally => exact hsame load
  | ignores message stopped entry load => exact hsame load
  | joins message lane entry load tally =>
      refine hsorted.of_loadWith hlanes load (fun other hmem => ?_) (hsorted _).2
      rcases List.mem_append.mp hmem with hold | hnew
      · exact (hsorted _).1 other hold
      · rw [List.mem_singleton.mp hnew]
  | leaves index message fate lane counted entry load others gone tally =>
      refine hsorted.of_within hlanes fun other => ?_
      by_cases hother : other = index
      · exact hother ▸ load
      · exact others other hother ▸ Load.Within.refl _
  | binds index job lane asks hand found entry waiting load tally =>
      have hhead : job.message ∈ (pipeline.load index).waiting := by
        rw [waiting]
        exact List.mem_cons_self
      refine hsorted.of_loadWith hlanes load
        (fun message hmem => (hsorted index).1 message (List.mem_of_mem_tail hmem))
        fun other hmem => ?_
      rcases List.mem_append.mp hmem with hold | hnew
      · exact (hsorted index).2 other hold
      · rw [List.mem_singleton.mp hnew]
        exact (hsorted index).1 _ hhead
  | completes index job left lane entry jobs done load tally =>
      exact hsorted.of_loadWith hlanes load (hsorted index).1
        fun other hmem => (hsorted index).2 other (List.mem_of_mem_tail hmem)
  | loses why entry load => exact hsorted.of_within hlanes load

/-! ## What comes in, and what is bound -/

theorem Effect.fits {message : Message} (h : Effect pipeline step after notes)
    (hmem : message ∈ accepted notes) :
    message.frame.payload.length ≤ pipeline.outbox.limits.maxBody := by
  cases h with
  | still notes silent entry load tally =>
      rw [accepted_of_silent silent] at hmem
      cases hmem
  | accepts taken fits entry load tally =>
      cases List.mem_singleton.mp hmem
      exact fits
  | _ => cases hmem

/-- A lane finds the socket of the message that it has in hand, as the registry has it then. -/
theorem Effect.binding {job : Job} (h : Effect pipeline step after notes)
    (hmem : job ∈ bound notes) :
    ∃ index, step = .find index ∧ pipeline.laneHand index = .fresh job.message ∧
      pipeline.transport.registry.writerFor job.message.dest = some job.conn := by
  cases h with
  | still notes silent entry load tally =>
      rw [bound_of_silent silent] at hmem
      cases hmem
  | binds index found lane asks hand writer entry waiting load tally =>
      cases List.mem_singleton.mp hmem
      exact ⟨index, asks, hand, writer⟩
  | _ => cases hmem

/-! ## The order of one destination -/

/-- The load in which the messages of a destination wait. -/
def loadOf (pipeline : Pipeline) (dest : Destination) : Load :=
  pipeline.load (dest.lane pipeline.outbox.lanes.length)

end Pipeline

namespace Chronicle

open Pipeline

variable {chronicle : Chronicle} {dest : Destination}

/--
What a destination has got, and what is on its way there, one after the other, has
the order in which sockets were found, and that is the order of the calls.
-/
structure InOrder (dest : Destination) (chronicle : Chronicle) : Prop where
  jobs : (jobsTo dest (written chronicle.notes) ++
    jobsTo dest (chronicle.pipeline.loadOf dest).jobs).Sublist (jobsTo dest (bound chronicle.notes))
  messages : ((jobsTo dest (bound chronicle.notes)).map (·.message) ++
    toDest dest ((chronicle.pipeline.loadOf dest).waiting ++ chronicle.pipeline.entry)).Sublist
      (toDest dest (accepted chronicle.notes))

/-- Nothing new is seen of a destination, and some of what is on its way there may be lost. -/
theorem InOrder.of_within {later : Chronicle} (h : InOrder dest chronicle)
    (hwritten : jobsTo dest (written later.notes) = jobsTo dest (written chronicle.notes))
    (hbound : jobsTo dest (bound later.notes) = jobsTo dest (bound chronicle.notes))
    (haccepted : accepted later.notes = accepted chronicle.notes)
    (hload : (later.pipeline.loadOf dest).Within (chronicle.pipeline.loadOf dest))
    (hentry : later.pipeline.entry.Sublist chronicle.pipeline.entry) : InOrder dest later where
  jobs := by
    rw [hwritten, hbound]
    exact ((hload.jobs.filter _).append_left _).trans h.jobs
  messages := by
    rw [hbound, haccepted]
    exact (((hload.waiting.append hentry).filter _).append_left _).trans h.messages

section Steps

variable {step : Step} {after : Pipeline} {notes : List Note} {index : Nat} {job : Job}
  {message : Message}

theorem InOrder.of_quiet (h : InOrder dest chronicle)
    (hquiet : accepted notes = [] ∧ bound notes = [] ∧ written notes = [])
    (hload : (after.loadOf dest).Within (chronicle.pipeline.loadOf dest))
    (hentry : after.entry.Sublist chronicle.pipeline.entry) :
    InOrder dest ⟨after, chronicle.notes ++ notes⟩ := by
  obtain ⟨haccepted, hbound, hwritten⟩ := hquiet
  refine h.of_within ?_ ?_ ?_ hload hentry
  · rw [written_append, hwritten, List.append_nil]
  · rw [bound_append, hbound, List.append_nil]
  · rw [accepted_append, haccepted, List.append_nil]

variable (hlanes : after.outbox.lanes.length = chronicle.pipeline.outbox.lanes.length)
include hlanes

theorem loadOf_self {load : Load} (hload : after.load = chronicle.pipeline.loadWith index load)
    (hindex : dest.lane chronicle.pipeline.outbox.lanes.length = index) :
    after.loadOf dest = load := by
  rw [loadOf, hlanes, hload, hindex, loadWith_self]

theorem loadOf_other {load : Load} (hload : after.load = chronicle.pipeline.loadWith index load)
    (hindex : dest.lane chronicle.pipeline.outbox.lanes.length ≠ index) :
    after.loadOf dest = chronicle.pipeline.loadOf dest := by
  rw [loadOf, hlanes, hload, loadWith_other hindex]
  rfl

theorem loadOf_same (hload : after.load = chronicle.pipeline.load) :
    after.loadOf dest = chronicle.pipeline.loadOf dest := by
  rw [loadOf, hlanes, hload]
  rfl

/-- The oldest message at the entry goes behind the ones that wait, if it goes to this load. -/
theorem InOrder.of_join (h : InOrder dest chronicle)
    (hentry : chronicle.pipeline.entry = message :: after.entry)
    (hload : after.load = chronicle.pipeline.loadWith index
      ((chronicle.pipeline.load index).join message)) :
    InOrder dest ⟨after, chronicle.notes ++ []⟩ := by
  by_cases hdest : dest.lane chronicle.pipeline.outbox.lanes.length = index
  · have hself : after.loadOf dest = (chronicle.pipeline.loadOf dest).join message := by
      rw [loadOf_self hlanes hload hdest, loadOf, hdest]
    have hsame : (after.loadOf dest).waiting ++ after.entry =
        (chronicle.pipeline.loadOf dest).waiting ++ chronicle.pipeline.entry := by
      rw [hself, hentry]
      exact List.append_assoc _ _ _
    rw [List.append_nil]
    refine ⟨?_, ?_⟩
    · rw [hself]
      exact h.jobs
    · rw [hsame]
      exact h.messages
  · refine h.of_quiet ⟨rfl, rfl, rfl⟩ ?_ ?_
    · rw [loadOf_other hlanes hload hdest]
      exact Load.Within.refl _
    · rw [hentry]
      exact List.sublist_cons_self _ _

/-- The oldest message that waits becomes the newest job. -/
theorem InOrder.of_bind (h : InOrder dest chronicle) (hsorted : chronicle.pipeline.Sorted)
    (hentry : after.entry = chronicle.pipeline.entry)
    (hwaiting : (chronicle.pipeline.load index).waiting =
      job.message :: ((chronicle.pipeline.load index).bind job).waiting)
    (hload : after.load = chronicle.pipeline.loadWith index
      ((chronicle.pipeline.load index).bind job)) :
    InOrder dest ⟨after, chronicle.notes ++ [.bound job]⟩ := by
  have hbound : bound (chronicle.notes ++ [.bound job]) = bound chronicle.notes ++ [job] :=
    bound_append _ _
  have hwritten : written (chronicle.notes ++ [.bound job]) = written chronicle.notes :=
    (written_append _ _).trans (List.append_nil _)
  have haccepted : accepted (chronicle.notes ++ [.bound job]) = accepted chronicle.notes :=
    (accepted_append _ _).trans (List.append_nil _)
  by_cases hdest : dest.lane chronicle.pipeline.outbox.lanes.length = index
  · have hself : after.loadOf dest = (chronicle.pipeline.loadOf dest).bind job := by
      rw [loadOf_self hlanes hload hdest, loadOf, hdest]
    have hjobs := h.jobs
    have hmessages := h.messages
    rw [← hdest] at hwaiting
    refine ⟨?_, ?_⟩
    · rw [hwritten, hbound, hself, jobsTo_append]
      show (_ ++ jobsTo dest ((chronicle.pipeline.loadOf dest).jobs ++ [job])).Sublist _
      rw [jobsTo_append, ← List.append_assoc]
      exact hjobs.append_right _
    · rw [hbound, haccepted, hself, hentry, jobsTo_append, List.map_append, List.append_assoc,
        map_jobsTo dest [job], ← toDest_append]
      rw [loadOf, hwaiting] at hmessages
      exact hmessages
  · have hne : job.message.dest ≠ dest := by
      intro heq
      have hmem : job.message ∈ (chronicle.pipeline.load index).waiting := by
        rw [hwaiting]
        exact List.mem_cons_self
      exact hdest (heq ▸ (hsorted index).1 _ hmem)
    refine h.of_within (congrArg (jobsTo dest) hwritten) ?_ haccepted ?_
      (hentry ▸ List.Sublist.refl _)
    · rw [hbound, jobsTo_append, jobsTo_singleton_of_ne hne, List.append_nil]
    · rw [loadOf_other hlanes hload hdest]
      exact Load.Within.refl _

/-- The oldest job is the one that is written. -/
theorem InOrder.of_complete {left : Bytes} (h : InOrder dest chronicle)
    (hsorted : chronicle.pipeline.Sorted) (hentry : after.entry = chronicle.pipeline.entry)
    (hjobs : (chronicle.pipeline.load index).jobs =
      job :: ((chronicle.pipeline.load index).complete job).jobs)
    (hload : after.load = chronicle.pipeline.loadWith index
      ((chronicle.pipeline.load index).complete job)) :
    InOrder dest ⟨after, chronicle.notes ++ [.put job left left]⟩ := by
  have hwritten : written (chronicle.notes ++ [.put job left left]) =
      written chronicle.notes ++ [job] := by
    rw [written_append]
    simp [written, Note.written?]
  have hbound : bound (chronicle.notes ++ [.put job left left]) = bound chronicle.notes :=
    (bound_append _ _).trans (List.append_nil _)
  have haccepted : accepted (chronicle.notes ++ [.put job left left]) = accepted chronicle.notes :=
    (accepted_append _ _).trans (List.append_nil _)
  by_cases hdest : dest.lane chronicle.pipeline.outbox.lanes.length = index
  · have hself : after.loadOf dest = (chronicle.pipeline.loadOf dest).complete job := by
      rw [loadOf_self hlanes hload hdest, loadOf, hdest]
    have hold := h.jobs
    rw [← hdest] at hjobs
    refine ⟨?_, ?_⟩
    · rw [hwritten, hbound, hself, jobsTo_append, List.append_assoc, ← jobsTo_append]
      rw [loadOf, hjobs] at hold
      exact hold
    · rw [hbound, haccepted, hself, hentry]
      exact h.messages
  · have hne : job.message.dest ≠ dest := by
      intro heq
      have hmem : job ∈ (chronicle.pipeline.load index).jobs := by
        rw [hjobs]
        exact List.mem_cons_self
      exact hdest (heq ▸ (hsorted index).2 _ hmem)
    refine h.of_within ?_ (congrArg (jobsTo dest) hbound) haccepted ?_
      (hentry ▸ List.Sublist.refl _)
    · rw [hwritten, jobsTo_append, jobsTo_singleton_of_ne hne, List.append_nil]
    · rw [loadOf_other hlanes hload hdest]
      exact Load.Within.refl _

theorem InOrder.of_effect (h : InOrder dest chronicle) (hsorted : chronicle.pipeline.Sorted)
    (heffect : Effect chronicle.pipeline step after notes) :
    InOrder dest ⟨after, chronicle.notes ++ notes⟩ := by
  have hwithin : after.load = chronicle.pipeline.load →
      (after.loadOf dest).Within (chronicle.pipeline.loadOf dest) := fun hload =>
    loadOf_same hlanes hload ▸ Load.Within.refl _
  cases heffect with
  | still notes silent entry load tally =>
      exact h.of_quiet ⟨accepted_of_silent silent, bound_of_silent silent,
        written_of_silent silent⟩ (hwithin load) (entry ▸ List.Sublist.refl _)
  | accepts message fits entry load tally =>
      have hbound : bound (chronicle.notes ++ [.called message true]) = bound chronicle.notes :=
        (bound_append _ _).trans (List.append_nil _)
      have hwritten : written (chronicle.notes ++ [.called message true]) =
          written chronicle.notes := (written_append _ _).trans (List.append_nil _)
      have haccepted : accepted (chronicle.notes ++ [.called message true]) =
          accepted chronicle.notes ++ [message] := accepted_append _ _
      refine ⟨?_, ?_⟩
      · rw [hwritten, hbound, loadOf_same hlanes load]
        exact h.jobs
      · rw [hbound, haccepted, loadOf_same hlanes load, entry, toDest_append dest (accepted _),
          ← List.append_assoc (chronicle.pipeline.loadOf dest).waiting, toDest_append dest (_ ++ _),
          ← List.append_assoc]
        exact h.messages.append_right _
  | refuses message fate refusal entry load tally =>
      exact h.of_quiet ⟨rfl, rfl, rfl⟩ (hwithin load) (entry ▸ List.Sublist.refl _)
  | ignores message stopped entry load =>
      exact h.of_quiet ⟨rfl, rfl, rfl⟩ (hwithin load) (entry ▸ List.Sublist.refl _)
  | joins message lane entry load tally => exact h.of_join hlanes entry load
  | leaves index message fate lane counted entry load others gone tally =>
      refine h.of_quiet ⟨rfl, rfl, rfl⟩ ?_ entry
      rw [loadOf, hlanes, loadOf]
      by_cases hdest : dest.lane chronicle.pipeline.outbox.lanes.length = index
      · rw [hdest]
        exact load
      · rw [others _ hdest]
        exact Load.Within.refl _
  | binds index job lane asks hand found entry waiting load tally =>
      exact h.of_bind hlanes hsorted entry waiting load
  | completes index job left lane entry jobs done load tally =>
      exact h.of_complete hlanes hsorted entry jobs load
  | loses why entry load =>
      refine h.of_quiet ⟨rfl, rfl, rfl⟩ ?_ entry
      rw [loadOf, hlanes]
      exact load _

end Steps

/-! ## Runs -/

theorem sorted_opening (registry : Registry) (limits : OutboxLimits) :
    (opening registry limits).pipeline.Sorted := by
  intro index
  rw [load_opening]
  refine ⟨fun message hmem => ?_, fun job hmem => ?_⟩
  · cases hmem
  · cases hmem

theorem inOrder_opening (registry : Registry) (limits : OutboxLimits) (dest : Destination) :
    InOrder dest (opening registry limits) := by
  refine ⟨?_, ?_⟩
  · rw [loadOf, load_opening]
    exact List.Sublist.refl _
  · rw [loadOf, load_opening]
    exact List.Sublist.refl _

theorem inOrder_run (registry : Registry) (limits : OutboxLimits) (steps : List Step) :
    ((opening registry limits).run steps).pipeline.Sorted ∧
      ∀ dest, InOrder dest ((opening registry limits).run steps) := by
  refine run_keeps (P := fun chronicle => chronicle.pipeline.Sorted ∧
    ∀ dest, InOrder dest chronicle) ?_ ?_ steps
  · exact ⟨sorted_opening registry limits, inOrder_opening registry limits⟩
  · intro chronicle step h
    have heffect := act_effect chronicle.pipeline step
    have hlanes := (lanes_act chronicle.pipeline step).2
    exact ⟨heffect.sorted h.1 hlanes, fun dest => (h.2 dest).of_effect hlanes h.1 heffect⟩

theorem bound_run (chronicle : Chronicle) (steps : List Step) {job : Job}
    (hmem : job ∈ bound (chronicle.run steps).notes) : job ∈ bound chronicle.notes ∨
      ∃ before index later, steps = before ++ .find index :: later ∧
        (chronicle.run before).pipeline.laneHand index = .fresh job.message ∧
        (chronicle.run before).pipeline.transport.registry.writerFor job.message.dest =
          some job.conn := by
  induction steps generalizing chronicle with
  | nil => exact Or.inl hmem
  | cons step rest ih =>
      rcases ih (chronicle.act step) hmem with hearlier | ⟨before, index, later, hrest, hfound⟩
      · rw [Chronicle.act, bound_append] at hearlier
        rcases List.mem_append.mp hearlier with hold | hnew
        · exact Or.inl hold
        · obtain ⟨index, rfl, hfound⟩ := (act_effect chronicle.pipeline step).binding hnew
          exact Or.inr ⟨[], index, rest, rfl, hfound⟩
      · exact Or.inr ⟨step :: before, index, later, congrArg (step :: ·) hrest, hfound⟩

/-- What is taken in is no longer than the limits allow. -/
structure Fits (limits : OutboxLimits) (chronicle : Chronicle) : Prop where
  same : chronicle.pipeline.outbox.limits = limits
  payload : ∀ message ∈ accepted chronicle.notes, message.frame.payload.length ≤ limits.maxBody

theorem fits_opening (registry : Registry) (limits : OutboxLimits) :
    Fits limits (opening registry limits) :=
  ⟨rfl, fun _ hmem => by cases hmem⟩

theorem Fits.act {limits : OutboxLimits} (h : Fits limits chronicle) (step : Step) :
    Fits limits (chronicle.act step) := by
  refine ⟨(lanes_act chronicle.pipeline step).1.trans h.same, fun message hmem => ?_⟩
  rw [Chronicle.act, accepted_append] at hmem
  rcases List.mem_append.mp hmem with hold | hnew
  · exact h.payload message hold
  · rw [← h.same]
    exact (act_effect chronicle.pipeline step).fits hnew

theorem fits_run (registry : Registry) (limits : OutboxLimits) (steps : List Step) :
    Fits limits ((opening registry limits).run steps) :=
  run_keeps (fits_opening registry limits) (fun _ step h => h.act step) steps

/-- What has been written for a destination keeps the order in which it was taken in. -/
theorem InOrder.written_sublist (h : InOrder dest chronicle) :
    (jobsTo dest (written chronicle.notes)).Sublist (jobsTo dest (bound chronicle.notes)) ∧
      ((jobsTo dest (written chronicle.notes)).map (·.message)).Sublist
        (toDest dest (accepted chronicle.notes)) := by
  have hjobs := (List.sublist_append_left _ _).trans h.jobs
  exact ⟨hjobs, (hjobs.map _).trans ((List.sublist_append_left _ _).trans h.messages)⟩

end Chronicle

end Peering
