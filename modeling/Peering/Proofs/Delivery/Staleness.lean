import Peering.Proofs.Delivery.Condemned
import Peering.Proofs.Delivery.Wire

/-!
# Runs without the stale messages

Every run has a run beside it in which nobody hands in what is found stale, and every
other step is done in the same order. As long as no message finds its queue full, the
two runs cannot be told apart by what they write, by the connections they lose or by
a counter other than that of the stale messages.

Main statement: the two runs agree, and they differ by what has waited for longer
than a write may take when its lane looks at the clock.
-/

namespace Peering

/-- How long a message has waited; one from the future has not waited. -/
def Message.age (message : Message) (now : Int) : Nat :=
  (now - message.enqueuedAt).toNat

theorem Message.isStale_iff (message : Message) (now : Int) (writeTimeout : Nat) :
    message.isStale now writeTimeout = true ↔ writeTimeout < message.age now := by
  rw [Message.isStale, Message.age, decide_eq_true_iff, Int.ofNat_eq_natCast]
  omega

/-- Whether a note is neither a call nor the end of a stale message. -/
def Note.remains : Note → Bool
  | .called _ _ => false
  | .settled _ .stale => false
  | _ => true

namespace Pipeline

variable {pipeline : Pipeline} {later : Spot → Bool} {step : Step}

/-! ## The run beside it -/

/-- The steps without those that would move what will be found stale. -/
def sift : Pipeline → List Step → List Step
  | _, [] => []
  | pipeline, step :: rest =>
      let after := (pipeline.act step).1
      if pipeline.keeps (after.goesStale rest) step then step :: after.sift rest
      else after.sift rest

/-- The calls of a run, each with whether its message will be found stale. -/
def handed : Pipeline → List Step → List ((Message × Bool) × Bool)
  | _, [] => []
  | pipeline, step :: rest =>
      let after := (pipeline.act step).1
      pipeline.handedIn (after.goesStale rest) step ++ after.handed rest

/-! ## What is seen of a run -/

/-- What a look at every step of a run sees. -/
def seen {A : Type} (look : Pipeline → Step → List A) : Pipeline → List Step → List A
  | _, [] => []
  | pipeline, step :: rest => look pipeline step ++ (pipeline.act step).1.seen look rest

/-- What can be seen of a run. -/
def watch : Pipeline → List Step → List Note :=
  seen fun pipeline step => (pipeline.act step).2

/-- The message that a lane judges in a step, and the time on the clock. -/
def judging (pipeline : Pipeline) : Step → List (Message × Int)
  | .judge now index =>
      match pipeline.laneHand index, pipeline.outbox.lane? index with
      | .taken message, some _ => [(message, now)]
      | _, _ => []
  | _ => []

/-- The messages that the lanes judge in a run, each with the time on the clock. -/
def judged : Pipeline → List Step → List (Message × Int) :=
  seen judging

/-- The connection that a writer removes in a step. -/
def removing (pipeline : Pipeline) : Step → List ConnId
  | .remove index =>
      match pipeline.writerHand index with
      | .leaving conn => [conn]
      | _ => []
  | _ => []

/-- The connections that the writers remove in a run. -/
def removed : Pipeline → List Step → List ConnId :=
  seen removing

/-- Whether a step hands a message in or takes it out of a queue before it is judged. -/
def Step.isIntake : Step → Bool
  | .send _ => true
  | .pull => true
  | .pick _ => true
  | _ => false

/-! ## One step -/

theorem isIntake_of_dropped (hdropped : pipeline.keeps later step = false) :
    step.isIntake = true := by
  cases step with
  | send | pull | pick => rfl
  | _ => cases hdropped

theorem calls_handedIn (pipeline : Pipeline) (later : Spot → Bool) (step : Step) :
    (pipeline.handedIn later step).map (·.1) = calls (pipeline.act step).2 := by
  have hcalls := calls_act pipeline step
  cases step with
  | send message =>
      show _ = (message, _) :: calls ((pipeline.refusal message).map (.settled message))
      rw [calls_refusal]
      rfl
  | _ => exact (List.map_eq_nil_iff.mp hcalls).symm

/-- A call is of a doomed message just when its step does not stay. -/
theorem handedIn_flag {call : (Message × Bool) × Bool}
    (hcall : call ∈ pipeline.handedIn later step) : call.2 = !pipeline.keeps later step := by
  cases step with
  | send message =>
      rw [List.mem_singleton.mp hcall]
      exact (Bool.not_not _).symm
  | _ => cases hcall

theorem remains_of_stale (notes : List Note) :
    (notes.filter fun note => note.stale?.isNone).filter Note.remains =
      notes.filter Note.remains := by
  rw [List.filter_filter]
  refine List.filter_congr fun note _ => ?_
  cases note with
  | settled message fate => cases fate <;> rfl
  | _ => rfl

theorem calls_of_stale (notes : List Note) :
    calls (notes.filter fun note => note.stale?.isNone) = calls notes := by
  rw [calls, calls, List.filterMap_filter]
  refine List.filterMap_congr fun note _ => ?_
  cases note with
  | settled message fate => cases fate <;> rfl
  | _ => rfl

/-! ## The two runs -/

/-- The run beside a run, seen from a state on. -/
structure Sifted (pipeline : Pipeline) (steps : List Step) : Prop where
  state : (pipeline.spared (pipeline.goesStale steps)).after (pipeline.sift steps) =
    (pipeline.after steps).spared Spot.foundStale
  shown : ((pipeline.spared (pipeline.goesStale steps)).watch (pipeline.sift steps)).filter
    Note.remains = (pipeline.watch steps).filter Note.remains
  answers : calls ((pipeline.spared (pipeline.goesStale steps)).watch (pipeline.sift steps)) =
    ((pipeline.handed steps).filter (!·.2)).map (·.1)
  removals : (pipeline.spared (pipeline.goesStale steps)).removed (pipeline.sift steps) =
    pipeline.removed steps

/-- A step that stays shows the same in both runs. -/
theorem Sifted.of_kept {rest : List Step}
    (hkept : pipeline.keeps ((pipeline.act step).1.goesStale rest) step = true)
    (hact : (pipeline.spared (pipeline.goesStale (step :: rest))).act step =
      ((pipeline.act step).1.spared ((pipeline.act step).1.goesStale rest),
        (pipeline.act step).2.filter fun note => note.stale?.isNone))
    (hrest : (pipeline.act step).1.Sifted rest) : pipeline.Sifted (step :: rest) := by
  have hsift : pipeline.sift (step :: rest) = step :: (pipeline.act step).1.sift rest :=
    if_pos hkept
  have hcalls : ((pipeline.handedIn ((pipeline.act step).1.goesStale rest) step).filter
      (!·.2)).map (·.1) = calls (pipeline.act step).2 := by
    rw [List.filter_eq_self.mpr, calls_handedIn]
    intro call hcall
    rw [handedIn_flag hcall, hkept]
    rfl
  constructor <;> rw [hsift]
  · show (((pipeline.spared _).act step).1).after _ = _
    rw [hact]
    exact hrest.state
  · rw [watch, seen, seen, hact, List.filter_append, List.filter_append, remains_of_stale]
    exact congrArg _ hrest.shown
  · rw [watch, seen, hact, handed, calls_append, calls_of_stale, List.filter_append,
      List.map_append, hcalls]
    exact congrArg _ hrest.answers
  · rw [removed, seen, seen, hact]
    exact congrArg (pipeline.removing step ++ ·) hrest.removals

/-- A step that does not stay shows nothing but a call with a doomed message. -/
theorem Sifted.of_dropped {rest : List Step}
    (hdropped : pipeline.keeps ((pipeline.act step).1.goesStale rest) step = false)
    (hsame : pipeline.spared (pipeline.goesStale (step :: rest)) =
      (pipeline.act step).1.spared ((pipeline.act step).1.goesStale rest))
    (hnotes : (pipeline.act step).2 = step.sent?.toList.map (.called · true))
    (hrest : (pipeline.act step).1.Sifted rest) : pipeline.Sifted (step :: rest) := by
  have hsift : pipeline.sift (step :: rest) = (pipeline.act step).1.sift rest :=
    if_neg (ne_true_of_eq_false hdropped)
  have hcalls : (pipeline.handedIn ((pipeline.act step).1.goesStale rest) step).filter
      (!·.2) = [] := by
    rw [List.filter_eq_nil_iff]
    intro call hcall
    rw [handedIn_flag hcall, hdropped]
    exact Bool.false_ne_true
  have hshown : (pipeline.act step).2.filter Note.remains = [] := by
    rw [hnotes]
    cases step.sent? <;> rfl
  have hremovals : pipeline.removing step = [] := by
    cases step with
    | remove index => cases hdropped
    | _ => rfl
  constructor <;> rw [hsift, hsame]
  · exact hrest.state
  · rw [watch, seen, List.filter_append, hshown]
    exact hrest.shown
  · rw [handed, List.filter_append, hcalls]
    exact hrest.answers
  · rw [removed, seen, hremovals]
    exact hrest.removals

/-- By induction on the steps; what is doomed before a step is what is doomed where it takes it. -/
theorem sifted_run (pipeline : Pipeline) (steps : List Step)
    (hroom : (pipeline.watch steps).any Note.isOverflow = false) : pipeline.Sifted steps := by
  induction steps generalizing pipeline with
  | nil => exact ⟨rfl, rfl, rfl, rfl⟩
  | cons step rest ih =>
      rw [watch, seen, List.any_append, Bool.or_eq_false_iff] at hroom
      have hrest := ih (pipeline.act step).1 hroom.2
      have hstep := sifts_act ((pipeline.act step).1.goesStale_past rest) step hroom.1
      cases hkeeps : pipeline.keeps ((pipeline.act step).1.goesStale rest) step with
      | true => exact .of_kept hkeeps (hstep.kept hkeeps) hrest
      | false =>
          obtain ⟨hsame, hnotes⟩ := hstep.dropped hkeeps
          exact .of_dropped hkeeps hsame hnotes hrest

/-! ## What is left out -/

theorem condemned_foundStale (pipeline : Pipeline) : pipeline.condemned Spot.foundStale = [] := by
  have hqueue : ∀ position, (Spot.queue position).foundStale = false := fun _ => rfl
  have hlane : ∀ index position, (Spot.lane index position).foundStale = false := fun _ _ => rfl
  rw [condemned, condemnedAhead, spare_not_of_none hqueue]
  refine List.flatMap_eq_nil_iff.mpr fun index _ => ?_
  rw [condemnedIn, spare_not_of_none (hlane index)]
  rfl

/-- What is doomed at the start of a run and what is handed in to be found stale is found stale. -/
theorem condemned_run (pipeline : Pipeline) (steps : List Step) :
    (pipeline.condemned (pipeline.goesStale steps) ++
      ((pipeline.handed steps).filter (·.2)).map (·.1.1)).Perm
        (foundStale (pipeline.watch steps)) := by
  induction steps generalizing pipeline with
  | nil => exact List.Perm.of_eq (congrArg (· ++ []) pipeline.condemned_foundStale)
  | cons step rest ih =>
      have hstep := (tracks_act pipeline ((pipeline.act step).1.goesStale_past rest) step).condemned
      have hrest := ih (pipeline.act step).1
      rw [handed, watch, seen, foundStale_append, List.filter_append, List.map_append,
        ← List.append_assoc]
      refine (hstep.append_right _).trans ?_
      rw [List.append_assoc]
      exact hrest.append_left _

theorem stale_run (pipeline : Pipeline) (steps : List Step) :
    (pipeline.after steps).outbox.tally.stale =
      pipeline.outbox.tally.stale + (foundStale (pipeline.watch steps)).length := by
  induction steps generalizing pipeline with
  | nil => rfl
  | cons step rest ih =>
      have hstep := (tracks_act pipeline ((pipeline.act step).1.goesStale_past rest) step).tally
      rw [watch, seen, foundStale_append, List.length_append, ← Nat.add_assoc, ← hstep]
      exact ih (pipeline.act step).1

theorem foundStale_judge (pipeline : Pipeline) (now : Int) (index : Nat) :
    foundStale (pipeline.judge now index).2 =
      ((pipeline.judging (.judge now index)).filter fun look =>
        pipeline.outbox.limits.writeTimeout < look.1.age look.2).map (·.1) := by
  by_cases hjudging : pipeline.Judging index
  · obtain ⟨message, lane, hhand, hlane⟩ := hjudging
    have hlook : pipeline.judging (.judge now index) = [(message, now)] := by
      simp [judging, hhand, hlane]
    have hage := message.isStale_iff now pipeline.outbox.limits.writeTimeout
    rw [hlook]
    cases hstale : message.isStale now pipeline.outbox.limits.writeTimeout with
    | true =>
        rw [judge_stale hhand hlane hstale, List.filter_cons_of_pos]
        · rfl
        · exact decide_eq_true (hage.mp hstale)
    | false =>
        rw [judge_fresh hhand hlane hstale, List.filter_cons_of_neg]
        · rfl
        · simpa [hstale] using hage
  · have hlook : pipeline.judging (.judge now index) = [] := by
      unfold judging
      dsimp only
      split
      · rename_i message lane hhand hlane
        exact absurd ⟨message, lane, hhand, hlane⟩ hjudging
      · rfl
    rw [judge_idle now hjudging, hlook]
    rfl

/-- A lane finds stale what it judges to have waited for longer than a write may take. -/
theorem foundStale_act (pipeline : Pipeline) (step : Step) : foundStale (pipeline.act step).2 =
    ((pipeline.judging step).filter fun look =>
      pipeline.outbox.limits.writeTimeout < look.1.age look.2).map (·.1) := by
  cases step with
  | judge now index => exact foundStale_judge pipeline now index
  | send message => exact stale?_send pipeline message
  | pull =>
      simp only [act, pull]
      split <;> rfl
  | pass =>
      simp only [act, pass]
      split
      · rfl
      · split <;> rfl
  | pick index =>
      simp only [act, pick]
      split <;> rfl
  | stop => rfl
  | quit task =>
      cases task with
      | distributor => rfl
      | lane index =>
          simp only [act, quit]
          split <;> rfl
      | writer index => exact stale?_behind rfl
  | _ => exact stale?_behind rfl

theorem foundStale_run (pipeline : Pipeline) (steps : List Step) :
    foundStale (pipeline.watch steps) = ((pipeline.judged steps).filter fun look =>
      pipeline.outbox.limits.writeTimeout < look.1.age look.2).map (·.1) := by
  induction steps generalizing pipeline with
  | nil => rfl
  | cons step rest ih =>
      have hrest := ih (pipeline.act step).1
      rw [(lanes_act pipeline step).1] at hrest
      rw [watch, seen, judged, seen, foundStale, List.filterMap_append, List.filter_append,
        List.map_append]
      exact congr (congrArg _ (foundStale_act pipeline step)) hrest

theorem calls_handed (pipeline : Pipeline) (steps : List Step) :
    (pipeline.handed steps).map (·.1) = calls (pipeline.watch steps) := by
  induction steps generalizing pipeline with
  | nil => rfl
  | cons step rest ih =>
      rw [handed, watch, seen, calls_append, List.map_append, calls_handedIn]
      exact congrArg _ (ih (pipeline.act step).1)

/-! ## What stays of the steps -/

theorem sift_sublist (pipeline : Pipeline) (steps : List Step) :
    (pipeline.sift steps).Sublist steps := by
  induction steps generalizing pipeline with
  | nil => exact List.Sublist.refl _
  | cons step rest ih =>
      rw [sift]
      split
      · exact (ih _).cons_cons step
      · exact (ih _).cons step

theorem sift_filter (pipeline : Pipeline) (steps : List Step) :
    (pipeline.sift steps).filter (!·.isIntake) = steps.filter (!·.isIntake) := by
  induction steps generalizing pipeline with
  | nil => rfl
  | cons step rest ih =>
      rw [sift]
      split
      · rw [List.filter_cons, List.filter_cons, ih]
      · rename_i hdropped
        rw [ih, List.filter_cons_of_neg]
        rw [isIntake_of_dropped (Bool.eq_false_of_not_eq_true hdropped)]
        exact Bool.false_ne_true

end Pipeline

namespace Chronicle

open Pipeline

theorem run_notes (chronicle : Chronicle) (steps : List Step) :
    (chronicle.run steps).notes = chronicle.notes ++ chronicle.pipeline.watch steps := by
  induction steps generalizing chronicle with
  | nil => exact (List.append_nil _).symm
  | cons step rest ih =>
      rw [watch, seen, ← List.append_assoc]
      exact ih (chronicle.act step)

/-- Nothing is on its way at the start of a run, so nothing is left out of it. -/
theorem spared_opening (registry : Registry) (limits : OutboxLimits) (doomed : Spot → Bool) :
    (opening registry limits).pipeline.spared doomed = (opening registry limits).pipeline := by
  refine spared_of_still rfl (fun index lane hlane => ?_) (ite_self _) fun _ => rfl
  rw [(List.mem_replicate.mp (List.mem_of_getElem? hlane)).2]
  rfl

theorem condemned_opening (registry : Registry) (limits : OutboxLimits) (later : Spot → Bool) :
    (opening registry limits).pipeline.condemned later = [] := by
  have hwaiting : ∀ index, (opening registry limits).pipeline.waiting index = [] := by
    intro index
    unfold waiting
    cases hlane : (opening registry limits).pipeline.outbox.lane? index with
    | none => rfl
    | some lane =>
        rw [(List.mem_replicate.mp (List.mem_of_getElem? hlane)).2]
        rfl
  rw [condemned, condemnedAhead_of_none rfl]
  refine List.flatMap_eq_nil_iff.mpr fun index _ => ?_
  rw [condemnedIn_of_none rfl, hwaiting]
  rfl

/-- At the end of a run only what has been found stale is out of sight. -/
theorem spared_foundStale (pipeline : Pipeline) : pipeline.spared Spot.foundStale =
    pipeline.withOutbox (pipeline.outbox.count fun tally => { tally with stale := 0 }) := by
  refine spared_of_still (spare_of_none (fun _ => rfl) _) (fun index lane _ => ?_) rfl
    fun index => ?_
  · exact congrArg (fun queue => { lane with queue := queue }) (spare_of_none (fun _ => rfl) _)
  · cases pipeline.laneHand index <;> rfl

theorem pieces_remains (conn : ConnId) (notes : List Note) :
    pieces conn (notes.filter Note.remains) = pieces conn notes := by
  rw [pieces, List.foldl_filter]
  refine congrArg (fun onto => notes.foldl onto []) (funext fun older => funext fun note => ?_)
  cases note with
  | settled message fate => cases fate <;> rfl
  | _ => rfl

theorem received_remains (conn : ConnId) (notes : List Note) :
    received conn (notes.filter Note.remains) = received conn notes := by
  induction notes with
  | nil => rfl
  | cons note rest ih =>
      have hcons : ∀ later, received conn (note :: later) =
          note.readFrom conn ++ received conn later := fun _ => List.flatMap_cons
      cases hremains : note.remains with
      | true => rw [List.filter_cons_of_pos hremains, hcons, hcons, ih]
      | false =>
          have hbare : note.readFrom conn = [] := by
            cases note with
            | read changed bytes => cases hremains
            | _ => rfl
          rw [List.filter_cons_of_neg (ne_true_of_eq_false hremains), hcons, hbare, ih]
          rfl

/--
As long as no message finds the send queue or the queue of its lane full, a run shows
the same without the messages that it finds stale: the same bytes on every connection,
the same connections removed, and the same end but for the counter of such messages.
-/
theorem run_without_stale (registry : Registry) (limits : OutboxLimits) (steps : List Step)
    (hroom : ∀ note ∈ ((opening registry limits).run steps).notes, note.isOverflow = false) :
    let start := opening registry limits
    let full := start.run steps
    let lean := start.run (start.pipeline.sift steps)
    let handed := start.pipeline.handed steps
    -- The calls that are left out are those with the messages that wait too long.
    (handed.map (·.1) = calls full.notes ∧
      calls lean.notes = (handed.filter (!·.2)).map (·.1) ∧
      ((handed.filter (·.2)).map (·.1.1)).Perm (((start.pipeline.judged steps).filter fun look =>
        limits.writeTimeout < look.1.age look.2).map (·.1))) ∧
    -- No step is added or moved, and only steps that hand in or take messages are left out.
    ((start.pipeline.sift steps).Sublist steps ∧
      (start.pipeline.sift steps).filter (!·.isIntake) = steps.filter (!·.isIntake)) ∧
    -- What is seen is the same otherwise, and with it the bytes on every connection.
    (lean.notes.filter Note.remains = full.notes.filter Note.remains ∧
      ∀ conn, pieces conn lean.notes = pieces conn full.notes ∧
        received conn lean.notes = received conn full.notes) ∧
    start.pipeline.removed (start.pipeline.sift steps) = start.pipeline.removed steps ∧
    -- The end is the same but for one counter.
    lean.pipeline = full.pipeline.withOutbox
      (full.pipeline.outbox.count fun tally => { tally with stale := 0 }) ∧
    full.pipeline.outbox.tally.stale = (handed.filter (·.2)).length := by
  intro start full lean handed
  have hfull : full.notes = start.pipeline.watch steps := run_notes start steps
  have hlean : lean.notes = start.pipeline.watch (start.pipeline.sift steps) :=
    run_notes start (start.pipeline.sift steps)
  have hsifted : start.pipeline.Sifted steps := by
    refine sifted_run start.pipeline steps (List.any_eq_false.mpr fun note hnote => ?_)
    exact ne_true_of_eq_false (hroom note (hfull ▸ hnote))
  have hstart : start.pipeline.spared (start.pipeline.goesStale steps) = start.pipeline :=
    spared_opening registry limits _
  have hperm := condemned_run start.pipeline steps
  have hjudged := foundStale_run start.pipeline steps
  have hcount := stale_run start.pipeline steps
  obtain ⟨hstate, hshown, hanswers, hremovals⟩ := hsifted
  rw [hstart] at hstate hshown hanswers hremovals
  rw [condemned_opening, List.nil_append] at hperm
  rw [← hlean, ← hfull] at hshown
  refine ⟨⟨?_, ?_, ?_⟩, ⟨sift_sublist _ _, sift_filter _ _⟩, ⟨hshown, fun conn => ⟨?_, ?_⟩⟩,
    hremovals, ?_, ?_⟩
  · rw [hfull]
    exact calls_handed start.pipeline steps
  · rw [hlean, hanswers]
  · exact hperm.trans (List.Perm.of_eq hjudged)
  · rw [← pieces_remains, hshown, pieces_remains]
  · rw [← received_remains, hshown, received_remains]
  · rw [run_pipeline, run_pipeline, hstate, spared_foundStale]
  · rw [run_pipeline, hcount, ← hperm.length_eq, List.length_map]
    exact Nat.zero_add _

/-- Two messages on one lane, one of which has waited too long when the lane takes it. -/
def oneStale : List Step :=
  let lane : List Step := [.pull, .pass, .pick 0, .judge 200 0, .find 0, .leave 0]
  [.accept 0 64, .send ⟨.inbound 1, ⟨1, 1, 1, [0xaa]⟩, 99⟩,
    .send ⟨.inbound 1, ⟨1, 1, 2, [0xbb]⟩, 100⟩] ++
    lane ++ lane ++ [.receive 0, .ask 0, .put 0 64, .finish 0]

/-- Without it only the step that hands it in and those that take it on are left out. -/
theorem run_without_stale_of_one_stale :
    let start := opening (Registry.create (Identity.create (Registry.repeatedId 0x7a)
      (.v4 0x7f000001) 1) ⟨8, 8, 600, 300, 600⟩) ⟨1, 8, 8, 8, 100, 16⟩
    let full := start.run oneStale
    let lean := start.run (start.pipeline.sift oneStale)
    (∀ note ∈ full.notes, note.isOverflow = false) ∧
    full.pipeline.outbox.tally = { Tally.zero with written := 1, stale := 1 } ∧
    (start.pipeline.sift oneStale).length + 3 = oneStale.length ∧
    (written lean.notes).map (·.message.frame.action) = [2] ∧
    pieces 1 lean.notes = pieces 1 full.notes ∧
    lean.pipeline = full.pipeline.withOutbox
      (full.pipeline.outbox.count fun tally => { tally with stale := 0 }) := by
  intro start full lean
  have hroom : ∀ note ∈ full.notes, note.isOverflow = false := by decide +kernel
  obtain ⟨-, -, ⟨-, hwire⟩, -, hpipeline, -⟩ := run_without_stale
    start.pipeline.transport.registry ⟨1, 8, 8, 8, 100, 16⟩ oneStale hroom
  exact ⟨hroom, by decide +kernel, by decide +kernel, by decide +kernel, (hwire 1).1, hpipeline⟩

end Chronicle

end Peering
