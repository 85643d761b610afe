import Peering.Proofs.Registry.Ingestion

/-!
# The order in which candidates are dialed

A candidate is looked at once: it is taken off the front of the queue first, and only
then is it seen whether it is to be dialed. One that is not is gone, and the next is
looked at. Time passes in between, so every candidate is judged by a clock of its own.

Main statement: the search for a candidate ends with the first that is to be dialed at
its look, or with an empty queue, and what it looked at is just what has left the queue.
Over any offers and searches, candidates are looked at in the order in which they were
queued, each once, and those that were to be dialed then are the ones handed out.
-/

namespace Peering

namespace Registry

/-- A look at the candidate in front. -/
structure Visit where
  node : Node
  now : Nat
  seedsOnly : Bool

/-- What a search for a candidate comes to. -/
structure Sought where
  answer : Option Node
  registry : Registry
  /-- The candidates that were looked at, in order. -/
  visits : List Visit

/-- Whether a candidate was to be dialed when it was looked at. -/
def qualifies (registry : Registry) (visit : Visit) : Bool :=
  registry.isDialable visit.now visit.seedsOnly visit.node

/-- The registry with another queue. -/
def withTemp (registry : Registry) (temp : List Node) : Registry :=
  { registry with temp := temp }

/--
Looks at one candidate after the other, the first at `clock 0`, until one is to be
dialed. It is judged by the registry that does not have it in its queue any more.
-/
def seek (registry : Registry) (seedsOnly : Bool) (clock : Nat → Nat) : Sought :=
  match htemp : registry.temp with
  | [] => ⟨none, registry, []⟩
  | node :: rest =>
      let left := registry.withTemp rest
      let visit : Visit := ⟨node, clock 0, seedsOnly⟩
      if left.qualifies visit then ⟨some node, left, [visit]⟩
      else
        let later := left.seek seedsOnly fun turn => clock (turn + 1)
        { later with visits := visit :: later.visits }
termination_by registry.temp.length
decreasing_by simp [withTemp, htemp]

variable {registry : Registry} {seedsOnly : Bool} {clock : Nat → Nat}

/-! ## One search -/

/-- The queue has no say in who is to be dialed. -/
@[simp] theorem qualifies_withTemp (registry : Registry) (temp : List Node) :
    (registry.withTemp temp).qualifies = registry.qualifies :=
  rfl

theorem seek_of_empty (htemp : registry.temp = []) :
    registry.seek seedsOnly clock = ⟨none, registry, []⟩ := by
  rw [seek]
  split
  · rfl
  · rename_i hcons
    rw [htemp] at hcons
    cases hcons

theorem seek_of_cons {node : Node} {rest : List Node} (htemp : registry.temp = node :: rest) :
    registry.seek seedsOnly clock =
      if registry.qualifies ⟨node, clock 0, seedsOnly⟩ then
        ⟨some node, registry.withTemp rest, [⟨node, clock 0, seedsOnly⟩]⟩
      else
        let later := (registry.withTemp rest).seek seedsOnly fun turn => clock (turn + 1)
        { later with visits := ⟨node, clock 0, seedsOnly⟩ :: later.visits } := by
  rw [seek]
  split
  · rename_i hnil
    rw [htemp] at hnil
    cases hnil
  · rename_i first others hcons
    rw [htemp] at hcons
    cases hcons
    rfl

/-- Looks at these candidates, one after the other. -/
def visitsOf (seedsOnly : Bool) (clock : Nat → Nat) (nodes : List Node) : List Visit :=
  nodes.mapIdx fun turn node => ⟨node, clock turn, seedsOnly⟩

theorem visitsOf_cons (seedsOnly : Bool) (clock : Nat → Nat) (node : Node) (rest : List Node) :
    visitsOf seedsOnly clock (node :: rest) =
      ⟨node, clock 0, seedsOnly⟩ :: visitsOf seedsOnly (fun turn => clock (turn + 1)) rest :=
  List.mapIdx_cons

theorem map_node_visitsOf (seedsOnly : Bool) (clock : Nat → Nat) (nodes : List Node) :
    (visitsOf seedsOnly clock nodes).map (·.node) = nodes := by
  induction nodes generalizing clock with
  | nil => rfl
  | cons node rest ih => rw [visitsOf_cons, List.map_cons, ih]

/-- The candidates that were in front of the first that was to be dialed. -/
def PassedOver (registry : Registry) (seedsOnly : Bool) (clock : Nat → Nat)
    (passed : List Node) : Prop :=
  ∀ turn node, passed[turn]? = some node → registry.isDialable (clock turn) seedsOnly node = false

theorem passedOver_nil (registry : Registry) (seedsOnly : Bool) (clock : Nat → Nat) :
    registry.PassedOver seedsOnly clock [] :=
  fun _ _ hnode => nomatch hnode

theorem PassedOver.cons {node : Node} {rest : List Node}
    (hnode : registry.isDialable (clock 0) seedsOnly node = false)
    (hrest : registry.PassedOver seedsOnly (fun turn => clock (turn + 1)) rest) :
    registry.PassedOver seedsOnly clock (node :: rest) := by
  intro turn other hother
  cases turn with
  | zero =>
      cases hother
      exact hnode
  | succ turn => exact hrest turn other hother

theorem PassedOver.filter_visitsOf {passed : List Node}
    (hpassed : registry.PassedOver seedsOnly clock passed) :
    (visitsOf seedsOnly clock passed).filter registry.qualifies = [] := by
  refine List.filter_eq_nil_iff.mpr fun visit hvisit => ?_
  obtain ⟨turn, hturn⟩ := List.mem_iff_getElem?.mp hvisit
  obtain ⟨node, hnode, rfl⟩ := Option.map_eq_some_iff.mp (List.getElem?_mapIdx.symm.trans hturn)
  simpa [qualifies] using hpassed turn node hnode

/-- A search ends with the first candidate that is to be dialed, or when none is left. -/
theorem seek_cases (registry : Registry) (seedsOnly : Bool) (clock : Nat → Nat) :
    ∃ passed, registry.PassedOver seedsOnly clock passed ∧
      ((∃ node rest, registry.temp = passed ++ node :: rest ∧
          registry.isDialable (clock passed.length) seedsOnly node = true ∧
          registry.seek seedsOnly clock = ⟨some node, registry.withTemp rest,
            visitsOf seedsOnly clock (passed ++ [node])⟩) ∨
        (registry.temp = passed ∧ registry.seek seedsOnly clock =
          ⟨none, registry.withTemp [], visitsOf seedsOnly clock passed⟩)) := by
  generalize hqueue : registry.temp = queue
  induction queue generalizing registry clock with
  | nil =>
      have hsame : registry.withTemp [] = registry := by rw [withTemp, ← hqueue]
      refine ⟨[], passedOver_nil _ _ _, Or.inr ⟨rfl, ?_⟩⟩
      rw [seek_of_empty hqueue, hsame]
      rfl
  | cons node rest ih =>
      rw [seek_of_cons hqueue]
      cases hnode : registry.qualifies ⟨node, clock 0, seedsOnly⟩ with
      | true =>
          exact ⟨[], passedOver_nil _ _ _, Or.inl ⟨node, rest, rfl, hnode, rfl⟩⟩
      | false =>
          obtain ⟨passed, hpassed, hcases⟩ :=
            ih (registry.withTemp rest) (fun turn => clock (turn + 1)) rfl
          refine ⟨node :: passed, .cons hnode hpassed, ?_⟩
          rcases hcases with ⟨found, later, hrest, hfound, hseek⟩ | ⟨hrest, hseek⟩
          · refine Or.inl ⟨found, later, congrArg (node :: ·) hrest, hfound, ?_⟩
            rw [hseek, List.cons_append, visitsOf_cons]
            rfl
          · refine Or.inr ⟨congrArg (node :: ·) hrest, ?_⟩
            rw [hseek, visitsOf_cons]
            rfl

/-- What was looked at has left the queue, and what was to be dialed then is the answer. -/
theorem seek_visits (registry : Registry) (seedsOnly : Bool) (clock : Nat → Nat) :
    let sought := registry.seek seedsOnly clock
    sought.registry = registry.withTemp sought.registry.temp ∧
      sought.visits.map (·.node) ++ sought.registry.temp = registry.temp ∧
      (sought.visits.filter registry.qualifies).map (·.node) = sought.answer.toList := by
  obtain ⟨passed, hpassed, ⟨node, rest, htemp, hnode, hseek⟩ | ⟨htemp, hseek⟩⟩ :=
    registry.seek_cases seedsOnly clock
  · have hlast : visitsOf seedsOnly clock (passed ++ [node]) =
        visitsOf seedsOnly clock passed ++ [⟨node, clock passed.length, seedsOnly⟩] :=
      List.mapIdx_concat
    have hfilter : [Visit.mk node (clock passed.length) seedsOnly].filter registry.qualifies =
        [⟨node, clock passed.length, seedsOnly⟩] := List.filter_cons_of_pos hnode
    rw [hseek]
    refine ⟨rfl, ?_, ?_⟩
    · rw [map_node_visitsOf, htemp]
      exact List.append_assoc _ _ _
    · rw [hlast, List.filter_append, hpassed.filter_visitsOf, hfilter]
      rfl
  · rw [hseek]
    refine ⟨rfl, ?_, ?_⟩
    · rw [map_node_visitsOf, htemp]
      exact List.append_nil _
    · rw [hpassed.filter_visitsOf]
      rfl

/-- With a clock that stands still, the search takes what the queue is cut to. -/
theorem takeTemp_eq_seek (registry : Registry) (now : Nat) (seedsOnly : Bool) :
    registry.takeTemp now seedsOnly =
      ((registry.seek seedsOnly fun _ => now).answer,
        (registry.seek seedsOnly fun _ => now).registry) := by
  obtain ⟨passed, hpassed, hcases⟩ := registry.seek_cases seedsOnly fun _ => now
  have hskipped : ∀ node ∈ passed, (!registry.isDialable now seedsOnly node) = true := by
    intro node hmem
    obtain ⟨turn, hturn⟩ := List.mem_iff_getElem?.mp hmem
    simpa using hpassed turn node hturn
  rcases hcases with ⟨node, rest, htemp, hnode, hseek⟩ | ⟨htemp, hseek⟩
  · have hdrop : registry.temp.dropWhile (fun node => !registry.isDialable now seedsOnly node) =
        node :: rest := by
      rw [htemp, List.dropWhile_append_of_pos hskipped,
        List.dropWhile_cons_of_neg (by simpa using hnode)]
    rw [hseek, takeTemp, hdrop]
    rfl
  · have hdrop : registry.temp.dropWhile (fun node => !registry.isDialable now seedsOnly node) =
        [] := by
      rw [htemp, ← List.append_nil passed, List.dropWhile_append_of_pos hskipped,
        List.dropWhile_nil]
    rw [hseek, takeTemp, hdrop]
    rfl

/-! ## Offers and searches -/

/-- A call on the queue. A search has a clock for its looks. -/
inductive QueueCall where
  | offer (now : Nat) (node : Node)
  | take (clock : Nat → Nat) (seedsOnly : Bool)

/-- What has gone through the queue over some calls. -/
structure Turnover where
  registry : Registry
  /-- The candidates that were queued, as they stand in the queue. -/
  queued : List Node
  visits : List Visit
  answers : List (Option Node)

namespace Turnover

def opening (registry : Registry) : Turnover :=
  ⟨registry, [], [], []⟩

def serve (turnover : Turnover) : QueueCall → Turnover
  | .offer now node =>
      match turnover.registry.addTemp now node with
      | .ok after =>
          { turnover with registry := after, queued := turnover.queued ++ [queuedAt now node] }
      | .error _ => turnover
  | .take clock seedsOnly =>
      let sought := turnover.registry.seek seedsOnly clock
      { turnover with
        registry := sought.registry
        visits := turnover.visits ++ sought.visits
        answers := turnover.answers ++ [sought.answer] }

def serveAll (turnover : Turnover) (calls : List QueueCall) : Turnover :=
  calls.foldl serve turnover

/-- The candidates that were handed out. -/
def dialed (turnover : Turnover) : List Node :=
  turnover.answers.filterMap id

/-- What was queued has been looked at or still waits, in the order in which it was queued. -/
structure InTurn (start : Registry) (turnover : Turnover) : Prop where
  elsewhere : turnover.registry = start.withTemp turnover.registry.temp
  queue : start.temp ++ turnover.queued =
    turnover.visits.map (·.node) ++ turnover.registry.temp
  dialed : turnover.dialed = (turnover.visits.filter start.qualifies).map (·.node)

variable {start : Registry} {turnover : Turnover}

theorem inTurn_opening (registry : Registry) : InTurn registry (opening registry) :=
  ⟨rfl, List.append_nil _, rfl⟩

theorem InTurn.withTemp_eq (h : InTurn start turnover) (temp : List Node) :
    turnover.registry.withTemp temp = start.withTemp temp := by
  rw [h.elsewhere]
  rfl

/-- Only the queue has changed, so candidates are judged as they were at the start. -/
theorem InTurn.qualifies_eq (h : InTurn start turnover) :
    turnover.registry.qualifies = start.qualifies := by
  rw [h.elsewhere, qualifies_withTemp]

theorem InTurn.offer (h : InTurn start turnover) (now : Nat) (node : Node) :
    InTurn start (turnover.serve (.offer now node)) := by
  rcases turnover.registry.addTemp_cases now node with
    ⟨-, error, -, hadd⟩ | ⟨-, -, hadd⟩ | ⟨-, -, hadd⟩
  · simp only [serve, hadd]
    exact h
  · simp only [serve, hadd]
    exact h
  · simp only [serve, hadd]
    refine ⟨?_, ?_, h.dialed⟩
    · rw [h.elsewhere]
      rfl
    · show start.temp ++ (turnover.queued ++ [queuedAt now node]) =
        turnover.visits.map (·.node) ++ (turnover.registry.temp ++ [queuedAt now node])
      rw [← List.append_assoc, h.queue, List.append_assoc]

theorem InTurn.take (h : InTurn start turnover) (clock : Nat → Nat) (seedsOnly : Bool) :
    InTurn start (turnover.serve (.take clock seedsOnly)) := by
  obtain ⟨helsewhere, hqueue, hdialed⟩ := turnover.registry.seek_visits seedsOnly clock
  refine ⟨?_, ?_, ?_⟩
  · exact helsewhere.trans (h.withTemp_eq _)
  · show start.temp ++ turnover.queued =
      (turnover.visits ++ (turnover.registry.seek seedsOnly clock).visits).map (·.node) ++
        (turnover.registry.seek seedsOnly clock).registry.temp
    rw [h.queue, List.map_append, List.append_assoc, hqueue]
  · show (turnover.answers ++ [(turnover.registry.seek seedsOnly clock).answer]).filterMap id =
      ((turnover.visits ++ (turnover.registry.seek seedsOnly clock).visits).filter
        start.qualifies).map (·.node)
    have hbefore : turnover.answers.filterMap id = _ := h.dialed
    rw [h.qualifies_eq] at hdialed
    rw [List.filterMap_append, hbefore, List.filter_append, List.map_append, hdialed]
    cases (turnover.registry.seek seedsOnly clock).answer <;> rfl

theorem inTurn_serveAll (registry : Registry) (calls : List QueueCall) :
    InTurn registry ((opening registry).serveAll calls) := by
  have hserve : ∀ turnover, InTurn registry turnover → ∀ calls : List QueueCall,
      InTurn registry (turnover.serveAll calls) := by
    intro turnover h calls
    induction calls generalizing turnover with
    | nil => exact h
    | cons call rest ih =>
        cases call with
        | offer now node => exact ih _ (h.offer now node)
        | take clock seedsOnly => exact ih _ (h.take clock seedsOnly)
  exact hserve _ (inTurn_opening registry) calls

/-- The candidates that were handed out are some of the queued ones, each once, in their order. -/
theorem InTurn.dialed_sublist (h : InTurn start turnover) :
    turnover.dialed.Sublist (start.temp ++ turnover.queued) := by
  rw [h.dialed, h.queue]
  exact (List.filter_sublist.map _).trans (List.sublist_append_left _ _)

end Turnover

/--
A search ends. It hands out the first candidate in the queue that is to be dialed when
it is looked at, and that one and those before it leave the queue; if there is none,
the queue is empty afterwards. Taking a candidate is such a search. Over any offers and
searches the candidates are looked at in the order in which they were queued, each
once; the ones handed out are just those that were to be dialed then, and nothing but
the queue changes.
-/
theorem served_in_turn (registry : Registry) :
    (∀ seedsOnly clock, ∃ passed : List Node,
      (∀ turn node, passed[turn]? = some node →
        registry.isDialable (clock turn) seedsOnly node = false) ∧
      ((∃ node rest, registry.temp = passed ++ node :: rest ∧
          registry.isDialable (clock passed.length) seedsOnly node = true ∧
          (registry.seek seedsOnly clock).answer = some node ∧
          (registry.seek seedsOnly clock).registry = { registry with temp := rest }) ∨
        (registry.temp = passed ∧ (registry.seek seedsOnly clock).answer = none ∧
          (registry.seek seedsOnly clock).registry = { registry with temp := [] }))) ∧
    (∀ now seedsOnly, registry.takeTemp now seedsOnly =
      ((registry.seek seedsOnly fun _ => now).answer,
        (registry.seek seedsOnly fun _ => now).registry)) ∧
    ∀ calls, let served := (Turnover.opening registry).serveAll calls
      served.registry = { registry with temp := served.registry.temp } ∧
      registry.temp ++ served.queued = served.visits.map (·.node) ++ served.registry.temp ∧
      served.dialed = (served.visits.filter registry.qualifies).map (·.node) ∧
      served.dialed.Sublist (registry.temp ++ served.queued) := by
  refine ⟨fun seedsOnly clock => ?_, fun now seedsOnly => takeTemp_eq_seek registry now seedsOnly,
    fun calls => ?_⟩
  · obtain ⟨passed, hpassed, ⟨node, rest, htemp, hnode, hseek⟩ | ⟨htemp, hseek⟩⟩ :=
      registry.seek_cases seedsOnly clock
    · refine ⟨passed, hpassed, Or.inl ⟨node, rest, htemp, hnode, ?_, ?_⟩⟩
      · rw [hseek]
      · rw [hseek, withTemp]
    · refine ⟨passed, hpassed, Or.inr ⟨htemp, ?_, ?_⟩⟩
      · rw [hseek]
      · rw [hseek, withTemp]
  · have hserved := Turnover.inTurn_serveAll registry calls
    exact ⟨hserved.elsewhere, hserved.queue, hserved.dialed, hserved.dialed_sublist⟩

end Registry

end Peering
