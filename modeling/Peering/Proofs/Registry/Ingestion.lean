import Peering.Endpoint.Frames
import Peering.Proofs.Registry.Moves

/-!
# Taking in candidates

Candidates are offered one after the other, and each that is taken changes what the
next one finds. All of it comes to one pass over the offered list all the same: a
candidate that is taken shuts out only later ones with its own id hash, and the room
in the queue is all that it uses up. As nothing makes room again, the first candidate
that finds the queue full is also the last that had to be tried.

Main statement: gossip queues the first of the entries that are welcome, each id hash
once, as far as there is room.
-/

namespace Peering

/-- Of the nodes that share an id hash, the first. -/
def firstOfEach : List Node → List Node
  | [] => []
  | node :: rest => node :: (firstOfEach rest).filter (·.idHash ≠ node.idHash)

/-- A test of id hashes may be made before or after. -/
theorem filter_firstOfEach (test : IdHash → Bool) (nodes : List Node) :
    (firstOfEach nodes).filter (test ·.idHash) = firstOfEach (nodes.filter (test ·.idHash)) := by
  induction nodes with
  | nil => rfl
  | cons node rest ih =>
      cases hnode : test node.idHash with
      | true =>
          simp only [firstOfEach, List.filter_cons, hnode, if_true, ← ih, List.filter_filter,
            Bool.and_comm]
      | false =>
          -- The filter for the head's id hash takes nothing that the test would keep.
          simp only [firstOfEach, List.filter_cons, hnode, Bool.false_eq_true, if_false, ← ih,
            List.filter_filter]
          refine List.filter_congr fun other _ => ?_
          by_cases hsame : other.idHash = node.idHash
          · simp [hsame, hnode]
          · simp [hsame]

theorem mem_of_mem_firstOfEach {nodes : List Node} {node : Node}
    (hmem : node ∈ firstOfEach nodes) : node ∈ nodes := by
  induction nodes with
  | nil => exact hmem
  | cons head rest ih =>
      rcases List.mem_cons.mp hmem with rfl | hrest
      · exact List.mem_cons_self
      · exact List.mem_cons_of_mem _ (ih (List.mem_filter.mp hrest).1)

/-- Every id hash keeps a node. -/
theorem exists_mem_firstOfEach {nodes : List Node} {node : Node} (hmem : node ∈ nodes) :
    ∃ first ∈ firstOfEach nodes, first.idHash = node.idHash := by
  induction nodes with
  | nil => cases hmem
  | cons head rest ih =>
      by_cases hsame : head.idHash = node.idHash
      · exact ⟨head, List.mem_cons_self, hsame⟩
      · have hrest : node ∈ rest :=
          (List.mem_cons.mp hmem).resolve_left fun heq => hsame (heq ▸ rfl)
        obtain ⟨first, hfirst, hhash⟩ := ih hrest
        have hother : first.idHash ≠ head.idHash := fun heq => hsame (heq.symm.trans hhash)
        exact ⟨first, List.mem_cons_of_mem _ (List.mem_filter.mpr ⟨hfirst, by simpa using hother⟩),
          hhash⟩

namespace Registry

variable {registry : Registry} {now : Nat} {node : Node}

/-! ## Who is welcome -/

/-- A candidate is welcome unless it is us, banned, active, being dialed or queued already. -/
def welcomes (registry : Registry) (now : Nat) (node : Node) : Bool :=
  !registry.isSelf node && !registry.isBanned now node.idHash
    && !registry.isActive node.idHash && !registry.isDialed node.idHash
    && !registry.inTemp node.idHash

/-- How many more candidates the queue takes. -/
def room (registry : Registry) : Nat :=
  registry.limits.maxTemp - registry.temp.length

/-- A candidate as it stands in the queue. -/
def queuedAt (now : Nat) (node : Node) : Node :=
  { node with since := now, conn := none }

/-- The registry with more candidates at the end of its queue. -/
def queueing (registry : Registry) (nodes : List Node) : Registry :=
  { registry with temp := registry.temp ++ nodes }

/-- Those of the offered candidates that are going to be queued. -/
def newcomers (registry : Registry) (now : Nat) (nodes : List Node) : List Node :=
  (firstOfEach (nodes.filter (registry.welcomes now))).take registry.room

/-- A candidate is refused for itself, or for want of room, or queued. -/
theorem addTemp_cases (registry : Registry) (now : Nat) (node : Node) :
    (registry.welcomes now node = false ∧
      ∃ error, error ≠ .full ∧ registry.addTemp now node = .error error) ∨
    (registry.welcomes now node = true ∧ registry.room = 0 ∧
      registry.addTemp now node = .error .full) ∨
    (registry.welcomes now node = true ∧ 0 < registry.room ∧
      registry.addTemp now node = .ok (registry.queueing [queuedAt now node])) := by
  unfold addTemp
  split
  · rename_i hself
    exact Or.inl ⟨by simp [welcomes, hself], .isSelf, by decide, rfl⟩
  rename_i hself
  split
  · rename_i hbanned
    exact Or.inl ⟨by simp [welcomes, hbanned], .banned, by decide, rfl⟩
  rename_i hbanned
  split
  · rename_i hknown
    refine Or.inl ⟨?_, .alreadyKnown, by decide, rfl⟩
    rw [Bool.or_eq_true, Bool.or_eq_true] at hknown
    rcases hknown with (htemp | hactive) | hdialed
    · simp [welcomes, htemp]
    · simp [welcomes, hactive]
    · simp [welcomes, hdialed]
  rename_i hknown
  have hwelcome : registry.welcomes now node = true := by
    simp only [Bool.or_eq_true, not_or, Bool.not_eq_true] at hself hbanned hknown
    simp [welcomes, hself, hbanned, hknown]
  split
  · rename_i hfull
    exact Or.inr (Or.inl ⟨hwelcome, by rw [room]; omega, rfl⟩)
  · rename_i hroom
    exact Or.inr (Or.inr ⟨hwelcome, by rw [room]; omega, rfl⟩)

/-- A queued candidate shuts out those with its id hash, and no others. -/
theorem welcomes_queueing (registry : Registry) (nodes : List Node) (now : Nat) (node : Node) :
    (registry.queueing nodes).welcomes now node =
      (registry.welcomes now node && nodes.all (·.idHash ≠ node.idHash)) := by
  have htemp : (registry.queueing nodes).inTemp node.idHash =
      (registry.inTemp node.idHash || nodes.any (·.idHash == node.idHash)) :=
    List.any_append
  have hnone : nodes.all (·.idHash ≠ node.idHash) = !nodes.any (·.idHash == node.idHash) := by
    rw [List.not_any_eq_all_not]
    exact congrArg nodes.all (funext fun other => by rw [Bool.eq_iff_iff]; simp)
  rw [welcomes, htemp, hnone, Bool.not_or, ← Bool.and_assoc]
  rfl

theorem room_queueing (registry : Registry) (nodes : List Node) :
    (registry.queueing nodes).room = registry.room - nodes.length := by
  simp only [room, queueing, List.length_append]
  omega

/-! ## One candidate after the other -/

theorem newcomers_unwelcome (hwelcome : registry.welcomes now node = false) (rest : List Node) :
    registry.newcomers now (node :: rest) = registry.newcomers now rest := by
  rw [newcomers, List.filter_cons_of_neg (by simp [hwelcome]), newcomers]

theorem newcomers_full (hroom : registry.room = 0) (nodes : List Node) :
    registry.newcomers now nodes = [] := by
  rw [newcomers, hroom, List.take_zero]

theorem newcomers_welcome (hwelcome : registry.welcomes now node = true)
    (hroom : 0 < registry.room) (rest : List Node) :
    registry.newcomers now (node :: rest) =
      node :: (registry.queueing [queuedAt now node]).newcomers now rest := by
  have hrest : rest.filter ((registry.queueing [queuedAt now node]).welcomes now) =
      (rest.filter (registry.welcomes now)).filter (·.idHash ≠ node.idHash) := by
    rw [List.filter_filter]
    refine List.filter_congr fun other _ => ?_
    rw [welcomes_queueing, Bool.and_comm]
    simp [queuedAt, eq_comm]
  rw [newcomers, List.filter_cons_of_pos hwelcome, firstOfEach, newcomers, hrest, room_queueing,
    filter_firstOfEach (fun hash => decide (hash ≠ node.idHash))]
  exact List.take_cons hroom

/-- Offered one after the other, it is the newcomers that are queued, and they are counted. -/
theorem addAll_newcomers (registry : Registry) (now : Nat) (nodes : List Node) :
    registry.addAll now nodes =
      (registry.queueing ((registry.newcomers now nodes).map (queuedAt now)),
        (registry.newcomers now nodes).length) := by
  induction nodes generalizing registry with
  | nil => simp [addAll, newcomers, firstOfEach, queueing]
  | cons node rest ih =>
      rcases registry.addTemp_cases now node with
        ⟨hwelcome, error, -, hadd⟩ | ⟨-, hroom, hadd⟩ | ⟨hwelcome, hroom, hadd⟩
      · rw [addAll, hadd, newcomers_unwelcome hwelcome]
        exact ih registry
      · rw [addAll, hadd, newcomers_full hroom, ← newcomers_full hroom rest]
        exact ih registry
      · rw [addAll, hadd, newcomers_welcome hwelcome hroom]
        dsimp only
        rw [ih]
        simp [queueing]

/-- Those who have been queued, or found no room, are no newcomers any more. -/
theorem newcomers_queueing_newcomers (registry : Registry) (now : Nat) (nodes : List Node) :
    (registry.queueing ((registry.newcomers now nodes).map (queuedAt now))).newcomers now nodes
      = [] := by
  by_cases hfit : (firstOfEach (nodes.filter (registry.welcomes now))).length ≤ registry.room
  · have hqueued : registry.newcomers now nodes =
        firstOfEach (nodes.filter (registry.welcomes now)) := List.take_of_length_le hfit
    have hnone : nodes.filter ((registry.queueing
        ((registry.newcomers now nodes).map (queuedAt now))).welcomes now) = [] := by
      refine List.filter_eq_nil_iff.mpr fun node hnode hwelcome => ?_
      rw [welcomes_queueing, Bool.and_eq_true] at hwelcome
      obtain ⟨first, hfirst, hhash⟩ :=
        exists_mem_firstOfEach (List.mem_filter.mpr ⟨hnode, hwelcome.1⟩)
      have hother := List.all_eq_true.mp hwelcome.2 (queuedAt now first)
        (List.mem_map_of_mem (hqueued ▸ hfirst))
      exact of_decide_eq_true hother hhash
    rw [newcomers, hnone, firstOfEach, List.take_nil]
  · refine newcomers_full ?_ nodes
    rw [room_queueing, List.length_map, newcomers, List.length_take]
    omega

end Registry

/-! ## Gossip -/

namespace Endpoint

open Registry

/-- To stop at a full queue is no different from trying the candidates that are left. -/
theorem ingest_eq_addAll (registry : Registry) (now : Nat) (entries : List Gossip.Entry) :
    ingest now registry entries = registry.addAll now (entries.map (·.toNode now)) := by
  induction entries generalizing registry with
  | nil => rfl
  | cons entry rest ih =>
      rcases registry.addTemp_cases now (entry.toNode now) with
        ⟨-, error, hother, hadd⟩ | ⟨-, hroom, hadd⟩ | ⟨-, -, hadd⟩
      · rw [List.map_cons, addAll, hadd, ← ih, ingest, hadd]
        cases error <;> first | rfl | exact absurd rfl hother
      · rw [ingest, hadd, addAll_newcomers, newcomers_full hroom]
        simp [queueing]
      · rw [List.map_cons, addAll, hadd, ingest, hadd]
        dsimp only
        rw [ih]

/-- Gossip queues, in the order of its entries, the first that are welcome, each id hash
once, as far as there is room, and counts them; it changes nothing else. A candidate is
what its entry tells about it, as it is known from now on and without a connection.
Whether gossip stops where the queue is full makes no difference, and the same entries
again bring nobody. -/
theorem ingest_queues_newcomers (registry : Registry) (now : Nat) (entries : List Gossip.Entry) :
    let candidates : List Node := entries.map fun entry =>
      { id := entry.id
        idHash := entry.id.hash
        ip := entry.ip
        port := entry.port
        fromBootList := false
        lastSeen := now
        since := now
        bestBlock := entry.bestBlock
        totalDifficulty := entry.totalDifficulty
        revision := entry.revision
        latencyMs := none
        conn := none }
    let queued := (firstOfEach (candidates.filter (registry.welcomes now))).take
      (registry.limits.maxTemp - registry.temp.length)
    ingest now registry entries =
        ({ registry with temp := registry.temp ++ queued }, queued.length) ∧
      ingest now registry entries = registry.addAll now candidates ∧
      ingest now (ingest now registry entries).1 entries =
        ((ingest now registry entries).1, 0) := by
  intro candidates queued
  have hoffered (registry : Registry) :
      ingest now registry entries = registry.addAll now candidates :=
    ingest_eq_addAll registry now entries
  have hqueued : (registry.newcomers now candidates).map (queuedAt now) = queued := by
    refine (List.map_congr_left fun node hnode => ?_).trans (List.map_id _)
    have hcandidate : node ∈ candidates :=
      (List.mem_filter.mp (mem_of_mem_firstOfEach (List.mem_of_mem_take hnode))).1
    obtain ⟨entry, -, rfl⟩ := List.mem_map.mp hcandidate
    rfl
  refine ⟨?_, hoffered registry, ?_⟩
  · rw [hoffered, addAll_newcomers, hqueued]
    rfl
  · rw [hoffered, hoffered, addAll_newcomers, addAll_newcomers, newcomers_queueing_newcomers]
    simp [queueing]

end Endpoint

end Peering
