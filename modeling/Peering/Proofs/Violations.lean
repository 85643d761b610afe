import Mathlib.Data.List.Dedup
import Mathlib.Data.List.Induction
import Mathlib.Data.List.Perm.Subperm
import Peering.Violations

/-!
# Counts that are forgotten

Counts are kept for a bounded number of peers, the latest violation first. Whoever
stands ahead of a peer has had a violation since the peer's last one, so a count is
forgotten only after as many others have had one as peers are remembered. While it is
not forgotten, a count is that of a counter of its own, and the tolerance is crossed
at every violation one past it.
-/

namespace Peering

namespace Violations

variable {violations : Violations} {tolerance capacity room : Nat} {peer other : IdHash}
  {calls before later : List IdHash} {entries : List (IdHash × Nat)}

/-! ## Lists of counts -/

/-- The count of a peer in a list of counts. -/
def countIn (entries : List (IdHash × Nat)) (peer : IdHash) : Nat :=
  ((entries.find? (·.1 == peer)).map (·.2)).getD 0

/-- The counts that stand ahead of a peer's. -/
def ahead (entries : List (IdHash × Nat)) (peer : IdHash) : List (IdHash × Nat) :=
  entries.takeWhile (·.1 ≠ peer)

theorem countIn_cons_self (count : Nat) : countIn ((peer, count) :: entries) peer = count := by
  simp [countIn]

theorem countIn_cons_other {count : Nat} (hother : other ≠ peer) :
    countIn ((other, count) :: entries) peer = countIn entries peer := by
  simp [countIn, hother]

theorem countIn_eq_zero (hout : peer ∉ entries.map (·.1)) : countIn entries peer = 0 := by
  have hnone : entries.find? (·.1 == peer) = none := by
    refine List.find?_eq_none.mpr fun entry hmem hsame => hout ?_
    exact List.mem_map.mpr ⟨entry, hmem, beq_iff_eq.mp hsame⟩
  rw [countIn, hnone]
  rfl

theorem countIn_filter (hother : other ≠ peer) :
    countIn (entries.filter (·.1 ≠ other)) peer = countIn entries peer := by
  induction entries with
  | nil => rfl
  | cons entry rest ih =>
      obtain ⟨first, count⟩ := entry
      by_cases hsame : first = other
      · subst hsame
        rw [countIn_cons_other hother, ← ih]
        simp
      · by_cases hfirst : first = peer
        · subst hfirst
          rw [List.filter_cons_of_pos (by simpa using hsame), countIn_cons_self, countIn_cons_self]
        · rw [List.filter_cons_of_pos (by simpa using hsame), countIn_cons_other hfirst,
            countIn_cons_other hfirst, ih]

theorem countIn_eq_zero_iff (hpositive : ∀ entry ∈ entries, 1 ≤ entry.2) :
    countIn entries peer = 0 ↔ peer ∉ entries.map (·.1) := by
  refine ⟨fun hzero hmem => ?_, countIn_eq_zero⟩
  induction entries with
  | nil => cases hmem
  | cons entry rest ih =>
      obtain ⟨first, count⟩ := entry
      by_cases hfirst : first = peer
      · rw [hfirst, countIn_cons_self] at hzero
        have hcount := hpositive (first, count) List.mem_cons_self
        simp only [hzero] at hcount
        exact absurd hcount (by decide)
      · rw [countIn_cons_other hfirst] at hzero
        rcases List.mem_cons.mp hmem with hsame | hrest
        · exact hfirst hsame.symm
        · exact ih (fun entry hmem => hpositive entry (List.mem_cons_of_mem _ hmem)) hzero hrest

/-- A count is kept if there is room for it and for those ahead of it. -/
theorem countIn_take (hroom : (ahead entries peer).length < room) :
    countIn (entries.take room) peer = countIn entries peer := by
  induction entries generalizing room with
  | nil => rw [List.take_nil]
  | cons entry rest ih =>
      obtain ⟨first, count⟩ := entry
      cases room with
      | zero => exact absurd hroom (Nat.not_lt_zero _)
      | succ room =>
          by_cases hfirst : first = peer
          · rw [List.take_succ_cons, hfirst, countIn_cons_self, countIn_cons_self]
          · rw [List.take_succ_cons, countIn_cons_other hfirst, countIn_cons_other hfirst]
            refine ih ?_
            simpa [ahead, List.takeWhile_cons, hfirst] using hroom

theorem ahead_take_subset (entries : List (IdHash × Nat)) (room : Nat) (peer : IdHash) :
    ahead (entries.take room) peer ⊆ ahead entries peer := by
  induction entries generalizing room with
  | nil => rw [List.take_nil]; exact fun _ => id
  | cons entry rest ih =>
      cases room with
      | zero => exact List.nil_subset _
      | succ room =>
          by_cases hfirst : entry.1 = peer
          · simp [ahead, hfirst]
          · simp only [ahead, List.take_succ_cons, List.takeWhile_cons, hfirst, ne_eq,
              not_false_eq_true, decide_true, if_true]
            exact List.cons_subset_cons entry (ih room)

theorem ahead_filter (hother : other ≠ peer) :
    ahead (entries.filter (·.1 ≠ other)) peer = (ahead entries peer).filter (·.1 ≠ other) := by
  induction entries with
  | nil => rfl
  | cons entry rest ih =>
      by_cases hfirst : entry.1 = peer
      · simp [ahead, hfirst, hother.symm]
      · by_cases hsame : entry.1 = other
        · simpa [ahead, hsame, hother] using ih
        · simpa [ahead, hsame, hfirst] using ih

/-! ## One record -/

@[simp] theorem record_tolerance (violations : Violations) (peer : IdHash) :
    (violations.record peer).1.tolerance = violations.tolerance := by
  unfold record
  dsimp only
  split <;> rfl

@[simp] theorem record_capacity (violations : Violations) (peer : IdHash) :
    (violations.record peer).1.capacity = violations.capacity := by
  unfold record
  dsimp only
  split <;> rfl

/-- What a record leaves: the counts of others, headed by the new count unless it crosses. -/
theorem record_cases (violations : Violations) (peer : IdHash) :
    (violations.tolerance < violations.count peer + 1 ∧ (violations.record peer).2 = true ∧
      (violations.record peer).1.recent = violations.others peer) ∨
    (violations.count peer + 1 ≤ violations.tolerance ∧ (violations.record peer).2 = false ∧
      (violations.record peer).1.recent =
        (peer, violations.count peer + 1) :: violations.others peer) := by
  unfold record
  dsimp only
  split
  · rename_i hcrossed
    exact Or.inl ⟨hcrossed, rfl, rfl⟩
  · rename_i hwithin
    exact Or.inr ⟨Nat.le_of_not_lt hwithin, rfl, rfl⟩

theorem record_crosses_iff :
    (violations.record peer).2 = true ↔ violations.tolerance < violations.count peer + 1 := by
  rcases violations.record_cases peer with ⟨hcrossed, hanswer, _⟩ | ⟨hwithin, hanswer, _⟩
  · exact iff_of_true hanswer hcrossed
  · rw [hanswer]
    exact iff_of_false Bool.false_ne_true (Nat.not_lt.mpr hwithin)

theorem others_sublist (violations : Violations) (peer : IdHash) :
    (violations.others peer).Sublist violations.recent :=
  (List.take_sublist _ _).trans List.filter_sublist

theorem not_mem_others (violations : Violations) (peer : IdHash) :
    peer ∉ (violations.others peer).map (·.1) := by
  intro hmem
  obtain ⟨entry, hentry, hsame⟩ := List.mem_map.mp hmem
  have hne := List.of_mem_filter (List.mem_of_mem_take hentry)
  simp [hsame] at hne

theorem length_others_le (violations : Violations) (peer : IdHash) :
    (violations.others peer).length ≤ violations.capacity - 1 :=
  List.length_take_le _ _

/-- A peer's own record clears its count if it crosses, and raises it otherwise. -/
theorem count_record_self (violations : Violations) (peer : IdHash) :
    (violations.record peer).1.count peer =
      if violations.tolerance < violations.count peer + 1 then 0 else violations.count peer + 1 := by
  rcases violations.record_cases peer with ⟨hcrossed, _, hrecent⟩ | ⟨hwithin, _, hrecent⟩
  · rw [if_pos hcrossed, count, hrecent]
    exact countIn_eq_zero (violations.not_mem_others peer)
  · rw [if_neg (Nat.not_lt.mpr hwithin), count, hrecent]
    exact countIn_cons_self _

theorem count_record_other_eq (hother : other ≠ peer) :
    (violations.record other).1.count peer = countIn (violations.others other) peer := by
  rcases violations.record_cases other with ⟨_, _, hrecent⟩ | ⟨_, _, hrecent⟩
  · rw [count, hrecent]
    rfl
  · rw [count, hrecent]
    exact countIn_cons_other hother

/-- The record of another peer leaves a count as it is if there is room for those ahead of it. -/
theorem count_record_other (hother : other ≠ peer)
    (hroom : ((ahead violations.recent peer).filter (·.1 ≠ other)).length <
      violations.capacity - 1) :
    (violations.record other).1.count peer = violations.count peer := by
  rw [← ahead_filter hother] at hroom
  rw [count_record_other_eq hother, others, countIn_take hroom, countIn_filter hother]
  rfl

/-! ## Counts in order -/

/-- No peer has two counts, there are no more than fit, and all are within the tolerance. -/
structure Sound (violations : Violations) : Prop where
  nodup : (violations.recent.map (·.1)).Nodup
  positive : 0 < violations.capacity
  room : violations.size ≤ violations.capacity
  within : ∀ entry ∈ violations.recent, 1 ≤ entry.2 ∧ entry.2 ≤ violations.tolerance

theorem sound_create (tolerance capacity : Nat) : Sound (create tolerance capacity) where
  nodup := List.nodup_nil
  positive := Nat.le_max_right capacity 1
  room := Nat.zero_le _
  within := nofun

theorem Sound.record (hsound : Sound violations) (peer : IdHash) :
    Sound (violations.record peer).1 := by
  have hsublist := violations.others_sublist peer
  have hnodup : ((violations.others peer).map (·.1)).Nodup :=
    hsound.nodup.sublist (hsublist.map _)
  have hlength := violations.length_others_le peer
  have hpositive := hsound.positive
  rcases violations.record_cases peer with ⟨_, _, hrecent⟩ | ⟨hwithin, _, hrecent⟩
  · refine ⟨by rwa [hrecent], by rwa [record_capacity], ?_, fun entry hmem => ?_⟩
    · rw [size, hrecent, record_capacity]
      omega
    · rw [record_tolerance]
      rw [hrecent] at hmem
      exact hsound.within entry (hsublist.subset hmem)
  · refine ⟨?_, by rwa [record_capacity], ?_, fun entry hmem => ?_⟩
    · rw [hrecent, List.map_cons]
      exact List.nodup_cons.mpr ⟨violations.not_mem_others peer, hnodup⟩
    · rw [size, hrecent, record_capacity, List.length_cons]
      omega
    · rw [record_tolerance]
      rw [hrecent] at hmem
      rcases List.mem_cons.mp hmem with rfl | hold
      · exact ⟨Nat.le_add_left 1 _, hwithin⟩
      · exact hsound.within entry (hsublist.subset hold)

/--
A count at the front of those that are kept. A peer that is there already moves; for
a new one the last in the row has to go when there is no more room.
-/
def put (room : Nat) (entries : List (IdHash × Nat)) (peer : IdHash) (count : Nat) :
    List (IdHash × Nat) :=
  if peer ∈ entries.map (·.1) then (peer, count) :: entries.filter (·.1 ≠ peer)
  else if entries.length < room then (peer, count) :: entries
  else (peer, count) :: entries.dropLast

theorem filter_of_absent (hout : peer ∉ entries.map (·.1)) :
    entries.filter (·.1 ≠ peer) = entries := by
  refine List.filter_eq_self.mpr fun entry hmem => decide_eq_true fun hsame => hout ?_
  exact List.mem_map.mpr ⟨entry, hmem, hsame⟩

theorem Sound.put_eq (hsound : Sound violations) (peer : IdHash) (count : Nat) :
    put violations.capacity violations.recent peer count =
      (peer, count) :: violations.others peer := by
  have hroom : violations.recent.length ≤ violations.capacity := hsound.room
  unfold put others
  split
  · rename_i hheld
    obtain ⟨entry, hentry, hsame⟩ := List.mem_map.mp hheld
    have hfewer : (violations.recent.filter (·.1 ≠ peer)).length < violations.recent.length :=
      List.length_filter_lt_length_iff_exists.mpr ⟨entry, hentry, by simp [hsame]⟩
    rw [List.take_of_length_le (by omega)]
  · rename_i hout
    rw [filter_of_absent hout]
    split
    · rw [List.take_of_length_le (by omega)]
    · rename_i hfull
      have hlength : violations.recent.length = violations.capacity := by omega
      rw [List.dropLast_eq_take, hlength]

/-- A record puts the count one up, and takes it out again if it crosses the tolerance. -/
theorem Sound.record_recent (hsound : Sound violations) (peer : IdHash) :
    (violations.record peer).1.recent =
      let held := put violations.capacity violations.recent peer (violations.count peer + 1)
      if (violations.record peer).2 then held.filter (·.1 ≠ peer) else held := by
  rw [hsound.put_eq]
  rcases violations.record_cases peer with ⟨_, hanswer, hrecent⟩ | ⟨_, hanswer, hrecent⟩
  · have hout := filter_of_absent (violations.not_mem_others peer)
    rw [hrecent, hanswer]
    simpa using hout.symm
  · rw [hrecent, hanswer]
    rfl

/-- A peer without a count gets none by the record of another. -/
theorem Sound.count_other_of_zero (hsound : Sound violations) (hother : other ≠ peer)
    (hzero : violations.count peer = 0) : (violations.record other).1.count peer = 0 := by
  have hout := (countIn_eq_zero_iff fun entry hmem => (hsound.within entry hmem).1).mp hzero
  rw [count_record_other_eq hother]
  exact countIn_eq_zero fun hmem => hout (((violations.others_sublist other).map _).subset hmem)

/-! ## Many records -/

def recordAll (violations : Violations) (calls : List IdHash) : Violations :=
  calls.foldl (fun violations peer => (violations.record peer).1) violations

@[simp] theorem recordAll_append (violations : Violations) (before later : List IdHash) :
    violations.recordAll (before ++ later) = (violations.recordAll before).recordAll later :=
  List.foldl_append

theorem recordAll_concat (violations : Violations) (calls : List IdHash) (peer : IdHash) :
    violations.recordAll (calls ++ [peer]) = ((violations.recordAll calls).record peer).1 := by
  rw [recordAll_append]
  rfl

theorem recordAll_terms (violations : Violations) (calls : List IdHash) :
    (violations.recordAll calls).tolerance = violations.tolerance ∧
      (violations.recordAll calls).capacity = violations.capacity := by
  induction calls generalizing violations with
  | nil => exact ⟨rfl, rfl⟩
  | cons peer rest ih =>
      obtain ⟨htolerance, hcapacity⟩ := ih (violations.record peer).1
      exact ⟨htolerance.trans (violations.record_tolerance peer),
        hcapacity.trans (violations.record_capacity peer)⟩

theorem Sound.recordAll (hsound : Sound violations) (calls : List IdHash) :
    Sound (violations.recordAll calls) := by
  induction calls generalizing violations with
  | nil => exact hsound
  | cons peer rest ih => exact ih (hsound.record peer)

/-! ## Who stands ahead -/

/-- The calls after the last one for a peer; all of them if there is none. -/
def sinceLast (peer : IdHash) (calls : List IdHash) : List IdHash :=
  (calls.reverse.takeWhile (· ≠ peer)).reverse

theorem sinceLast_concat (peer other : IdHash) (calls : List IdHash) :
    sinceLast peer (calls ++ [other]) = if other = peer then [] else sinceLast peer calls ++ [other] := by
  by_cases hother : other = peer
  · simp [sinceLast, hother]
  · simp [sinceLast, hother]

/-- Whoever stands ahead of a peer's count has been recorded since. -/
def Follows (violations : Violations) (peer : IdHash) (since : List IdHash) : Prop :=
  peer ∈ violations.recent.map (·.1) →
    ∀ entry ∈ ahead violations.recent peer, entry.1 ∈ since

theorem Follows.record {since : List IdHash} (hfollows : Follows violations peer since)
    (other : IdHash) :
    Follows (violations.record other).1 peer (if other = peer then [] else since ++ [other]) := by
  by_cases hother : other = peer
  · subst hother
    rcases violations.record_cases other with ⟨_, _, hrecent⟩ | ⟨_, _, hrecent⟩
    · intro hmem
      rw [hrecent] at hmem
      exact absurd hmem (violations.not_mem_others other)
    · intro _ entry hentry
      rw [hrecent] at hentry
      simp [ahead] at hentry
  · rw [if_neg hother]
    have hothers : peer ∈ (violations.others other).map (·.1) →
        ∀ entry ∈ ahead (violations.others other) peer, entry.1 ∈ since ++ [other] := by
      intro hmem entry hentry
      have hheld := ((violations.others_sublist other).map _).subset hmem
      have hentry := ahead_take_subset _ _ peer hentry
      rw [ahead_filter hother] at hentry
      exact List.mem_append_left _ (hfollows hheld entry (List.mem_filter.mp hentry).1)
    rcases violations.record_cases other with ⟨_, _, hrecent⟩ | ⟨_, _, hrecent⟩
    · intro hmem entry hentry
      rw [hrecent] at hmem hentry
      exact hothers hmem entry hentry
    · intro hmem entry hentry
      rw [hrecent] at hmem hentry
      have hkept : peer ∈ (violations.others other).map (·.1) := by
        rcases List.mem_cons.mp hmem with hsame | hkept
        · exact absurd hsame.symm hother
        · exact hkept
      have hsplit : ahead ((other, violations.count other + 1) :: violations.others other) peer =
          (other, violations.count other + 1) :: ahead (violations.others other) peer := by
        simp [ahead, hother]
      rw [hsplit] at hentry
      rcases List.mem_cons.mp hentry with rfl | hentry
      · exact List.mem_append_right _ (List.mem_singleton_self other)
      · exact hothers hkept entry hentry

theorem follows_recordAll (tolerance capacity : Nat) (peer : IdHash) (calls : List IdHash) :
    Follows ((create tolerance capacity).recordAll calls) peer (sinceLast peer calls) := by
  induction calls using List.reverseRecOn with
  | nil => exact fun hmem => absurd hmem List.not_mem_nil
  | append_singleton calls other ih =>
      rw [recordAll_concat, sinceLast_concat]
      exact ih.record other

/-- A count that goes with the record of another peer has all the room ahead of it. -/
theorem Sound.capacity_le_of_forgotten {since : List IdHash} (hsound : Sound violations)
    (hfollows : Follows violations peer since) (hother : other ≠ peer)
    (hforgotten : (violations.record other).1.count peer ≠ violations.count peer) :
    violations.capacity ≤ (since ++ [other]).dedup.length := by
  have hheld : peer ∈ violations.recent.map (·.1) := by
    by_contra hout
    have hzero : violations.count peer = 0 := countIn_eq_zero hout
    exact hforgotten ((hsound.count_other_of_zero hother hzero).trans hzero.symm)
  let between := ((ahead violations.recent peer).filter (·.1 ≠ other)).map (·.1)
  have hfull : violations.capacity - 1 ≤ between.length := by
    rw [List.length_map]
    exact Nat.le_of_not_lt fun hroom => hforgotten (count_record_other hother hroom)
  have hnodup : (other :: between).Nodup := by
    refine List.nodup_cons.mpr ⟨fun hmem => ?_, ?_⟩
    · obtain ⟨entry, hentry, hsame⟩ := List.mem_map.mp hmem
      have hne := (List.mem_filter.mp hentry).2
      simp [hsame] at hne
    · exact hsound.nodup.sublist
        ((List.filter_sublist.trans (List.takeWhile_sublist _)).map _)
  have hsubset : other :: between ⊆ (since ++ [other]).dedup := by
    intro id hmem
    refine List.mem_dedup.mpr ?_
    rcases List.mem_cons.mp hmem with rfl | hmem
    · exact List.mem_append_right _ (List.mem_singleton_self id)
    · obtain ⟨entry, hentry, rfl⟩ := List.mem_map.mp hmem
      exact List.mem_append_left _ (hfollows hheld entry (List.mem_filter.mp hentry).1)
  have hlength := (hnodup.subperm hsubset).length_le
  rw [List.length_cons] at hlength
  omega

/-! ## A counter of its own -/

/-- No record of another peer takes the count of this one away. -/
def Retains (violations : Violations) (peer : IdHash) (calls : List IdHash) : Prop :=
  ∀ before other later, calls = before ++ other :: later → other ≠ peer →
    ((violations.recordAll before).record other).1.count peer =
      (violations.recordAll before).count peer

theorem Retains.of_append (hretains : Retains violations peer (calls ++ later)) :
    Retains violations peer calls := by
  rintro before other rest rfl hother
  exact hretains before other (rest ++ later) (List.append_assoc _ _ _) hother

/-- A counter that starts again one past the tolerance counts modulo that. -/
theorem add_one_mod (count tolerance : Nat) :
    (count + 1) % (tolerance + 1) =
      if tolerance < count % (tolerance + 1) + 1 then 0 else count % (tolerance + 1) + 1 := by
  have hbelow : count % (tolerance + 1) < tolerance + 1 := Nat.mod_lt _ (Nat.succ_pos tolerance)
  rw [← Nat.mod_add_mod]
  split
  · rename_i hcrossed
    have hlast : count % (tolerance + 1) = tolerance := by omega
    rw [hlast, Nat.mod_self]
  · rename_i hwithin
    exact Nat.mod_eq_of_lt (by omega)

/-- A count that is never taken away starts again at every violation one past the tolerance. -/
theorem count_of_retains
    (hretains : Retains (create tolerance capacity) peer calls) :
    ((create tolerance capacity).recordAll calls).count peer =
      calls.count peer % (tolerance + 1) := by
  induction calls using List.reverseRecOn with
  | nil => rw [List.count_nil, Nat.zero_mod]; rfl
  | append_singleton calls other ih =>
      have hcount := ih hretains.of_append
      rw [recordAll_concat, List.count_append]
      by_cases hother : other = peer
      · subst hother
        have hterms := (recordAll_terms (create tolerance capacity) calls).1
        rw [count_record_self, hcount, hterms, List.count_singleton_self, add_one_mod]
        rfl
      · have hnone : List.count peer [other] = 0 := by simp [hother]
        rw [hretains calls other [] rfl hother, hcount, hnone]
        rfl

theorem crosses_of_retains
    (hretains : Retains (create tolerance capacity) peer calls) :
    (((create tolerance capacity).recordAll calls).record peer).2 = true ↔
      (calls.count peer + 1) % (tolerance + 1) = 0 := by
  have hterms := (recordAll_terms (create tolerance capacity) calls).1
  rw [record_crosses_iff, count_of_retains hretains, hterms, add_one_mod]
  split
  · rename_i hcrossed
    exact iff_of_true hcrossed rfl
  · rename_i hwithin
    exact iff_of_false hwithin (Nat.succ_ne_zero _)

/-! ## Records that come soon enough -/

/-- Fewer different others than so many between any two records of a peer that follow each other. -/
def Spaced (capacity : Nat) (peer : IdHash) (calls : List IdHash) : Prop :=
  ∀ before later, calls = before ++ peer :: later → peer ∈ before →
    (sinceLast peer before).dedup.length < capacity

theorem Spaced.of_append (hspaced : Spaced capacity peer (calls ++ later)) :
    Spaced capacity peer calls := by
  rintro before rest rfl hrecorded
  exact hspaced before (rest ++ later) (List.append_assoc _ _ _) hrecorded

theorem sinceLast_append (hout : peer ∉ later) :
    sinceLast peer (calls ++ later) = sinceLast peer calls ++ later := by
  induction later using List.reverseRecOn with
  | nil => rw [List.append_nil, List.append_nil]
  | append_singleton later other ih =>
      rw [List.mem_append, List.mem_singleton, not_or] at hout
      rw [← List.append_assoc, sinceLast_concat, if_neg (Ne.symm hout.2), ih hout.1,
        List.append_assoc]

theorem length_dedup_le_of_append (first second : List IdHash) :
    first.dedup.length ≤ (first ++ second).dedup.length := by
  refine ((List.nodup_dedup first).subperm fun id hmem => ?_).length_le
  exact List.mem_dedup.mpr (List.mem_append_left _ (List.mem_dedup.mp hmem))

theorem count_of_unrecorded (hout : peer ∉ calls) :
    ((create tolerance capacity).recordAll calls).count peer = 0 := by
  induction calls using List.reverseRecOn with
  | nil => rfl
  | append_singleton calls other ih =>
      rw [List.mem_append, List.mem_singleton, not_or] at hout
      rw [recordAll_concat]
      exact ((sound_create tolerance capacity).recordAll calls).count_other_of_zero
        (Ne.symm hout.2) (ih hout.1)

/-- A count is lost only after as many different others as are remembered. -/
theorem capacity_le_of_lost (calls : List IdHash) (hother : other ≠ peer)
    (hlost : ((create tolerance capacity).recordAll (calls ++ [other])).count peer ≠
      ((create tolerance capacity).recordAll calls).count peer) :
    max capacity 1 ≤ (sinceLast peer (calls ++ [other])).dedup.length := by
  have hsound := (sound_create tolerance capacity).recordAll calls
  have hfollows := follows_recordAll tolerance capacity peer calls
  rw [recordAll_concat] at hlost
  have hcapacity := hsound.capacity_le_of_forgotten hfollows hother hlost
  rw [(recordAll_terms _ calls).2] at hcapacity
  rw [sinceLast_concat, if_neg hother]
  exact hcapacity

/-- Counts of a peer whose records come soon enough after one another are not taken away. -/
theorem retains_of_spaced (hspaced : Spaced (max capacity 1) peer calls)
    (hlast : peer ∈ calls → (sinceLast peer calls).dedup.length < max capacity 1) :
    Retains (create tolerance capacity) peer calls := by
  rintro before other later rfl hother
  by_contra hforgotten
  have hrecorded : peer ∈ before := by
    by_contra hout
    have hzero : ((create tolerance capacity).recordAll before).count peer = 0 :=
      count_of_unrecorded hout
    have hsound := (sound_create tolerance capacity).recordAll before
    exact hforgotten ((hsound.count_other_of_zero hother hzero).trans hzero.symm)
  rw [← recordAll_concat] at hforgotten
  have hfull := capacity_le_of_lost before hother hforgotten
  have hcalls : before ++ other :: later = (before ++ [other]) ++ later := by simp
  rw [hcalls] at hspaced hlast
  by_cases hlater : peer ∈ later
  · -- the next record of the peer comes too late
    obtain ⟨between, rest, rfl, hbetween⟩ := List.eq_append_cons_of_mem hlater
    have hgap := hspaced (before ++ [other] ++ between) rest (List.append_assoc _ _ _).symm
      (List.mem_append_left _ (List.mem_append_left _ hrecorded))
    rw [sinceLast_append hbetween] at hgap
    have hle := length_dedup_le_of_append (sinceLast peer (before ++ [other])) between
    omega
  · have hgap := hlast (List.mem_append_left _ (List.mem_append_left _ hrecorded))
    rw [sinceLast_append hlater] at hgap
    have hle := length_dedup_le_of_append (sinceLast peer (before ++ [other])) later
    omega

/--
With a tolerance that leaves room for one more in 32 bits, after any violations of
any peers: no more peers are remembered than fit, each once, and their counts are
between one and the tolerance. The next violation puts the count of its peer one up,
at the cost of the last in the row if that is full, and takes it out again if it
crosses the tolerance. If between any two violations of a peer that follow
each other fewer different others had one than peers are remembered, the peer crosses
the tolerance exactly at every violation one past it, and its count is the number of
its violations since it last did, as long as fewer different others than that had one
since its last. A count is lost by the violation of another peer only if that makes
as many different others since the last violation of the peer.
-/
theorem records_tolerated (tolerance capacity : Nat) (hwidth : tolerance + 1 < UInt32.size)
    (calls : List IdHash) :
    let start := create tolerance capacity
    let room := max capacity 1
    (start.recordAll calls).size ≤ room ∧
    ((start.recordAll calls).recent.map (·.1)).Nodup ∧
    (∀ entry ∈ (start.recordAll calls).recent,
      1 ≤ entry.2 ∧ entry.2 ≤ tolerance ∧ entry.2 + 1 < UInt32.size) ∧
    (∀ peer, ((start.recordAll calls).record peer).1.recent =
      let held := put room (start.recordAll calls).recent peer
        ((start.recordAll calls).count peer + 1)
      if ((start.recordAll calls).record peer).2 then held.filter (·.1 ≠ peer) else held) ∧
    (∀ peer, Spaced room peer calls →
      (∀ before later, calls = before ++ peer :: later →
        (((start.recordAll before).record peer).2 = true ↔
          (before.count peer + 1) % (tolerance + 1) = 0)) ∧
      ((peer ∈ calls → (sinceLast peer calls).dedup.length < room) →
        (start.recordAll calls).count peer = calls.count peer % (tolerance + 1))) ∧
    ∀ peer before other, calls = before ++ [other] → other ≠ peer →
      (start.recordAll calls).count peer ≠ (start.recordAll before).count peer →
      room ≤ (sinceLast peer calls).dedup.length := by
  intro start room
  have hsound : Sound (start.recordAll calls) := (sound_create tolerance capacity).recordAll calls
  obtain ⟨htolerance, hcapacity⟩ := recordAll_terms start calls
  refine ⟨Nat.le_trans hsound.room (Nat.le_of_eq hcapacity), hsound.nodup, fun entry hmem => ?_,
    fun peer => ?_, fun peer hspaced => ⟨?_, fun hlast => ?_⟩, ?_⟩
  · obtain ⟨hpositive, hwithin⟩ := hsound.within entry hmem
    rw [htolerance] at hwithin
    have hbelow : entry.2 ≤ tolerance := hwithin
    exact ⟨hpositive, hbelow, by omega⟩
  · have hroom : (start.recordAll calls).capacity = room := hcapacity
    rw [hsound.record_recent, hroom]
  · rintro before later rfl
    refine crosses_of_retains (retains_of_spaced hspaced.of_append fun hrecorded => ?_)
    exact hspaced before later rfl hrecorded
  · exact count_of_retains (retains_of_spaced hspaced hlast)
  · rintro peer before other rfl hother hlost
    exact capacity_le_of_lost before hother hlost

/-- With room for two peers one is forgotten behind two others, and one that comes often is not. -/
theorem records_tolerated_of_crowd :
    let start := create 2 2
    let calls := [7, 8, 7, 9, 7, 9, 7, 8]
    (start.recordAll calls).size ≤ 2 ∧ ((start.recordAll [7, 8, 7, 9]).record 7).2 = true ∧
      (start.recordAll calls).count 7 = 1 ∧ (start.recordAll calls).count 9 = 0 ∧
      2 ≤ (sinceLast 9 calls).dedup.length := by
  intro start calls
  have hspaced : Spaced 2 7 calls := by
    intro before later hcalls hrecorded
    have hgaps : ∀ index < calls.length, 7 ∈ calls.take index →
        (sinceLast 7 (calls.take index)).dedup.length < 2 := by decide
    have hlength : before.length < calls.length := by simp [hcalls]
    have hgap := hgaps before.length hlength
    rw [hcalls, List.take_left] at hgap
    exact hgap hrecorded
  obtain ⟨hsize, _, _, _, hcounts, hlost⟩ := records_tolerated 2 2 (by decide) calls
  obtain ⟨hcrosses, hcount⟩ := hcounts 7 hspaced
  exact ⟨hsize, (hcrosses [7, 8, 7, 9] [9, 7, 8] rfl).mpr (by decide),
    (hcount fun _ => by decide).trans (by decide), by decide,
    hlost 9 [7, 8, 7, 9, 7, 9, 7] 8 rfl (by decide) (by decide)⟩

end Violations

end Peering
