import Peering.Handlers

/-!
# Sets of versions

A set of versions is an ascending list, so its first members are its smallest. A
table of handlers keeps the set of the versions that its handlers serve.
-/

namespace Peering

namespace Handshake

namespace VersionSet

variable {set : VersionSet} {version other : UInt16}

/-- The versions are in ascending order and without repetition. -/
def Ascending (set : VersionSet) : Prop :=
  set.Pairwise (· < ·)

@[simp] theorem mem_insert : other ∈ insert version set ↔ other = version ∨ other ∈ set := by
  induction set with
  | nil => simp [insert]
  | cons first rest ih =>
      rw [insert]
      split
      · simp
      · split
        · simp_all
        · simp [ih, or_left_comm]

theorem Ascending.insert (hset : Ascending set) (version : UInt16) :
    Ascending (insert version set) := by
  induction set with
  | nil => exact List.pairwise_singleton _ _
  | cons first rest ih =>
      obtain ⟨hfirst, hrest⟩ := List.pairwise_cons.mp hset
      rw [VersionSet.insert]
      split
      case isTrue hbefore =>
        refine List.pairwise_cons.mpr ⟨fun later hlater => ?_, hset⟩
        rcases List.mem_cons.mp hlater with rfl | hlater
        · exact hbefore
        · exact UInt16.lt_trans hbefore (hfirst later hlater)
      case isFalse hbefore =>
        split
        case isTrue => exact hset
        case isFalse hother =>
          refine List.pairwise_cons.mpr ⟨fun later hlater => ?_, ih hrest⟩
          rcases mem_insert.mp hlater with rfl | hlater
          · exact UInt16.lt_of_le_of_ne (UInt16.not_lt.mp hbefore) (Ne.symm hother)
          · exact hfirst later hlater

/-- A set with more versions added. -/
theorem mem_foldl_insert (versions : List UInt16) :
    other ∈ versions.foldl (fun set version => VersionSet.insert version set) set ↔
      other ∈ versions ∨ other ∈ set := by
  induction versions generalizing set with
  | nil => simp
  | cons version rest ih =>
      rw [List.foldl_cons, ih, mem_insert, List.mem_cons, or_left_comm, or_assoc]

theorem Ascending.foldl_insert (hset : Ascending set) (versions : List UInt16) :
    Ascending (versions.foldl (fun set version => VersionSet.insert version set) set) := by
  induction versions generalizing set with
  | nil => exact hset
  | cons version rest ih => exact ih (hset.insert version)

@[simp] theorem mem_ofList {versions : List UInt16} :
    other ∈ ofList versions ↔ other ∈ versions := by
  simp [ofList, mem_foldl_insert]

theorem ascending_ofList (versions : List UInt16) : Ascending (ofList versions) :=
  Ascending.foldl_insert List.Pairwise.nil versions

/--
The first `count` members are the smallest: a member is among them if fewer than
`count` members are smaller.
-/
theorem Ascending.mem_take_iff (hset : Ascending set) (count : Nat) :
    version ∈ set.take count ↔
      version ∈ set ∧ (set.filter (· < version)).length < count := by
  induction set generalizing count with
  | nil => simp
  | cons first rest ih =>
      obtain ⟨hfirst, hrest⟩ := List.pairwise_cons.mp hset
      cases count with
      | zero => simp
      | succ count =>
          have hnone : (first :: rest).filter (· < first) = [] := by
            refine List.filter_eq_nil_iff.mpr fun later hlater => ?_
            rcases List.mem_cons.mp hlater with rfl | hlater
            · simp
            · simpa using UInt16.le_of_lt (hfirst later hlater)
          rw [List.take_succ_cons, List.mem_cons, List.mem_cons, ih hrest]
          constructor
          · rintro (rfl | ⟨hmem, hfew⟩)
            · rw [hnone]
              exact ⟨.inl rfl, Nat.succ_pos count⟩
            · refine ⟨.inr hmem, ?_⟩
              rw [List.filter_cons_of_pos (by simpa using hfirst version hmem), List.length_cons]
              exact Nat.succ_lt_succ hfew
          · rintro ⟨rfl | hmem, hfew⟩
            · exact .inl rfl
            · rw [List.filter_cons_of_pos (by simpa using hfirst version hmem),
                List.length_cons] at hfew
              exact .inr ⟨hmem, Nat.lt_of_succ_lt_succ hfew⟩

end VersionSet

end Handshake

namespace HandlerTable

open Handshake

variable {table : HandlerTable}

/-- The versions that handlers bring with them; routes of the network core are refused. -/
def brought (handlers : List Handler) : List UInt16 :=
  (handlers.filter (·.route.ctrl ≠ netCtrl)).map (·.version)

/-- Handlers add their versions to the set, one after the other. -/
theorem versions_register (handlers : List Handler) :
    (table.register handlers).versions =
      (brought handlers).foldl (fun set version => VersionSet.insert version set)
        table.versions := by
  rw [register]
  induction handlers generalizing table with
  | nil => rfl
  | cons handler rest ih =>
      rw [List.foldl_cons, ih, add, brought, brought]
      split
      case isTrue hcore => simp [hcore]
      case isFalse hother => simp [hother]

end HandlerTable

end Peering
