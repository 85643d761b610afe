import Peering.Proofs.Handshake.RoundTrip
import Peering.Proofs.Handshake.Versions

/-!
# What two nodes agree on

A request lists the smallest versions of its node, up to a limit. So a node is
admitted for its smallest versions only: two nodes with few versions admit each
other exactly if they share one, but a node with many may be turned away for a
version that it serves.
-/

namespace Peering

namespace Handshake

variable {version : UInt16}

namespace VersionSet

/-- The versions that a request lists. -/
def announced (set : VersionSet) : VersionSet :=
  set.take maxVersions

theorem mem_announced_ofList {versions : List UInt16} :
    version ∈ (ofList versions).announced ↔
      version ∈ versions ∧ ((ofList versions).filter (· < version)).length < maxVersions := by
  rw [announced, (ascending_ofList versions).mem_take_iff, mem_ofList]

theorem announced_eq_self {set : VersionSet} (hfew : set.length ≤ maxVersions) :
    set.announced = set :=
  List.take_of_length_le hfew

theorem announced_eq_nil {set : VersionSet} : set.announced = [] ↔ set = [] := by
  simp [announced, maxVersions]

theorem ofList_eq_nil {versions : List UInt16} : ofList versions = [] ↔ versions = [] := by
  simp only [List.eq_nil_iff_forall_not_mem, mem_ofList]

end VersionSet

open VersionSet

namespace Request

/-- A request passes if the chains are the same and a version is shared, or nobody has any. -/
theorem check_eq_ok_iff (request : Request) (chainId : UInt32) (supported : List UInt16) :
    request.check chainId supported = .ok () ↔
      request.chainId = chainId ∧
        ((∃ version ∈ request.versions, version ∈ supported) ∨
          supported = [] ∧ request.versions = []) := by
  rw [check]
  split
  case isTrue hchain => simp [hchain]
  case isFalse hchain =>
    split
    case isTrue hnone => simp_all
    case isFalse hsome =>
      split
      case isTrue hshared => simp_all
      case isFalse hapart => simp_all

end Request

namespace Profile

/-- What a request says when it has been read by the node that it was sent to. -/
theorem decode_build_request (profile : Profile) :
    Request.decode (Templates.build profile).request.payload = .ok profile.request.cut :=
  Request.decode_encode profile.request

/-- A node lets another one in: the request that it is sent can be read and passes its checks. -/
def Admits (host guest : Profile) : Prop :=
  ∃ request, Request.decode (Templates.build guest).request.payload = .ok request ∧
    request.check host.chainId host.versions = .ok ()

variable {host guest : Profile}

theorem admits_iff :
    host.Admits guest ↔
      guest.chainId = host.chainId ∧
        ((∃ version ∈ guest.versions.announced, version ∈ host.versions) ∨
          host.versions = [] ∧ guest.versions = []) := by
  have hread : host.Admits guest ↔
      guest.request.cut.check host.chainId host.versions = .ok () := by
    constructor
    · rintro ⟨request, hdecode, hcheck⟩
      rw [decode_build_request] at hdecode
      cases hdecode
      exact hcheck
    · exact fun hcheck => ⟨_, decode_build_request guest, hcheck⟩
  have hlisted : guest.request.cut.versions = guest.versions.announced := rfl
  rw [hread, Request.check_eq_ok_iff, hlisted, announced_eq_nil]
  rfl

/-- If a node has no more versions than a request lists, any shared one will do. -/
theorem admits_iff_of_length_le (hfew : guest.versions.length ≤ maxVersions) :
    host.Admits guest ↔
      guest.chainId = host.chainId ∧
        ((∃ version ∈ guest.versions, version ∈ host.versions) ∨
          host.versions = [] ∧ guest.versions = []) := by
  rw [admits_iff, announced_eq_self hfew]

theorem admits_comm (hours : host.versions.length ≤ maxVersions)
    (htheirs : guest.versions.length ≤ maxVersions) : host.Admits guest ↔ guest.Admits host := by
  rw [admits_iff_of_length_le htheirs, admits_iff_of_length_le hours, eq_comm,
    and_comm (a := host.versions = [])]
  simp only [and_comm (a := _ ∈ host.versions)]

/-- The same node with other versions. -/
def serving (profile : Profile) (versions : List UInt16) : Profile :=
  { profile with versions := VersionSet.ofList versions }

/--
A node is admitted if it is on the same chain and shares a version that is among
its smallest ones, or if neither node has any. If neither has more versions than
a request lists, any shared version will do, and each admits the other if the
other admits it.
-/
theorem admits_serving (host guest : Profile) (ours theirs : List UInt16) :
    ((host.serving ours).Admits (guest.serving theirs) ↔
      guest.chainId = host.chainId ∧
        ((∃ version, version ∈ theirs ∧ version ∈ ours ∧
            ((VersionSet.ofList theirs).filter (· < version)).length < maxVersions) ∨
          ours = [] ∧ theirs = [])) ∧
    ((VersionSet.ofList ours).length ≤ maxVersions →
      (VersionSet.ofList theirs).length ≤ maxVersions →
        ((host.serving ours).Admits (guest.serving theirs) ↔
          guest.chainId = host.chainId ∧
            ((∃ version, version ∈ theirs ∧ version ∈ ours) ∨ ours = [] ∧ theirs = [])) ∧
        ((host.serving ours).Admits (guest.serving theirs) ↔
          (guest.serving theirs).Admits (host.serving ours))) := by
  refine ⟨?_, fun hours htheirs => ⟨?_, admits_comm hours htheirs⟩⟩
  · rw [admits_iff]
    simp only [serving, mem_announced_ofList, mem_ofList, ofList_eq_nil, and_assoc,
      and_comm (a := _ < maxVersions)]
  · rw [admits_iff_of_length_le htheirs]
    simp only [serving, mem_ofList, ofList_eq_nil]

/-- A node without handlers. -/
def bystander : Profile :=
  ⟨NodeId.random 0 0, 1, .v4 0x7f000001, 30303, "", []⟩

/-- Two nodes that share one of two versions let each other in. -/
theorem admits_serving_of_overlap :
    (bystander.serving [8, 7]).Admits (bystander.serving [8, 9]) ∧
      (bystander.serving [8, 9]).Admits (bystander.serving [8, 7]) := by
  obtain ⟨hshared, hcomm⟩ :=
    (admits_serving bystander bystander [8, 7] [8, 9]).2 (by decide) (by decide)
  have hadmits := hshared.mpr ⟨rfl, .inl ⟨8, by decide⟩⟩
  exact ⟨hadmits, hcomm.mp hadmits⟩

/-- One version more than a request lists. -/
def surplus : List UInt16 :=
  [1, 2, 3, 4, 5, 6, 7, 8, 9, 10, 11, 12, 13, 14, 15, 16, 17]

/--
A node with seventeen versions is turned away by one that serves only the
greatest of them, though it would let that one in.
-/
theorem seventeenth_version_turned_away :
    (∃ version ∈ surplus, version ∈ [17]) ∧
      ¬ (bystander.serving [17]).Admits (bystander.serving surplus) ∧
      (bystander.serving surplus).Admits (bystander.serving [17]) := by
  rw [admits_iff, admits_iff]
  decide

end Profile

end Handshake

end Peering
