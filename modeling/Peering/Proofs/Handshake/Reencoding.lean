import Peering.Proofs.Handshake.RoundTrip
import Peering.Proofs.Payload.Settled

/-!
# Handshakes are written as they were read

A response is written with the bytes it was read from. A request is too, but for
its chain id: the peer may have sent a longer varint than is written. Main
statement: both directions of the round trip, for requests and responses.
-/

namespace Peering

namespace Handshake

variable {α : Type} {payload bytes rest : Bytes}

theorem field_eq_ok_iff {reader : Payload.Reader α} {value : α} :
    field reader bytes = .ok (value, rest) ↔ reader bytes = .ok (value, rest) := by
  rw [field]
  cases reader bytes with
  | error cause =>
      show Except.error _ = _ ↔ _
      simp
  | ok read =>
      show Except.ok _ = _ ↔ _
      simp

namespace Request

theorem readChainId_sound {chainId : UInt32} (hread : readChainId bytes = .ok (chainId, rest)) :
    Payload.varint bytes = .ok (chainId.toUInt64, rest) := by
  obtain ⟨value, middle, hvalue, hchain⟩ := Reader.bind_eq_ok_iff.mp hread
  split at hchain
  · rename_i hsmall
    obtain ⟨rfl, rfl⟩ := Reader.pure_eq_ok_iff.mp hchain
    have hsame : value.toUInt32.toUInt64 = value := by
      apply UInt64.toNat.inj
      rw [UInt32.toNat_toUInt64, UInt64.toNat_toUInt32]
      exact Nat.mod_eq_of_lt hsmall
    rw [hsame]
    exact field_eq_ok_iff.mp hvalue
  · cases hchain

theorem readVersions_sound {versions : List UInt16}
    (hread : readVersions bytes = .ok (versions, rest)) :
    bytes = UInt8.ofNat versions.length ::
        versions.flatMap (fun version => bigEndian 2 version.toNat) ++ rest ∧
      versions.length ≤ maxVersions := by
  obtain ⟨count, middle, hcount, hversions⟩ := Reader.bind_eq_ok_iff.mp hread
  obtain rfl := Payload.byte_sound (field_eq_ok_iff.mp hcount)
  split at hversions
  · cases hversions
  · rename_i hwithin
    obtain ⟨rfl, hlength⟩ := Payload.many_sound Payload.word_sound (field_eq_ok_iff.mp hversions)
    refine ⟨?_, by omega⟩
    rw [hlength, UInt8.ofNat_toNat, List.cons_append]

/-- A payload is written as it was read, once its chain id has been. -/
theorem decode_sound {request : Request} (hdecode : decode payload = .ok request) :
    ∃ chainId rest, payload = request.id.bytes ++ chainId ++ rest ∧
      Payload.IsVarint request.chainId.toUInt64 chainId ∧
      request.encode =
        request.id.bytes ++ Payload.putVarint request.chainId.toUInt64 ++ rest := by
  obtain ⟨left, hread⟩ := Reader.map_fst_eq_ok_iff.mp hdecode
  obtain ⟨id, _, hid, hread⟩ := Reader.bind_eq_ok_iff.mp hread
  obtain ⟨chainId, _, hchain, hread⟩ := Reader.bind_eq_ok_iff.mp hread
  obtain ⟨ip, _, hip, hread⟩ := Reader.bind_eq_ok_iff.mp hread
  obtain ⟨port, _, hport, hread⟩ := Reader.bind_eq_ok_iff.mp hread
  obtain ⟨revision, _, hrevision, hread⟩ := Reader.bind_eq_ok_iff.mp hread
  obtain ⟨versions, _, hversions, hread⟩ := Reader.bind_eq_ok_iff.mp hread
  obtain ⟨_, _, hfinish, hvalue⟩ := Reader.bind_eq_ok_iff.mp hread
  obtain ⟨rfl, rfl⟩ := Reader.pure_eq_ok_iff.mp hvalue
  obtain ⟨rfl, rfl⟩ := Payload.finish_sound (field_eq_ok_iff.mp hfinish)
  obtain ⟨rfl, hcount⟩ := readVersions_sound hversions
  obtain ⟨rfl, hlength⟩ := Payload.short_sound (field_eq_ok_iff.mp hrevision)
  obtain rfl := Payload.word_sound (field_eq_ok_iff.mp hport)
  obtain rfl := Payload.ip_sound (field_eq_ok_iff.mp hip)
  obtain ⟨form, rfl, hform⟩ := Payload.settles_varint.ok (readChainId_sound hchain)
  obtain rfl := Payload.nodeId_sound (field_eq_ok_iff.mp hid)
  refine ⟨form, _, (List.append_assoc _ _ _).symm, by simpa [Payload.IsVarint] using hform [], ?_⟩
  simp [encode, Payload.putPort, List.take_of_length_le hcount]

end Request

namespace Response

theorem readFlag_sound {accepted : Bool} (hread : readFlag bytes = .ok (accepted, rest)) :
    bytes = (if accepted then 1 else 0) :: rest := by
  obtain ⟨flag, middle, hflag, hvalue⟩ := Reader.bind_eq_ok_iff.mp hread
  obtain rfl := Payload.byte_sound (field_eq_ok_iff.mp hflag)
  split at hvalue
  · rename_i hzero
    obtain ⟨rfl, rfl⟩ := Reader.pure_eq_ok_iff.mp hvalue
    rw [hzero]
    rfl
  · split at hvalue
    · rename_i hone
      obtain ⟨rfl, rfl⟩ := Reader.pure_eq_ok_iff.mp hvalue
      rw [hone]
      rfl
    · cases hvalue

theorem encode_of_decode {response : Response} (hdecode : decode payload = .ok response) :
    response.encode = payload := by
  obtain ⟨left, hread⟩ := Reader.map_fst_eq_ok_iff.mp hdecode
  obtain ⟨accepted, _, haccepted, hread⟩ := Reader.bind_eq_ok_iff.mp hread
  obtain ⟨revision, _, hrevision, hread⟩ := Reader.bind_eq_ok_iff.mp hread
  obtain ⟨_, _, hfinish, hvalue⟩ := Reader.bind_eq_ok_iff.mp hread
  obtain ⟨rfl, rfl⟩ := Reader.pure_eq_ok_iff.mp hvalue
  obtain ⟨rfl, rfl⟩ := Payload.finish_sound (field_eq_ok_iff.mp hfinish)
  obtain ⟨rfl, hlength⟩ := Payload.short_sound (field_eq_ok_iff.mp hrevision)
  obtain rfl := readFlag_sound haccepted
  rw [encode, List.append_nil]

end Response

/--
What is written is read back, but for what the writer cuts: a revision to 64
bytes and a list of versions to 16. What is read is written back, but for the
varint of a chain id, which becomes the shortest one: the id before it and all
bytes after it are the same, so a request never grows.
-/
theorem payloads_round_trip :
    (∀ request : Request, Request.decode request.encode =
        .ok { request with
          revision := request.revision.take 64
          versions := request.versions.take 16 }) ∧
      (∀ payload request, Request.decode payload = .ok request →
        ∃ chainId shortest rest,
          payload = request.id.bytes ++ chainId ++ rest ∧
          request.encode = request.id.bytes ++ shortest ++ rest ∧
          Payload.IsVarint request.chainId.toUInt64 chainId ∧
          Payload.IsShortestVarint request.chainId.toUInt64 shortest ∧
          request.encode.length ≤ payload.length) ∧
      (∀ response : Response, Response.decode response.encode =
        .ok { response with revision := response.revision.take 64 }) ∧
      ∀ payload response, Response.decode payload = .ok response → response.encode = payload := by
  refine ⟨Request.decode_encode, ?_, Response.decode_encode, fun _ _ => Response.encode_of_decode⟩
  intro payload request hdecode
  obtain ⟨chainId, rest, rfl, hchain, hencode⟩ := Request.decode_sound hdecode
  have hshortest := Payload.isShortestVarint_putVarint request.chainId.toUInt64
  refine ⟨chainId, _, rest, rfl, hencode, hchain, hshortest, ?_⟩
  have hlength := hshortest.shortest hchain
  simp only [hencode, List.length_append]
  omega

/-- A request whose chain id takes two bytes where one is enough, and a response. -/
theorem payloads_round_trip_of_long_varint :
    let id := NodeId.random 0 0
    let request : Request := ⟨id, 1, .v4 0x7f000001, 80, [7], [9]⟩
    let payload : Bytes := id.bytes ++ [0x81, 0] ++ [4, 127, 0, 0, 1, 0, 80, 1, 7, 1, 0, 9]
    (Request.decode payload = .ok request ∧ ∃ chainId shortest rest,
      payload = request.id.bytes ++ chainId ++ rest ∧
      request.encode = request.id.bytes ++ shortest ++ rest ∧
      Payload.IsVarint request.chainId.toUInt64 chainId ∧
      Payload.IsShortestVarint request.chainId.toUInt64 shortest ∧
      request.encode.length ≤ payload.length) ∧
    (Response.decode [1, 2, 7, 8] = .ok ⟨true, [7, 8]⟩ ∧
      Response.encode ⟨true, [7, 8]⟩ = [1, 2, 7, 8]) := by
  intro id request payload
  have hrequest : Request.decode payload = .ok request := rfl
  have hresponse : Response.decode [1, 2, 7, 8] = .ok ⟨true, [7, 8]⟩ := rfl
  exact ⟨⟨hrequest, payloads_round_trip.2.1 payload request hrequest⟩, hresponse,
    payloads_round_trip.2.2.2 _ _ hresponse⟩

end Handshake

end Peering
