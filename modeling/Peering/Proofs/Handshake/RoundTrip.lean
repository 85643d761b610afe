import Peering.Handshake.Templates
import Peering.Proofs.Payload

/-!
# Handshakes are read as they were written

A request is read back with its revision cut to 64 bytes and its versions cut to
16, a response with its revision cut to 64 bytes; everything else comes back as
it was.
-/

namespace Peering

namespace Handshake

open Reader (bind_ok)

variable {α : Type} {bytes rest : Bytes}

theorem field_ok {reader : Payload.Reader α} {value : α}
    (hread : reader bytes = .ok (value, rest)) : field reader bytes = .ok (value, rest) := by
  rw [field, hread]
  rfl

theorem field_error {reader : Payload.Reader α} {cause : PayloadError}
    (hread : reader bytes = .error cause) : field reader bytes = .error (.malformed cause) := by
  rw [field, hread]
  rfl

namespace Request

/-- The request that is written: a long revision and a long list of versions are cut. -/
def cut (request : Request) : Request :=
  { request with
    revision := request.revision.take Payload.maxRevision
    versions := request.versions.take maxVersions }

theorem readChainId_putVarint (chainId : UInt32) :
    readChainId (Payload.putVarint chainId.toUInt64 ++ rest) = .ok (chainId, rest) := by
  have hsmall : chainId.toUInt64.toNat < UInt32.size := by
    simpa using chainId.toNat_lt
  rw [readChainId, bind_ok (field_ok (Payload.varint_putVarint _)), if_pos hsmall,
    UInt32.toUInt32_toUInt64]
  rfl

theorem readVersions_append (versions : List UInt16) (hcount : versions.length ≤ maxVersions) :
    readVersions (UInt8.ofNat versions.length ::
      versions.flatMap (fun version => bigEndian 2 version.toNat) ++ rest) =
        .ok (versions, rest) := by
  have hbyte : (UInt8.ofNat versions.length).toNat = versions.length :=
    UInt8.toNat_ofNat_of_lt' (Nat.lt_of_le_of_lt hcount (by decide))
  rw [readVersions, List.cons_append, bind_ok (field_ok (Payload.byte_cons _)), hbyte,
    if_neg (Nat.not_lt.mpr hcount)]
  apply field_ok
  rw [Payload.many_append (fun version _ => Payload.word_append version), List.map_id']

theorem decode_encode (request : Request) : decode request.encode = .ok request.cut := by
  have hcount : (request.versions.take maxVersions).length ≤ maxVersions := List.length_take_le _ _
  have hread : reader request.encode = .ok (request.cut, []) := by
    have hversions := @readVersions_append [] _ hcount
    rw [List.append_nil] at hversions
    simp only [encode, List.append_assoc]
    rw [reader, bind_ok (field_ok (Payload.nodeId_append _)), bind_ok (readChainId_putVarint _),
      bind_ok (field_ok (Payload.ip_putIp _)), Payload.putPort,
      bind_ok (field_ok (Payload.word_append _)), bind_ok (field_ok (Payload.short_putShort _)),
      bind_ok hversions, bind_ok (field_ok Payload.finish_nil)]
    rfl
  rw [decode, hread]
  rfl

theorem length_varintBytes_le (room n : Nat) : (Payload.varintBytes room n).length ≤ room := by
  induction room generalizing n with
  | zero => simp [Payload.varintBytes]
  | succ room ih =>
      rw [Payload.varintBytes]
      split
      · simp
      · have := ih (n / 0x80)
        simpa using this

/-- A request is far shorter than the length field of a frame allows. -/
theorem length_encode_lt (request : Request) : request.encode.length < 256 := by
  have hchain := length_varintBytes_le Payload.varintRoom request.chainId.toUInt64.toNat
  have hip : request.ip.octets.length ≤ 16 := by
    cases request.ip <;> simp [IpAddress.octets]
  have hrevision : (request.revision.take Payload.maxRevision).length ≤ Payload.maxRevision :=
    List.length_take_le _ _
  have hversions : (request.versions.take maxVersions).length ≤ maxVersions := List.length_take_le _ _
  have hwords : ∀ versions : List UInt16,
      (versions.flatMap fun version => bigEndian 2 version.toNat).length = 2 * versions.length := by
    intro versions
    induction versions with
    | nil => rfl
    | cons version rest ih =>
        rw [List.flatMap_cons, List.length_append, ih, length_bigEndian, List.length_cons]
        omega
  simp only [Payload.maxRevision, maxVersions, Payload.varintRoom] at *
  simp only [encode, Payload.putVarint, Payload.putIp, Payload.putPort, Payload.putShort,
    Payload.maxRevision, Payload.varintRoom, maxVersions, List.length_append, List.length_cons,
    request.id.length_eq, length_bigEndian, hwords]
  omega

end Request

namespace Response

/-- The response that is written: a long revision is cut. -/
def cut (response : Response) : Response :=
  { response with revision := response.revision.take Payload.maxRevision }

theorem length_encode_lt (response : Response) : response.encode.length < 256 := by
  have hrevision : (response.revision.take Payload.maxRevision).length ≤ Payload.maxRevision :=
    List.length_take_le _ _
  rw [Payload.maxRevision] at hrevision
  simp only [encode, Payload.putShort, Payload.maxRevision, List.length_cons]
  omega

theorem readFlag_cons (accepted : Bool) :
    readFlag ((if accepted then 1 else 0) :: rest) = .ok (accepted, rest) := by
  rw [readFlag, bind_ok (field_ok (Payload.byte_cons _))]
  cases accepted <;> rfl

theorem decode_encode (response : Response) : decode response.encode = .ok response.cut := by
  have hrevision := @Payload.short_putShort [] "revision" response.revision
  rw [List.append_nil] at hrevision
  have hread : reader response.encode = .ok (response.cut, []) := by
    rw [encode, reader, bind_ok (readFlag_cons _), bind_ok (field_ok hrevision),
      bind_ok (field_ok Payload.finish_nil)]
    rfl
  rw [decode, hread]
  rfl

end Response

end Handshake

end Peering
