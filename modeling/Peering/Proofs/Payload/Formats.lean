import Peering.Proofs.Gossip
import Peering.Proofs.Handshake.Reencoding
import Peering.Proofs.Payload.Settled

/-!
# The payload formats are self-delimiting

Handshakes and gossip are fields that settle, one after the other, and then the
end of the payload. Main statement: of each format, what begins an accepted
payload lacks bytes, what goes on after one has so many too many, and nothing
else is said to; and gossip that lacks bytes can always be completed.
-/

namespace Peering

namespace Handshake

open Payload (Settles)

variable {α : Type}

theorem settles_field {reader : Payload.Reader α} (hreader : Settles id reader) :
    Settles Error.malformed (field reader) where
  ok hread := by
    obtain ⟨used, hbytes, hused⟩ := hreader.ok (field_eq_ok_iff.mp hread)
    exact ⟨used, hbytes, fun more => field_ok (hused more)⟩
  error {bytes error} hread := by
    cases hcause : reader bytes with
    | ok read =>
        rw [field_ok hcause] at hread
        cases hread
    | error cause =>
        rw [field_error hcause] at hread
        cases hread
        rcases hreader.error hcause with ⟨name, rfl⟩ | ⟨hstays, hfield⟩
        · exact Or.inl ⟨name, rfl⟩
        · refine Or.inr ⟨fun more => field_error (hstays more), fun count hsame => ?_⟩
          exact hfield count (Error.malformed.inj hsame)

theorem field_finish (bytes : Bytes) :
    field Payload.finish bytes = (Payload.finish bytes).mapError .malformed :=
  rfl

namespace Request

/-- The fields of a request, without the end of the payload. -/
def fields : Reader Request := do
  let id ← field Payload.nodeId
  let chainId ← readChainId
  let ip ← field Payload.ip
  let port ← field (Payload.word "port")
  let revision ← field (Payload.short "revision")
  let versions ← readVersions
  return { id, chainId, ip, port, revision, versions }

theorem decode_eq_whole : decode = Payload.whole .malformed fields := by
  funext payload
  rw [← Payload.map_bind_finish field_finish]
  simp [decode, reader, fields]

theorem settles_readChainId : Settles Error.malformed readChainId := by
  refine (settles_field Payload.settles_varint).bind fun value => ?_
  split
  · exact .pure _
  · exact .throw fun _ => nofun

theorem settles_readVersions : Settles Error.malformed readVersions := by
  refine (settles_field (Payload.settles_byte _)).bind fun count => ?_
  split
  · exact .throw fun _ => nofun
  · exact settles_field (Payload.settles_many (Payload.settles_word _) _)

theorem settles_fields : Settles Error.malformed fields :=
  (settles_field Payload.settles_nodeId).bind fun _ =>
    settles_readChainId.bind fun _ =>
      (settles_field Payload.settles_ip).bind fun _ =>
        (settles_field (Payload.settles_word _)).bind fun _ =>
          (settles_field (Payload.settles_short _)).bind fun _ =>
            settles_readVersions.bind fun _ => .pure _

theorem selfDelimiting_decode : Payload.SelfDelimiting Error.malformed decode :=
  decode_eq_whole ▸ settles_fields.selfDelimiting fun _ _ => Error.malformed.inj

end Request

namespace Response

/-- The fields of a response, without the end of the payload. -/
def fields : Reader Response := do
  let accepted ← readFlag
  let revision ← field (Payload.short "revision")
  return { accepted, revision }

theorem decode_eq_whole : decode = Payload.whole .malformed fields := by
  funext payload
  rw [← Payload.map_bind_finish field_finish]
  simp [decode, reader, fields]

theorem settles_fields : Settles Error.malformed fields := by
  refine Settles.bind ?_ fun _ => (settles_field (Payload.settles_short _)).bind fun _ => .pure _
  refine (settles_field (Payload.settles_byte _)).bind fun flag => ?_
  split
  · exact .pure _
  · split
    · exact .pure _
    · exact .throw fun _ => nofun

theorem selfDelimiting_decode : Payload.SelfDelimiting Error.malformed decode :=
  decode_eq_whole ▸ settles_fields.selfDelimiting fun _ _ => Error.malformed.inj

end Response

end Handshake

namespace Gossip

open Payload (Completes Settles)

/-- The entries of a response, without the end of the payload. -/
def fields : Payload.Reader (List Entry) := do
  let count ← Payload.byte "node count"
  if maxEntries < count.toNat then
    throw (.tooLong "active nodes" count.toNat)
  else
    Payload.many Entry.reader count.toNat

theorem settles_chainInfo : Settles id Entry.chainInfo :=
  (Payload.settles_take 24 _).bind fun _ => .pure _

theorem settles_entry : Settles id Entry.reader :=
  Payload.settles_nodeId.bind fun _ =>
    Payload.settles_ip.bind fun _ =>
      (Payload.settles_word _).bind fun _ =>
        (Payload.settles_short _).bind fun _ => settles_chainInfo.bind fun _ => .pure _

theorem settles_fields : Settles id fields := by
  refine (Payload.settles_byte _).bind fun count => ?_
  split
  · exact .throw fun _ => nofun
  · exact Payload.settles_many settles_entry _

theorem completes_chainInfo : Completes Entry.chainInfo :=
  (Payload.completes_take 24 _).bind (Payload.settles_take 24 _) fun _ => .pure _

theorem completes_entry : Completes Entry.reader :=
  Payload.completes_nodeId.bind Payload.settles_nodeId fun _ =>
    Payload.completes_ip.bind Payload.settles_ip fun _ =>
      (Payload.completes_word _).bind (Payload.settles_word _) fun _ =>
        (Payload.completes_short _).bind (Payload.settles_short _) fun _ =>
          completes_chainInfo.bind settles_chainInfo fun _ => .pure _

/-- A response that breaks off can end with the entry that it is in, and as few as it announced. -/
theorem completes_fields : Completes fields := by
  apply Payload.completes_byte_bind "node count" 0
  · exact Payload.completes_many completes_entry settles_entry 0
  · intro count
    split
    · exact Payload.mends_throw fun _ => nofun
    · exact (Payload.completes_many completes_entry settles_entry _).mends

theorem decode_eq_whole : decode = Payload.whole id fields := by
  have hfinish : ∀ bytes, Payload.finish bytes = (Payload.finish bytes).mapError id := by
    intro bytes
    cases Payload.finish bytes <;> rfl
  have hreader : reader = fields >>= fun entries => Payload.finish >>= fun _ => pure entries := by
    rw [reader, fields, bind_assoc]
    refine bind_congr fun count => ?_
    split <;> rfl
  funext payload
  rw [← Payload.map_bind_finish hfinish, ← hreader, decode]

theorem selfDelimiting_decode : Payload.SelfDelimiting id decode :=
  decode_eq_whole ▸ settles_fields.selfDelimiting fun _ _ hsame => hsame

theorem truncated_iff (payload : Bytes) :
    (∃ field, decode payload = .error (.truncated field)) ↔
      ∃ full entries, decode full = .ok entries ∧ payload <+: full ∧ payload ≠ full := by
  rw [decode_eq_whole]
  exact Payload.truncated_iff completes_fields settles_fields payload

end Gossip

namespace Payload

/--
Requests, responses and gossip are self-delimiting. Gossip lacks bytes exactly
where it is the beginning of an accepted payload, so a bad address length, or a
count or length above its limit, is reported only where no more bytes could help.
-/
theorem formats_self_delimiting :
    SelfDelimiting Handshake.Error.malformed Handshake.Request.decode ∧
      SelfDelimiting Handshake.Error.malformed Handshake.Response.decode ∧
      SelfDelimiting id Gossip.decode ∧
      (∀ payload, (∃ field, Gossip.decode payload = .error (.truncated field)) ↔
        ∃ full entries, Gossip.decode full = .ok entries ∧ payload <+: full ∧ payload ≠ full) ∧
      ∀ payload error, Gossip.decode payload = .error error →
        (∀ field, error ≠ .truncated field) →
          ∀ more entries, Gossip.decode (payload ++ more) ≠ .ok entries :=
  ⟨Handshake.Request.selfDelimiting_decode, Handshake.Response.selfDelimiting_decode,
    Gossip.selfDelimiting_decode, Gossip.truncated_iff,
    fun _ _ => Gossip.selfDelimiting_decode.refused⟩

/-- A response cut inside its revision, one with two bytes too many, and gossip with a bad count. -/
theorem formats_self_delimiting_of_cut_response :
    (Handshake.Response.decode [1, 1, 7] = .ok ⟨true, [7]⟩ ∧
      (∃ field, Handshake.Response.decode [1, 1] = .error (.malformed (.truncated field))) ∧
      Handshake.Response.decode [1, 1, 7, 0, 0] = .error (.malformed (.trailing 2))) ∧
    (Gossip.decode [41] = .error (.tooLong "active nodes" 41) ∧
      ∀ more entries, Gossip.decode (41 :: more) ≠ .ok entries) := by
  have haccepted : Handshake.Response.decode [1, 1, 7] = .ok ⟨true, [7]⟩ := rfl
  have hrefused : Gossip.decode [41] = .error (.tooLong "active nodes" 41) := rfl
  obtain ⟨-, hresponse, -, -, hgossip⟩ := formats_self_delimiting
  exact ⟨⟨haccepted, hresponse.short haccepted [1, 1] ⟨[7], rfl⟩ (by decide),
      hresponse.long haccepted [0, 0] (by decide)⟩,
    hrefused, hgossip [41] _ hrefused fun _ => nofun⟩

end Payload

end Peering
