import Peering.Gossip
import Peering.Proofs.Payload.Sound
import Peering.Proofs.Text.Utf8

/-!
# Gossip is read as it was written

A response carries forty entries and 64 bytes of a revision; what is beyond is
cut, and a cut may fall inside a character. Main statement: what comes back is
what was sent but for these cuts, it comes back unchanged a second time, and a
payload whose revisions are text is written as it was read.
-/

namespace Peering

namespace Gossip

variable {bytes rest payload : Bytes}

/-! ## Entries before their revision is read as text -/

/-- An entry as it stands in a payload. -/
structure Record where
  id : NodeId
  ip : IpAddress
  port : UInt16
  revision : Bytes
  bestBlock : UInt64
  totalDifficulty : BitVec 128

namespace Record

def encode (record : Record) : Bytes :=
  record.id.bytes ++ Payload.putIp record.ip ++ Payload.putPort record.port ++
    Payload.putShort record.revision ++
    bigEndian 8 record.bestBlock.toNat ++ bigEndian 16 record.totalDifficulty.toNat

def reader : Payload.Reader Record := do
  let id ← Payload.nodeId
  let ip ← Payload.ip
  let port ← Payload.word "port"
  let revision ← Payload.short "bin version"
  let (bestBlock, totalDifficulty) ← Entry.chainInfo
  return { id, ip, port, revision, bestBlock, totalDifficulty }

/-- The record that is written: a long revision is cut. -/
def cut (record : Record) : Record :=
  { record with revision := record.revision.take Payload.maxRevision }

/-- The entry that a record is read as. -/
def entry (record : Record) : Entry where
  id := record.id
  ip := record.ip
  port := record.port
  revision := Utf8.lossy record.revision
  bestBlock := record.bestBlock
  totalDifficulty := record.totalDifficulty

end Record

namespace Entry

/-- The record that an entry is written as. -/
def record (entry : Entry) : Record where
  id := entry.id
  ip := entry.ip
  port := entry.port
  revision := Utf8.encode entry.revision
  bestBlock := entry.bestBlock
  totalDifficulty := entry.totalDifficulty

/-- The entry that arrives: a long revision is cut, perhaps inside a character. -/
def cut (entry : Entry) : Entry :=
  { entry with revision := Utf8.cut Payload.maxRevision entry.revision }

theorem encode_record (entry : Entry) : entry.record.encode = entry.encode :=
  rfl

theorem entry_cut_record (entry : Entry) : entry.record.cut.entry = entry.cut :=
  rfl

theorem cut_cut (entry : Entry) : entry.cut.cut = entry.cut := by
  simp [cut]

theorem cut_of_le {entry : Entry} (hfits : (Utf8.encode entry.revision).length ≤ 64) :
    entry.cut = entry := by
  rw [cut, Payload.maxRevision, Utf8.cut_of_le hfits]

theorem reader_eq : reader = Record.entry <$> Record.reader := by
  simp [reader, Record.reader, Record.entry]

theorem chainInfo_append (bestBlock : UInt64) (totalDifficulty : BitVec 128) :
    chainInfo (bigEndian 8 bestBlock.toNat ++ bigEndian 16 totalDifficulty.toNat ++ rest) =
      .ok ((bestBlock, totalDifficulty), rest) := by
  have hlength : (bigEndian 8 bestBlock.toNat ++ bigEndian 16 totalDifficulty.toNat).length = 24 := by
    simp
  have hheight : bigEndianValue (bigEndian 8 bestBlock.toNat) = bestBlock.toNat :=
    bigEndianValue_bigEndian bestBlock.toNat_lt
  have hdifficulty : bigEndianValue (bigEndian 16 totalDifficulty.toNat) = totalDifficulty.toNat :=
    bigEndianValue_bigEndian totalDifficulty.isLt
  rw [chainInfo, Reader.bind_ok (Payload.take_append hlength),
    List.take_left' (length_bigEndian 8 _), List.drop_left' (length_bigEndian 8 _), hheight,
    hdifficulty, UInt64.ofNat_toNat, BitVec.ofNat_toNat, BitVec.setWidth_eq]
  rfl

theorem chainInfo_sound {bestBlock : UInt64} {totalDifficulty : BitVec 128}
    (hread : chainInfo bytes = .ok ((bestBlock, totalDifficulty), rest)) :
    bytes = bigEndian 8 bestBlock.toNat ++ bigEndian 16 totalDifficulty.toNat ++ rest := by
  obtain ⟨info, middle, htake, hvalue⟩ := Reader.bind_eq_ok_iff.mp hread
  obtain ⟨hvalue, rfl⟩ := Reader.pure_eq_ok_iff.mp hvalue
  obtain ⟨rfl, hlength⟩ := Payload.take_sound htake
  cases hvalue
  have hfirst : (info.take 8).length = 8 := by simp [hlength]
  have hlast : (info.drop 8).length = 16 := by simp [hlength]
  have hheight := UInt64.toNat_ofNat_of_lt' (bigEndianValue_lt_of_length hfirst)
  have hdifficulty : (BitVec.ofNat 128 (bigEndianValue (info.drop 8))).toNat =
      bigEndianValue (info.drop 8) := by
    have hweight : byteWeight 16 = 2 ^ 128 := by decide
    rw [BitVec.toNat_ofNat, Nat.mod_eq_of_lt (hweight ▸ bigEndianValue_lt_of_length hlast)]
  rw [hheight, hdifficulty, bigEndian_of_length hfirst, bigEndian_of_length hlast,
    List.take_append_drop]

end Entry

namespace Record

theorem reader_append (record : Record) (rest : Bytes) :
    reader (record.encode ++ rest) = .ok (record.cut, rest) := by
  simp only [encode, List.append_assoc, Payload.putPort]
  rw [reader, Reader.bind_ok (Payload.nodeId_append _), Reader.bind_ok (Payload.ip_putIp _),
    Reader.bind_ok (Payload.word_append _), Reader.bind_ok (Payload.short_putShort _),
    ← List.append_assoc, Reader.bind_ok (Entry.chainInfo_append _ _)]
  rfl

theorem reader_sound {record : Record} (hread : reader bytes = .ok (record, rest)) :
    bytes = record.encode ++ rest := by
  obtain ⟨id, _, hid, hread⟩ := Reader.bind_eq_ok_iff.mp hread
  obtain ⟨ip, _, hip, hread⟩ := Reader.bind_eq_ok_iff.mp hread
  obtain ⟨port, _, hport, hread⟩ := Reader.bind_eq_ok_iff.mp hread
  obtain ⟨revision, _, hrevision, hread⟩ := Reader.bind_eq_ok_iff.mp hread
  obtain ⟨⟨bestBlock, totalDifficulty⟩, _, hinfo, hvalue⟩ := Reader.bind_eq_ok_iff.mp hread
  obtain ⟨rfl, rfl⟩ := Reader.pure_eq_ok_iff.mp hvalue
  obtain rfl := Entry.chainInfo_sound hinfo
  obtain ⟨rfl, hlength⟩ := Payload.short_sound hrevision
  obtain rfl := Payload.word_sound hport
  obtain rfl := Payload.ip_sound hip
  obtain rfl := Payload.nodeId_sound hid
  simp [encode, Payload.putPort]

end Record

/-! ## Payloads -/

/-- The records of a payload, read as the entries are. -/
def recordReader : Payload.Reader (List Record) := do
  let count ← Payload.byte "node count"
  if maxEntries < count.toNat then
    throw (.tooLong "active nodes" count.toNat)
  else
    let records ← Payload.many Record.reader count.toNat
    Payload.finish
    return records

/-- The revisions of a payload, as they stand in it. -/
def revisionFields (payload : Bytes) : List Bytes :=
  match recordReader payload with
  | .ok (records, _) => records.map (·.revision)
  | .error _ => []

theorem many_map {α β : Type} (f : α → β) (reader : Payload.Reader α) (count : Nat) :
    Payload.many (f <$> reader) count = List.map f <$> Payload.many reader count := by
  induction count with
  | zero => simp [Payload.many]
  | succ count ih => simp [Payload.many, ih]

/-- Entries are records of which the revision is read as text. -/
theorem reader_eq : reader = List.map Record.entry <$> recordReader := by
  rw [reader, recordReader, map_bind]
  refine bind_congr fun count => ?_
  split
  · rfl
  · simp [Entry.reader_eq, many_map]

/-- The payload that carries these records. -/
def recordPayload (records : List Record) : Bytes :=
  UInt8.ofNat records.length :: records.flatMap Record.encode

theorem encode_eq (entries : List Entry) :
    encode entries = recordPayload ((entries.take maxEntries).map Entry.record) := by
  simp only [encode, recordPayload, List.length_map, List.flatMap_map, Entry.encode_record]

theorem recordReader_recordPayload {records : List Record} (hcount : records.length ≤ maxEntries) :
    recordReader (recordPayload records) = .ok (records.map Record.cut, []) := by
  have hbyte : (UInt8.ofNat records.length).toNat = records.length :=
    UInt8.toNat_ofNat_of_lt' (Nat.lt_of_le_of_lt hcount (by decide))
  have hrecords := @Payload.many_append _ _ [] _ _ _ Record.reader_append records
  rw [List.append_nil] at hrecords
  rw [recordReader, recordPayload, Reader.bind_ok (Payload.byte_cons _), hbyte,
    if_neg (Nat.not_lt.mpr hcount), Reader.bind_ok hrecords, Reader.bind_ok Payload.finish_nil]
  rfl

theorem recordReader_sound {records : List Record}
    (hread : recordReader payload = .ok (records, rest)) :
    payload = recordPayload records ∧ records.length ≤ maxEntries ∧ rest = [] := by
  obtain ⟨count, _, hcount, hbody⟩ := Reader.bind_eq_ok_iff.mp hread
  obtain rfl := Payload.byte_sound hcount
  split at hbody
  · cases hbody
  · rename_i hwithin
    obtain ⟨found, _, hfound, hend⟩ := Reader.bind_eq_ok_iff.mp hbody
    obtain ⟨_, _, hfinish, hvalue⟩ := Reader.bind_eq_ok_iff.mp hend
    obtain ⟨rfl, rfl⟩ := Reader.pure_eq_ok_iff.mp hvalue
    obtain ⟨rfl, rfl⟩ := Payload.finish_sound hfinish
    obtain ⟨rfl, hlength⟩ := Payload.many_sound Record.reader_sound hfound
    refine ⟨?_, by omega, rfl⟩
    rw [recordPayload, hlength, UInt8.ofNat_toNat, List.append_nil]

/-- A payload is accepted when its records are. -/
theorem decode_eq_ok_iff {entries : List Entry} :
    decode payload = .ok entries ↔
      ∃ records, recordReader payload = .ok (records, []) ∧
        records.map Record.entry = entries := by
  rw [decode, Reader.map_fst_eq_ok_iff, reader_eq]
  constructor
  · rintro ⟨rest, hread⟩
    obtain ⟨records, hrecords, hentries⟩ := Reader.map_eq_ok_iff.mp hread
    obtain ⟨-, -, rfl⟩ := recordReader_sound hrecords
    exact ⟨records, hrecords, hentries⟩
  · rintro ⟨records, hrecords, hentries⟩
    exact ⟨[], Reader.map_eq_ok_iff.mpr ⟨records, hrecords, hentries⟩⟩

theorem decode_encode (entries : List Entry) :
    decode (encode entries) = .ok ((entries.take maxEntries).map Entry.cut) := by
  have hcount : ((entries.take maxEntries).map Entry.record).length ≤ maxEntries := by
    rw [List.length_map]
    exact List.length_take_le _ _
  rw [decode_eq_ok_iff, encode_eq]
  refine ⟨_, recordReader_recordPayload hcount, ?_⟩
  simp only [List.map_map, Function.comp_def, Entry.entry_cut_record]

/-- What fits in a response comes back as it was. -/
theorem decode_encode_of_le {entries : List Entry} (hcount : entries.length ≤ maxEntries)
    (hcut : ∀ entry ∈ entries, entry.cut = entry) : decode (encode entries) = .ok entries := by
  rw [decode_encode, List.take_of_length_le hcount, List.map_congr_left hcut, List.map_id']

/-- What has come back once comes back as it is. -/
theorem decode_encode_again {entries again : List Entry}
    (hdecode : decode (encode entries) = .ok again) : decode (encode again) = .ok again := by
  rw [decode_encode] at hdecode
  cases hdecode
  apply decode_encode_of_le
  · rw [List.length_map]
    exact List.length_take_le _ _
  · intro entry hmem
    obtain ⟨sent, -, rfl⟩ := List.mem_map.mp hmem
    exact sent.cut_cut

theorem Record.encode_entry {record : Record} (htext : Utf8.IsText record.revision) :
    record.entry.encode = record.encode := by
  rw [← Entry.encode_record, Entry.record, Record.entry, htext.encode_lossy]

theorem revisionFields_eq {records : List Record}
    (hread : recordReader payload = .ok (records, [])) :
    revisionFields payload = records.map (·.revision) := by
  rw [revisionFields, hread]

/-- A payload of which the revisions are text is written as it was read. -/
theorem encode_of_decode {entries : List Entry} (hdecode : decode payload = .ok entries)
    (htext : ∀ field ∈ revisionFields payload, Utf8.IsText field) : encode entries = payload := by
  obtain ⟨records, hrecords, rfl⟩ := decode_eq_ok_iff.mp hdecode
  obtain ⟨rfl, hcount, -⟩ := recordReader_sound hrecords
  rw [revisionFields_eq hrecords, List.forall_mem_map] at htext
  have hsame : ∀ record ∈ records, record.entry.encode = record.encode :=
    fun record hmem => Record.encode_entry (htext record hmem)
  rw [encode, List.take_of_length_le (by simpa using hcount), recordPayload, List.length_map,
    List.flatMap_map, List.flatMap_def, List.map_congr_left hsame, List.flatMap_def]

/--
The first forty entries come back in their order, each with the text that the
first 64 bytes of its revision show. If nothing is cut, all is as it was; and
what came back comes back unchanged, wherever a character was cut. The other
way round, a payload is written as it was read if its revisions are text.
-/
theorem round_trip_stable :
    (∀ entries, decode (encode entries) = .ok ((entries.take 40).map fun entry =>
        { entry with revision := Utf8.lossy ((Utf8.encode entry.revision).take 64) })) ∧
      (∀ entries, entries.length ≤ 40 →
        (∀ entry ∈ entries, (Utf8.encode entry.revision).length ≤ 64) →
          decode (encode entries) = .ok entries) ∧
      (∀ entries again, decode (encode entries) = .ok again →
        decode (encode again) = .ok again) ∧
      ∀ payload entries, decode payload = .ok entries →
        (revisionFields payload).map Utf8.lossy = entries.map (·.revision) ∧
          ((∀ field ∈ revisionFields payload, Utf8.IsText field) → encode entries = payload) := by
  refine ⟨decode_encode, ?_, fun _ _ => decode_encode_again, ?_⟩
  · intro entries hcount hfits
    exact decode_encode_of_le hcount fun entry hmem => Entry.cut_of_le (hfits entry hmem)
  · intro payload entries hdecode
    refine ⟨?_, encode_of_decode hdecode⟩
    obtain ⟨records, hrecords, rfl⟩ := decode_eq_ok_iff.mp hdecode
    rw [revisionFields_eq hrecords]
    simp [Record.entry]

/-- A revision of 65 bytes that is cut inside its last character, one that fits, and one that is read. -/
theorem round_trip_stable_of_cut_character :
    let id := NodeId.random 0 0
    let long : Entry := ⟨id, .v4 0x7f000001, 80, String.ofList (List.replicate 63 'a' ++ ['é']), 7, 9⟩
    let short : Entry := { long with
      revision := String.ofList (List.replicate 63 'a' ++ [Utf8.replacement]) }
    let fitting : Entry := { long with revision := "é" }
    let payload : Bytes := 1 :: id.bytes ++ [4, 127, 0, 0, 1, 0, 80, 2, 0xc3, 0xa9] ++
      bigEndian 8 7 ++ bigEndian 16 9
    (decode (encode [long]) = .ok [short] ∧ decode (encode [short]) = .ok [short]) ∧
      (Utf8.encode fitting.revision).length ≤ 64 ∧ decode (encode [fitting]) = .ok [fitting] ∧
      (decode payload = .ok [fitting] ∧ encode [fitting] = payload) := by
  intro id long short fitting payload
  have hcut : long.cut = short := by decide +kernel
  have hlong : decode (encode [long]) = .ok [short] := by
    rw [decode_encode, List.take_of_length_le (by decide), List.map_singleton, hcut]
  have hfits : ∀ entry ∈ [fitting], (Utf8.encode entry.revision).length ≤ 64 := by
    simp only [List.mem_singleton, forall_eq]
    decide
  have hpayload : decode payload = .ok [fitting] := rfl
  have htext : ∀ field ∈ revisionFields payload, Utf8.IsText field := by
    have hfields : revisionFields payload = [Utf8.encode "é"] := rfl
    simp only [hfields, List.mem_singleton, forall_eq]
    exact ⟨"é", rfl⟩
  exact ⟨⟨hlong, round_trip_stable.2.2.1 [long] [short] hlong⟩, hfits fitting List.mem_cons_self,
    round_trip_stable.2.1 [fitting] (by decide) hfits, hpayload,
    (round_trip_stable.2.2.2 payload [fitting] hpayload).2 htext⟩

end Gossip

end Peering
