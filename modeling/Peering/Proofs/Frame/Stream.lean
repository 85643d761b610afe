import Peering.Frame.Stream
import Peering.Proofs.Bytes

/-!
# Frames do not depend on how their bytes arrive

The front of a buffer is a frame exactly when the buffer starts with the bytes
of that frame, so bytes that arrive later never change what was read. Main
statement: however a byte string is cut into pieces, reading the pieces gives
the frames, the rest and the refusal that reading it in one piece gives, and
the frames and the rest are all of its bytes.
-/

namespace Peering

/-! ## Headers -/

namespace Header

variable {header : Header} {buffer : Bytes}

theorem length_encode (header : Header) : header.encode.length = byteLength := by
  simp [encode, byteLength]

theorem peek?_encode_append (header : Header) (rest : Bytes) :
    peek? (header.encode ++ rest) = some header := by
  have hversion : bigEndianValue (bigEndian 2 header.version.toNat) = header.version.toNat :=
    bigEndianValue_bigEndian header.version.toNat_lt
  have hlength : bigEndianValue (bigEndian 4 header.length.toNat) = header.length.toNat :=
    bigEndianValue_bigEndian header.length.toNat_lt
  obtain ⟨v1, v0, hv⟩ : ∃ v1 v0, bigEndian 2 header.version.toNat = [v1, v0] := ⟨_, _, rfl⟩
  obtain ⟨l3, l2, l1, l0, hl⟩ : ∃ l3 l2 l1 l0, bigEndian 4 header.length.toNat = [l3, l2, l1, l0] :=
    ⟨_, _, _, _, rfl⟩
  rw [hv] at hversion
  rw [hl] at hlength
  simp only [encode, hv, hl, List.cons_append, List.nil_append, peek?, hversion, hlength,
    UInt16.ofNat_toNat, UInt32.ofNat_toNat]

/-- A buffer shows a header exactly when it starts with the bytes of the header. -/
theorem peek?_eq_some_iff : peek? buffer = some header ↔ ∃ rest, buffer = header.encode ++ rest := by
  constructor
  · intro hpeek
    unfold peek? at hpeek
    split at hpeek
    · rename_i v1 v0 ctrl action l3 l2 l1 l0 rest
      cases hpeek
      have hversion : (UInt16.ofNat (bigEndianValue [v1, v0])).toNat = bigEndianValue [v1, v0] :=
        UInt16.toNat_ofNat_of_lt' (show _ < byteWeight 2 from bigEndianValue_lt [v1, v0])
      have hlength : (UInt32.ofNat (bigEndianValue [l3, l2, l1, l0])).toNat =
          bigEndianValue [l3, l2, l1, l0] :=
        UInt32.toNat_ofNat_of_lt' (show _ < byteWeight 4 from bigEndianValue_lt [l3, l2, l1, l0])
      have hfirst : bigEndian 2 (bigEndianValue [v1, v0]) = [v1, v0] :=
        bigEndian_bigEndianValue [v1, v0]
      have hlast : bigEndian 4 (bigEndianValue [l3, l2, l1, l0]) = [l3, l2, l1, l0] :=
        bigEndian_bigEndianValue [l3, l2, l1, l0]
      exact ⟨rest, by simp [encode, hversion, hlength, hfirst, hlast]⟩
    · cases hpeek
  · rintro ⟨rest, rfl⟩
    exact peek?_encode_append header rest

theorem peek?_append (hpeek : peek? buffer = some header) (more : Bytes) :
    peek? (buffer ++ more) = some header := by
  obtain ⟨rest, rfl⟩ := peek?_eq_some_iff.mp hpeek
  rw [List.append_assoc]
  exact peek?_encode_append header _

/-- Eight bytes always show a header. -/
theorem peek?_eq_none_iff : peek? buffer = none ↔ buffer.length < byteLength := by
  constructor
  · intro hpeek
    unfold peek? at hpeek
    split at hpeek
    · cases hpeek
    · rename_i hfew
      match buffer, hfew with
      | [], _ | [_], _ | [_, _], _ | [_, _, _], _ | [_, _, _, _], _ | [_, _, _, _, _], _
      | [_, _, _, _, _, _], _ | [_, _, _, _, _, _, _], _ => simp [byteLength]
      | v1 :: v0 :: ctrl :: action :: l3 :: l2 :: l1 :: l0 :: rest, hfew =>
          exact absurd rfl (hfew v1 v0 ctrl action l3 l2 l1 l0 rest)
  · exact FrameStream.peek?_eq_none_of_short

end Header

theorem Frame.encode_ne_nil (frame : Frame) : frame.encode ≠ [] := by
  intro hempty
  have hlength := congrArg List.length hempty
  simp [encode, Header.encode] at hlength

namespace FrameStream

variable {limit : Nat} {buffer rest : Bytes} {frame : Frame} {error : Oversized}

/-! ## The front of a buffer -/

/-- The header that is written for a payload whose length fits the field. -/
theorem header_of_length {header : Header} {payload : Bytes}
    (hlength : payload.length = header.length.toNat) :
    (Frame.mk header.version header.ctrl header.action payload).header = header := by
  have hbound : header.length.toNat ≤ 0xffffffff := Nat.le_of_lt_succ header.length.toNat_lt
  simp [Frame.header, hlength, Nat.min_eq_left hbound]

/-- The front is a frame exactly when the buffer starts with the bytes of one that is allowed. -/
theorem front_eq_frame_iff : front limit buffer = .frame frame rest ↔
    buffer = frame.encode ++ rest ∧ frame.payload.length ≤ limit ∧
      frame.payload.length < UInt32.size := by
  constructor
  · intro hfront
    unfold front at hfront
    split at hfront
    · cases hfront
    rename_i header hpeek
    obtain ⟨body, rfl⟩ := Header.peek?_eq_some_iff.mp hpeek
    dsimp only at hfront
    rw [← header.length_encode, List.drop_left] at hfront
    split at hfront
    · cases hfront
    rename_i hlimit
    split at hfront
    · cases hfront
    rename_i hbody
    cases hfront
    have htaken : (body.take header.length.toNat).length = header.length.toNat := by
      rw [List.length_take]
      omega
    refine ⟨?_, ?_, ?_⟩
    · rw [Frame.encode, header_of_length htaken, List.append_assoc, List.take_append_drop]
    · exact htaken.symm ▸ Nat.le_of_not_lt hlimit
    · exact htaken.symm ▸ header.length.toNat_lt
  · rintro ⟨rfl, hlimit, hsize⟩
    have hlength : frame.header.length.toNat = frame.payload.length := by
      have hbound : frame.payload.length ≤ 0xffffffff := Nat.le_of_lt_succ hsize
      rw [Frame.header, Nat.min_eq_left hbound]
      exact Nat.mod_eq_of_lt hsize
    have hdrop : (frame.header.encode ++ (frame.payload ++ rest)).drop Header.byteLength =
        frame.payload ++ rest := by
      rw [← frame.header.length_encode, List.drop_left]
    rw [front, Frame.encode, List.append_assoc, Header.peek?_encode_append]
    simp only [hlength, hdrop]
    rw [if_neg (by omega), if_neg (by simp), List.take_left, List.drop_left]
    rfl

/-- A refusal is decided by the header alone. -/
theorem front_eq_oversized_iff : front limit buffer = .oversized error ↔
    ∃ header, Header.peek? buffer = some header ∧ limit < header.length.toNat ∧
      error = ⟨header.length.toNat, limit⟩ := by
  cases hpeek : Header.peek? buffer with
  | none => simp [front, hpeek]
  | some header =>
      by_cases hlimit : limit < header.length.toNat
      · simp [front, hpeek, hlimit, eq_comm]
      · simp only [front, hpeek, hlimit, if_false]
        constructor
        · intro hfront
          split at hfront <;> cases hfront
        · rintro ⟨_, hsame, hover, _⟩
          cases hsame
          exact absurd hover hlimit

/-- Nothing can be read yet when the header or some of the announced payload is missing. -/
theorem front_eq_incomplete_iff : front limit buffer = .incomplete ↔
    buffer.length < Header.byteLength ∨
      ∃ header, Header.peek? buffer = some header ∧ header.length.toNat ≤ limit ∧
        buffer.length < Header.byteLength + header.length.toNat := by
  cases hpeek : Header.peek? buffer with
  | none => simp [front, hpeek, Header.peek?_eq_none_iff.mp hpeek]
  | some header =>
      have hlong : ¬buffer.length < Header.byteLength := by
        rw [← Header.peek?_eq_none_iff, hpeek]
        simp
      by_cases hlimit : limit < header.length.toNat
      · simp only [front, hpeek, hlimit, if_true, reduceCtorEq, false_iff, hlong, false_or]
        rintro ⟨_, hsame, hwithin, _⟩
        cases hsame
        exact absurd hlimit (Nat.not_lt.mpr hwithin)
      · by_cases hbody : (buffer.drop Header.byteLength).length < header.length.toNat
        · simp only [front, hpeek, hlimit, hbody, if_true, if_false, true_iff]
          rw [List.length_drop] at hbody
          exact Or.inr ⟨header, rfl, by omega, by omega⟩
        · simp only [front, hpeek, hlimit, hbody, if_false, reduceCtorEq, false_iff, hlong,
            false_or, Option.some.injEq]
          rw [List.length_drop] at hbody
          rintro ⟨_, rfl, _, hless⟩
          omega

/-- The first bytes of an allowed frame are incomplete until they are all of it. -/
theorem front_of_prefix {missing : Bytes} (hwhole : buffer ++ missing = frame.encode)
    (hlimit : frame.payload.length ≤ limit) (hsize : frame.payload.length < UInt32.size) :
    front limit buffer = if missing = [] then .frame frame [] else .incomplete := by
  split
  · rename_i hnone
    rw [hnone, List.append_nil] at hwhole
    exact front_eq_frame_iff.mpr ⟨by rw [hwhole, List.append_nil], hlimit, hsize⟩
  · rename_i hmissing
    have hlength := congrArg List.length hwhole
    rw [List.length_append, Frame.length_encode, Frame.wireLength] at hlength
    have hpos := List.length_pos_iff.mpr hmissing
    apply front_eq_incomplete_iff.mpr
    cases hpeek : Header.peek? buffer with
    | none => exact Or.inl (Header.peek?_eq_none_iff.mp hpeek)
    | some header =>
        right
        have hpeekWhole := Header.peek?_append hpeek missing
        rw [hwhole, Frame.encode, Header.peek?_encode_append] at hpeekWhole
        obtain rfl := Option.some.inj hpeekWhole
        have hbound : frame.payload.length ≤ 0xffffffff := Nat.le_of_lt_succ hsize
        have hannounced : frame.header.length.toNat = frame.payload.length := by
          rw [Frame.header, Nat.min_eq_left hbound]
          exact Nat.mod_eq_of_lt hsize
        exact ⟨frame.header, rfl, hannounced ▸ hlimit, by omega⟩

theorem front_append_frame (hfront : front limit buffer = .frame frame rest) (more : Bytes) :
    front limit (buffer ++ more) = .frame frame (rest ++ more) := by
  obtain ⟨rfl, hallowed⟩ := front_eq_frame_iff.mp hfront
  exact front_eq_frame_iff.mpr ⟨List.append_assoc _ _ _, hallowed⟩

/-! ## Draining a buffer -/

theorem drain_of_frame (hfront : front limit buffer = .frame frame rest) :
    drain limit buffer = { drain limit rest with frames := frame :: (drain limit rest).frames } := by
  rw [drain]
  split <;> simp_all

theorem drain_of_incomplete (hfront : front limit buffer = .incomplete) :
    drain limit buffer = ⟨[], buffer, none⟩ := by
  rw [drain]
  split <;> simp_all

theorem drain_of_oversized (hfront : front limit buffer = .oversized error) :
    drain limit buffer = ⟨[], buffer, some error⟩ := by
  rw [drain]
  split <;> simp_all

/-- What is read on, after what has been read. -/
def Reading.andThen (first later : Reading) : Reading :=
  { later with frames := first.frames ++ later.frames }

/-- Bytes that come later are read as if the rest had been waiting for them. -/
theorem drain_append (limit : Nat) (buffer more : Bytes) :
    drain limit (buffer ++ more) =
      (drain limit buffer).andThen (drain limit ((drain limit buffer).rest ++ more)) := by
  induction buffer using drain.induct limit with
  | case1 buffer hfront => simp [drain_of_incomplete hfront, Reading.andThen]
  | case2 buffer error hfront => simp [drain_of_oversized hfront, Reading.andThen]
  | case3 buffer frame rest hfront ih =>
      rw [drain_of_frame (front_append_frame hfront more), ih, drain_of_frame hfront]
      simp [Reading.andThen]

/-- The frames and the rest are all of the bytes. -/
theorem flatMap_encode_append_rest (limit : Nat) (buffer : Bytes) :
    (drain limit buffer).frames.flatMap Frame.encode ++ (drain limit buffer).rest = buffer := by
  induction buffer using drain.induct limit with
  | case1 buffer hfront => simp [drain_of_incomplete hfront]
  | case2 buffer error hfront => simp [drain_of_oversized hfront]
  | case3 buffer frame rest hfront ih =>
      rw [drain_of_frame hfront, (front_eq_frame_iff.mp hfront).1]
      simp only [List.flatMap_cons, List.append_assoc, ih]

/-- The rest has no frame at its front, and the refusal is that of its front. -/
theorem front_rest (limit : Nat) (buffer : Bytes) :
    front limit (drain limit buffer).rest =
      ((drain limit buffer).refusal.map Front.oversized).getD .incomplete := by
  induction buffer using drain.induct limit with
  | case1 buffer hfront => simp [drain_of_incomplete hfront, hfront]
  | case2 buffer error hfront => simp [drain_of_oversized hfront, hfront]
  | case3 buffer frame rest hfront ih => simpa [drain_of_frame hfront] using ih

/-! ## Bytes that arrive in pieces -/

/-- A reader to which nothing has come. -/
def Reading.none : Reading :=
  ⟨[], [], Option.none⟩

/-- Feeds one piece after the other; the rest of each reading waits for the next piece. -/
def feedMany (limit : Nat) (pieces : List Bytes) : Reading :=
  pieces.foldl (fun reading piece => reading.andThen (feed limit reading.rest piece)) Reading.none

theorem foldl_feed_drain (limit : Nat) (buffer : Bytes) (pieces : List Bytes) :
    pieces.foldl (fun reading piece => reading.andThen (feed limit reading.rest piece))
        (drain limit buffer) =
      drain limit (buffer ++ pieces.flatten) := by
  -- the buffer grows by each piece, because a reading goes on where the one before it stopped
  induction pieces generalizing buffer with
  | nil => simp
  | cons piece pieces ih =>
      rw [List.foldl_cons, feed, ← drain_append, ih, List.flatten_cons, List.append_assoc]

theorem feedMany_eq_drain (limit : Nat) (pieces : List Bytes) :
    feedMany limit pieces = drain limit pieces.flatten := by
  have hnone : Reading.none = drain limit [] := (drain_of_incomplete rfl).symm
  rw [feedMany, hnone, foldl_feed_drain, List.nil_append]

/-- What is left when a reader stops: too few bytes, a frame that is not complete, or a refusal. -/
inductive Stop (limit : Nat) (rest : Bytes) : Option Oversized → Prop where
  | short (hshort : rest.length < Header.byteLength) : Stop limit rest Option.none
  | waiting (header : Header) (hpeek : Header.peek? rest = some header)
      (hlimit : header.length.toNat ≤ limit)
      (hbody : rest.length < Header.byteLength + header.length.toNat) : Stop limit rest Option.none
  | refused (header : Header) (hpeek : Header.peek? rest = some header)
      (hover : limit < header.length.toNat) :
      Stop limit rest (some ⟨header.length.toNat, limit⟩)

theorem stop_drain (limit : Nat) (buffer : Bytes) :
    Stop limit (drain limit buffer).rest (drain limit buffer).refusal := by
  have hfront := front_rest limit buffer
  cases hrefusal : (drain limit buffer).refusal with
  | none =>
      rw [hrefusal] at hfront
      rcases front_eq_incomplete_iff.mp hfront with hshort | ⟨header, hpeek, hlimit, hbody⟩
      · exact Stop.short hshort
      · exact Stop.waiting header hpeek hlimit hbody
  | some error =>
      rw [hrefusal] at hfront
      obtain ⟨header, hpeek, hover, rfl⟩ := front_eq_oversized_iff.mp hfront
      exact Stop.refused header hpeek hover

/--
Cutting a byte string into pieces changes nothing: the same frames, the same
rest and the same refusal. No byte is lost or invented, a refusal uses none, and
reading stops only where the rest says so.
-/
theorem feedMany_flatten (limit : Nat) (pieces : List Bytes) :
    feedMany limit pieces = feed limit [] pieces.flatten ∧
      (feedMany limit pieces).frames.flatMap Frame.encode ++ (feedMany limit pieces).rest =
        pieces.flatten ∧
      Stop limit (feedMany limit pieces).rest (feedMany limit pieces).refusal := by
  rw [feedMany_eq_drain]
  exact ⟨rfl, flatMap_encode_append_rest limit _, stop_drain limit _⟩

end FrameStream

end Peering
