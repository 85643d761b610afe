import Mathlib.Data.List.TakeWhile
import Peering.Proofs.Frame.Stream

/-!
# The writer and the reader of a stream agree

One limit governs both ends. A frame is written exactly when the reader takes
its header, and then as its own bytes and nothing else; a refused frame leaves
the output as it was. Main statement: if all frames are written, then reading
the output, cut into any pieces, gives the frames again and leaves nothing.
-/

namespace Peering

/-- The length field shows no more than 32 bits can. -/
theorem Frame.header_length (frame : Frame) :
    frame.header.length.toNat = min frame.payload.length 0xffffffff :=
  UInt32.toNat_ofNat_of_lt' (Nat.lt_succ_of_le (Nat.min_le_right _ _))

namespace FrameStream

variable {limit : Nat} {frame : Frame} {output longer : Bytes}

/-! ## One frame -/

theorem write_of_le (hfits : frame.payload.length ≤ limit) (output : Bytes) :
    write limit frame output = .ok (output ++ frame.encode) := by
  rw [write, if_neg (Nat.not_lt.mpr hfits), Frame.encode, List.append_assoc]

theorem write_of_lt (hover : limit < frame.payload.length) (output : Bytes) :
    write limit frame output = .error ⟨frame.payload.length, limit⟩ :=
  if_pos hover

/-- A frame is written when its payload is within the limit, and as its own bytes. -/
theorem write_eq_ok_iff :
    write limit frame output = .ok longer ↔
      frame.payload.length ≤ limit ∧ longer = output ++ frame.encode := by
  by_cases hfits : frame.payload.length ≤ limit
  · simp [write_of_le hfits, hfits, eq_comm]
  · simp [write_of_lt (Nat.lt_of_not_le hfits), hfits]

/-- The reader refuses what follows as soon as it sees this header. -/
def Refuses (limit : Nat) (header : Header) : Prop :=
  ∃ error, front limit header.encode = .oversized error

theorem refuses_iff {header : Header} : Refuses limit header ↔ limit < header.length.toNat := by
  have hpeek : Header.peek? header.encode = some header := by
    simpa using Header.peek?_encode_append header []
  constructor
  · rintro ⟨error, hfront⟩
    obtain ⟨shown, hshown, hover, -⟩ := front_eq_oversized_iff.mp hfront
    cases hpeek.symm.trans hshown
    exact hover
  · intro hover
    exact ⟨_, front_eq_oversized_iff.mpr ⟨header, hpeek, hover, rfl⟩⟩

/--
What is within the limit is what the reader takes. A payload whose length does
not fit the field shows a header with a smaller length, so the reader's view
decides only when the header shows the length as it is.
-/
theorem le_limit_iff_not_refuses (hlimit : limit < UInt32.size) (frame : Frame) :
    frame.payload.length ≤ limit ↔
      ¬Refuses limit frame.header ∧ frame.header.length.toNat = frame.payload.length := by
  have hsize : UInt32.size = 0xffffffff + 1 := rfl
  rw [refuses_iff, frame.header_length]
  omega

/--
The reader's view decides for every frame below the greatest limit, where even the
greatest length that the field can show is refused, and under the greatest limit for
every frame that does not exceed the field.
-/
theorem le_limit_iff_not_refuses_of_shown (hlimit : limit < UInt32.size)
    (hshown : limit < 0xffffffff ∨ frame.payload.length ≤ 0xffffffff) :
    frame.payload.length ≤ limit ↔ ¬Refuses limit frame.header := by
  have hsize : UInt32.size = 0xffffffff + 1 := rfl
  rw [refuses_iff, frame.header_length]
  omega

/-! ## One frame after the other -/

/-- What a writer has put out, and the refusal that stopped it. -/
structure Writing where
  output : Bytes
  refusal : Option Oversized
deriving DecidableEq, Repr

/-- Writes frames until one is refused, and goes on from the output that there was then. -/
def writeMany (limit : Nat) : List Frame → Bytes → Writing
  | [], output => ⟨output, none⟩
  | frame :: later, output =>
      match write limit frame output with
      | .error refusal => ⟨output, some refusal⟩
      | .ok longer => writeMany limit later longer

/-- The output holds the frames before the first one above the limit, and that one is refused. -/
theorem writeMany_eq (limit : Nat) (frames : List Frame) (output : Bytes) :
    writeMany limit frames output =
      ⟨output ++ (frames.takeWhile (·.payload.length ≤ limit)).flatMap Frame.encode,
        (frames.find? (limit < ·.payload.length)).map (⟨·.payload.length, limit⟩)⟩ := by
  induction frames generalizing output with
  | nil => simp [writeMany]
  | cons frame later ih =>
      by_cases hfits : frame.payload.length ≤ limit
      · simp [writeMany, write_of_le hfits, ih, hfits, Nat.not_lt.mpr hfits]
      · have hover := Nat.lt_of_not_le hfits
        simp [writeMany, write_of_lt hover, hfits, hover]

theorem writeMany_of_none {frames : List Frame}
    (hnone : (writeMany limit frames output).refusal = none) :
    (∀ frame ∈ frames, frame.payload.length ≤ limit) ∧
      (writeMany limit frames output).output = output ++ frames.flatMap Frame.encode := by
  rw [writeMany_eq] at hnone ⊢
  have hfits : ∀ frame ∈ frames, frame.payload.length ≤ limit := by
    simpa using hnone
  have hwhole : frames.takeWhile (·.payload.length ≤ limit) = frames :=
    List.takeWhile_eq_self_iff.mpr (by simpa using hfits)
  exact ⟨hfits, by rw [hwhole]⟩

/-- Frames within the limit are read off their bytes one by one, and nothing is left. -/
theorem drain_flatMap_encode (hlimit : limit < UInt32.size) {frames : List Frame}
    (hfits : ∀ frame ∈ frames, frame.payload.length ≤ limit) :
    drain limit (frames.flatMap Frame.encode) = ⟨frames, [], none⟩ := by
  induction frames with
  | nil => exact drain_of_incomplete rfl
  | cons frame later ih =>
      have hframe := hfits frame List.mem_cons_self
      have hfront : front limit (frame.encode ++ later.flatMap Frame.encode) =
          .frame frame (later.flatMap Frame.encode) :=
        front_eq_frame_iff.mpr ⟨rfl, hframe, Nat.lt_of_le_of_lt hframe hlimit⟩
      rw [List.flatMap_cons, drain_of_frame hfront,
        ih fun frame hmem => hfits frame (List.mem_cons_of_mem _ hmem)]

/--
Writer and reader agree under every limit that the length field can show. A
frame is written exactly when its payload is within the limit. That is when the
reader does not refuse the header, and the header shows the length as it is; the
latter matters only to a payload that is too long for the field, under the
greatest limit of all. The frame is written as its own bytes. A refused frame
leaves the output as it was. When all frames are written, the reader gives them
back from any pieces of the output, and its buffer is empty.
-/
theorem feedMany_of_written (limit : Nat) (hlimit : limit < UInt32.size) :
    (∀ frame output, (∃ longer, write limit frame output = .ok longer) ↔
        frame.payload.length ≤ limit) ∧
      (∀ frame : Frame, frame.payload.length ≤ limit ↔
        ¬Refuses limit frame.header ∧ frame.header.length.toNat = frame.payload.length) ∧
      (∀ frame : Frame, limit < 0xffffffff ∨ frame.payload.length ≤ 0xffffffff →
        (frame.payload.length ≤ limit ↔ ¬Refuses limit frame.header)) ∧
      (∀ frame output longer, write limit frame output = .ok longer →
        longer = output ++ frame.encode) ∧
      (∀ frames output, writeMany limit frames output =
        ⟨output ++ (frames.takeWhile (·.payload.length ≤ limit)).flatMap Frame.encode,
          (frames.find? (limit < ·.payload.length)).map (⟨·.payload.length, limit⟩)⟩) ∧
      ∀ frames pieces, (writeMany limit frames []).refusal = none →
        pieces.flatten = (writeMany limit frames []).output →
          feedMany limit pieces = ⟨frames, [], none⟩ := by
  refine ⟨?_, le_limit_iff_not_refuses hlimit, fun _ => le_limit_iff_not_refuses_of_shown hlimit, ?_,
    writeMany_eq limit, ?_⟩
  · intro frame output
    simp [write_eq_ok_iff]
  · intro frame output longer hwrite
    exact (write_eq_ok_iff.mp hwrite).2
  · intro frames pieces hnone hpieces
    obtain ⟨hfits, houtput⟩ := writeMany_of_none hnone
    rw [feedMany_eq_drain, hpieces, houtput, List.nil_append, drain_flatMap_encode hlimit hfits]

/-- Two frames of the greatest and the least length, in pieces that cut a header and a payload. -/
theorem feedMany_of_written_in_pieces :
    2 < UInt32.size ∧
      writeMany 2 [⟨1, 0, 2, [7, 8]⟩, ⟨0, 9, 9, []⟩] [] =
        ⟨[[0, 1, 0], [2, 0, 0, 0, 2, 7], [8, 0, 0], [9, 9, 0, 0, 0, 0]].flatten, none⟩ ∧
      feedMany 2 [[0, 1, 0], [2, 0, 0, 0, 2, 7], [8, 0, 0], [9, 9, 0, 0, 0, 0]] =
        ⟨[⟨1, 0, 2, [7, 8]⟩, ⟨0, 9, 9, []⟩], [], none⟩ :=
  ⟨by decide, by decide,
    (feedMany_of_written 2 (by decide)).2.2.2.2.2 [⟨1, 0, 2, [7, 8]⟩, ⟨0, 9, 9, []⟩] _
      (by decide) (by decide)⟩

/-- A frame whose payload has one byte more than the length field can show. -/
def unshown : Frame :=
  ⟨1, 1, 1, List.replicate 0x100000000 0⟩

/--
Under the greatest limit the writer refuses this frame, and the reader takes its
header, which shows the greatest length that there is.
-/
theorem unshown_refused_by_writer_alone :
    0xffffffff < UInt32.size ∧ ¬Refuses 0xffffffff unshown.header ∧
      write 0xffffffff unshown [] = .error ⟨0x100000000, 0xffffffff⟩ := by
  have hlength : unshown.payload.length = 0x100000000 := List.length_replicate
  refine ⟨by decide, ?_, ?_⟩
  · rw [refuses_iff, unshown.header_length, hlength]
    decide
  · rw [write_of_lt (by rw [hlength]; decide), hlength]

end FrameStream

end Peering
