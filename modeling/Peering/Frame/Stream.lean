import Peering.Frame

/-!
# Frames in a byte stream

A socket delivers bytes in arbitrary pieces. The reader takes complete frames
off the front of what has arrived, waits while the front frame is incomplete,
and refuses a header that announces more than the limit. A refusal uses nothing.
-/

namespace Peering

/-- A payload length above the limit. -/
structure Oversized where
  length : Nat
  limit : Nat
deriving DecidableEq, Repr

def Oversized.message (error : Oversized) : String :=
  "Frame body of " ++ toString error.length ++ " bytes exceeds limit of " ++ toString error.limit

/-- What stands at the front of a buffer. -/
inductive Front where
  /-- A complete frame, and the bytes after it. -/
  | frame (frame : Frame) (rest : Bytes)
  /-- A frame of which bytes are missing. -/
  | incomplete
  | oversized (error : Oversized)
deriving DecidableEq, Repr

namespace FrameStream

/-- Looks at the front of a buffer, with payloads of at most `limit` bytes. -/
def front (limit : Nat) (buffer : Bytes) : Front :=
  match Header.peek? buffer with
  | none => .incomplete
  | some header =>
      let length := header.length.toNat
      let body := buffer.drop Header.byteLength
      if limit < length then .oversized ⟨length, limit⟩
      else if body.length < length then .incomplete
      else .frame ⟨header.version, header.ctrl, header.action, body.take length⟩ (body.drop length)

theorem peek?_eq_none_of_short {buffer : Bytes} (hshort : buffer.length < 8) :
    Header.peek? buffer = none := by
  unfold Header.peek?
  split
  · simp at hshort
    omega
  · rfl

/-- A frame uses at least its header. -/
theorem length_rest_lt {limit : Nat} {buffer rest : Bytes} {frame : Frame}
    (hfront : front limit buffer = .frame frame rest) : rest.length < buffer.length := by
  by_cases hshort : buffer.length < 8
  · simp [front, peek?_eq_none_of_short hshort] at hfront
  · unfold front at hfront
    split at hfront
    · cases hfront
    · dsimp only at hfront
      split at hfront
      · cases hfront
      · split at hfront
        · cases hfront
        · injection hfront with _ hrest
          subst hrest
          simp only [List.length_drop, Header.byteLength]
          omega

/-- The frames taken off a buffer, what is left of it, and the refusal that stopped the reading. -/
structure Reading where
  frames : List Frame
  rest : Bytes
  refusal : Option Oversized
deriving DecidableEq, Repr

/-- Takes frames off the buffer until none is complete or one is refused. -/
def drain (limit : Nat) (buffer : Bytes) : Reading :=
  match _ : front limit buffer with
  | .incomplete => ⟨[], buffer, none⟩
  | .oversized error => ⟨[], buffer, some error⟩
  | .frame frame rest =>
      let later := drain limit rest
      { later with frames := frame :: later.frames }
termination_by buffer.length
decreasing_by exact length_rest_lt (by assumption)

/-- Appends a piece to the buffer and drains it. -/
def feed (limit : Nat) (buffer piece : Bytes) : Reading :=
  drain limit (buffer ++ piece)

/-- Appends a frame to an output, unless the reader on the other side would refuse it. -/
def write (limit : Nat) (frame : Frame) (output : Bytes) : Except Oversized Bytes :=
  if limit < frame.payload.length then .error ⟨frame.payload.length, limit⟩
  else .ok (output ++ frame.header.encode ++ frame.payload)

end FrameStream

end Peering
