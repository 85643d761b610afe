import Peering.Bytes

/-!
# Frames

Every message on a socket is a frame: a header of eight bytes (version, control,
action, payload length) and the payload. Control 0 belongs to the network core
itself; every other control is for applications.
-/

namespace Peering

/-- What a frame is dispatched by. -/
structure Route where
  ctrl : UInt8
  action : UInt8
deriving DecidableEq, Repr

namespace Route

/-- The route as one 16-bit number, control in the high byte. -/
def code (route : Route) : Nat :=
  route.ctrl.toNat * 256 + route.action.toNat

def debug (route : Route) : String :=
  "Route(" ++ toString route.ctrl.toNat ++ "/" ++ toString route.action.toNat ++ ")"

end Route

/-- The control code of the network core. -/
def netCtrl : UInt8 := 0

/-- The version that core frames carry. -/
def netVersion : UInt16 := 0

/-! Actions of the network core. -/

namespace NetAction

def handshakeRequest : UInt8 := 0
def handshakeResponse : UInt8 := 1
def ping : UInt8 := 2
def pong : UInt8 := 3
def activeNodesRequest : UInt8 := 4
def activeNodesResponse : UInt8 := 5

end NetAction

structure Header where
  version : UInt16
  ctrl : UInt8
  action : UInt8
  length : UInt32
deriving DecidableEq, Repr

namespace Header

def byteLength : Nat := 8

def route (header : Header) : Route :=
  ⟨header.ctrl, header.action⟩

def encode (header : Header) : Bytes :=
  bigEndian 2 header.version.toNat ++
    header.ctrl :: header.action :: bigEndian 4 header.length.toNat

/-- The header at the front of a buffer, once its eight bytes are there. -/
def peek? : Bytes → Option Header
  | v1 :: v0 :: ctrl :: action :: l3 :: l2 :: l1 :: l0 :: _ =>
      some {
        version := UInt16.ofNat (bigEndianValue [v1, v0])
        ctrl := ctrl
        action := action
        length := UInt32.ofNat (bigEndianValue [l3, l2, l1, l0])
      }
  | _ => none

end Header

structure Frame where
  version : UInt16
  ctrl : UInt8
  action : UInt8
  payload : Bytes
deriving DecidableEq, Repr

namespace Frame

/-- A frame of the network core. -/
def net (action : UInt8) (payload : Bytes) : Frame :=
  ⟨netVersion, netCtrl, action, payload⟩

def route (frame : Frame) : Route :=
  ⟨frame.ctrl, frame.action⟩

def isNet (frame : Frame) : Bool :=
  frame.ctrl == netCtrl

/-- The header of a frame; a payload too long for the length field writes the greatest length. -/
def header (frame : Frame) : Header where
  version := frame.version
  ctrl := frame.ctrl
  action := frame.action
  length := UInt32.ofNat (min frame.payload.length 0xffffffff)

def wireLength (frame : Frame) : Nat :=
  Header.byteLength + frame.payload.length

/-- The frame as it stands on the wire. -/
def encode (frame : Frame) : Bytes :=
  frame.header.encode ++ frame.payload

@[simp] theorem length_encode (frame : Frame) : frame.encode.length = frame.wireLength := by
  simp [encode, Header.encode, wireLength, Header.byteLength]
  omega

end Frame

end Peering
