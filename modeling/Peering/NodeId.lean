import Peering.Text.Utf8

/-!
# Node ids

A node names itself by 36 bytes, in practice the text of a random UUID. Peers
are keyed by a 32-bit hash of the id, and logs show its first six bytes.
-/

namespace Peering

/-- The key under which a peer is known: the hash of its node id. -/
abbrev IdHash := UInt32

structure NodeId where
  bytes : Bytes
  length_eq : bytes.length = 36
deriving DecidableEq

namespace NodeId

def byteLength : Nat := 36

def displayLength : Nat := 6

/-- The id made of these bytes, if there are exactly 36. -/
def ofBytes? (bytes : Bytes) : Option NodeId :=
  if h : bytes.length = 36 then some ⟨bytes, h⟩ else none

/-- The id whose text this is. -/
def ofText? (text : String) : Option NodeId :=
  ofBytes? (Utf8.encode text)

/-- FNV-1a over the bytes, in 32 bits. -/
def hash (id : NodeId) : IdHash :=
  id.bytes.foldl (fun value byte => (value ^^^ byte.toUInt32) * 0x01000193) 0x811c9dc5

/-- The first six bytes as text, for logs and handlers. -/
def display (id : NodeId) : String :=
  Utf8.lossy (id.bytes.take displayLength)

def text (id : NodeId) : String :=
  Utf8.lossy id.bytes

/-- The debugging form names the type around the text. -/
def debug (id : NodeId) : String :=
  "NodeId(" ++ id.text ++ ")"

/-! ## Random ids -/

/-- `count` lower-case hexadecimal digits of a number, highest first. -/
def hexFixed : Nat → Nat → Bytes
  | 0, _ => []
  | count + 1, n =>
      let digit := n >>> (4 * count) % 16
      UInt8.ofNat (if digit < 10 then 0x30 + digit else 0x57 + digit) :: hexFixed count n

theorem length_hexFixed (count n : Nat) : (hexFixed count n).length = count := by
  induction count with
  | zero => rfl
  | succ count ih => simp [hexFixed, ih]

def hyphen : UInt8 := 0x2d

/-- The bytes of a hyphenated UUID of version 4, made from 122 of the random bits. -/
def randomBytes (high low : UInt64) : Bytes :=
  let a := high.toNat
  let b := low.toNat
  hexFixed 8 (a >>> 32) ++ hyphen :: hexFixed 4 ((a >>> 16) % 0x10000) ++
    hyphen :: hexFixed 4 (0x4000 + a % 0x1000) ++
    hyphen :: hexFixed 4 (0x8000 + (b >>> 48) % 0x4000) ++
    hyphen :: hexFixed 12 (b % 0x1000000000000)

/-- A fresh id from random bits. -/
def random (high low : UInt64) : NodeId :=
  ⟨randomBytes high low, by simp [randomBytes, length_hexFixed]⟩

end NodeId

end Peering
