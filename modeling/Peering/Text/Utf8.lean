import Peering.Bytes

/-!
# UTF-8

Text goes onto the wire as UTF-8 and comes back from a peer as arbitrary bytes.
The lossy reading never fails: every maximal piece that starts a character and
cannot be completed becomes one replacement character.
-/

namespace Peering

namespace Utf8

/-- The UTF-8 bytes of a text. -/
def encode (text : String) : Bytes :=
  text.toList.flatMap String.utf8EncodeChar

/-- A character that has begun: its bits so far, the tails it still owes, and the
range in which the next tail has to lie. -/
structure Partial where
  bits : Nat
  owed : Nat
  low : UInt8
  high : UInt8

/-- What a byte between characters is. -/
inductive Opening where
  | whole (char : Char)
  | begun (state : Partial)
  | stray

/-- The replacement character stands for bytes that are no text. -/
def replacement : Char := '\ufffd'

/--
Classifies a byte between characters.

The narrowed ranges after `e0`, `ed`, `f0` and `f4` leave out overlong forms,
surrogates and numbers above `10ffff`.
-/
def opening (byte : UInt8) : Opening :=
  let n := byte.toNat
  if n < 0x80 then .whole (Char.ofNat n)
  else if n < 0xc2 then .stray
  else if n < 0xe0 then .begun ⟨n - 0xc0, 1, 0x80, 0xbf⟩
  else if n = 0xe0 then .begun ⟨0, 2, 0xa0, 0xbf⟩
  else if n = 0xed then .begun ⟨0xd, 2, 0x80, 0x9f⟩
  else if n < 0xf0 then .begun ⟨n - 0xe0, 2, 0x80, 0xbf⟩
  else if n = 0xf0 then .begun ⟨0, 3, 0x90, 0xbf⟩
  else if n < 0xf4 then .begun ⟨n - 0xf0, 3, 0x80, 0xbf⟩
  else if n = 0xf4 then .begun ⟨4, 3, 0x80, 0x8f⟩
  else .stray

/-- Whether a byte continues a character that has begun. -/
def Partial.admits (state : Partial) (byte : UInt8) : Bool :=
  state.low ≤ byte && byte ≤ state.high

/-- The bits of a begun character after one more tail. -/
def Partial.bitsWith (state : Partial) (byte : UInt8) : Nat :=
  state.bits * 64 + (byte.toNat - 0x80)

/-- A begun character after a tail that does not complete it. -/
def Partial.advance (state : Partial) (byte : UInt8) : Partial :=
  ⟨state.bitsWith byte, state.owed - 1, 0x80, 0xbf⟩

/--
Lossy reading of the bytes that follow a possibly begun character. A byte that
does not continue the begun character ends it and is looked at afresh.
-/
def lossyFrom : Option Partial → Bytes → List Char
  | none, [] => []
  | some _, [] => [replacement]
  | none, byte :: rest =>
      match opening byte with
      | .whole char => char :: lossyFrom none rest
      | .begun state => lossyFrom (some state) rest
      | .stray => replacement :: lossyFrom none rest
  | some state, byte :: rest =>
      if state.admits byte then
        if state.owed ≤ 1 then Char.ofNat (state.bitsWith byte) :: lossyFrom none rest
        else lossyFrom (some (state.advance byte)) rest
      else
        match opening byte with
        | .whole char => replacement :: char :: lossyFrom none rest
        | .begun fresh => replacement :: lossyFrom (some fresh) rest
        | .stray => replacement :: replacement :: lossyFrom none rest

/-- The text of arbitrary bytes, with replacement characters where they are none. -/
def lossy (bytes : Bytes) : String :=
  String.ofList (lossyFrom none bytes)

end Utf8

end Peering
