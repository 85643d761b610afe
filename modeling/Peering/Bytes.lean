/-!
# Byte strings and big-endian fields

Everything on the wire is a list of bytes, and every fixed-width number in it
stands most significant byte first. Main statements: a field has exactly its
width, and reading a written field gives the number back when it fits.
-/

namespace Peering

abbrev Bytes := List UInt8

/-- The weight of a byte that has `place` bytes after it. -/
def byteWeight : Nat → Nat
  | 0 => 1
  | place + 1 => byteWeight place * 256

/-- The `width` low-order bytes of a number, most significant first. -/
def bigEndian : Nat → Nat → Bytes
  | 0, _ => []
  | width + 1, n => UInt8.ofNat (n / byteWeight width) :: bigEndian width n

/-- The number that a big-endian field denotes, continuing from the digits before it. -/
def bigEndianFrom (high : Nat) : Bytes → Nat
  | [] => high
  | byte :: rest => bigEndianFrom (high * 256 + byte.toNat) rest

/-- The number that a big-endian field denotes. -/
def bigEndianValue (bytes : Bytes) : Nat :=
  bigEndianFrom 0 bytes

@[simp] theorem length_bigEndian (width n : Nat) : (bigEndian width n).length = width := by
  induction width with
  | zero => rfl
  | succ width ih => simp [bigEndian, ih]

theorem bigEndianFrom_bigEndian (width high n : Nat) :
    bigEndianFrom high (bigEndian width n)
      = high * byteWeight width + n % byteWeight width := by
  induction width generalizing high with
  | zero => simp [bigEndian, bigEndianFrom, byteWeight, Nat.mod_one]
  | succ width ih =>
      have hsplit : n % byteWeight (width + 1) =
          n / byteWeight width % 256 * byteWeight width + n % byteWeight width := by
        rw [byteWeight, Nat.mod_mul, Nat.mul_comm (byteWeight width), Nat.add_comm]
      have hweight : high * byteWeight (width + 1) = high * 256 * byteWeight width := by
        rw [byteWeight, Nat.mul_comm (byteWeight width), Nat.mul_assoc]
      have hbyte : (UInt8.ofNat (n / byteWeight width)).toNat = n / byteWeight width % 256 := rfl
      simp only [bigEndian, bigEndianFrom, ih, hsplit, hbyte, hweight, Nat.add_mul]
      omega

theorem bigEndianValue_bigEndian {width n : Nat} (hfits : n < byteWeight width) :
    bigEndianValue (bigEndian width n) = n := by
  simp [bigEndianValue, bigEndianFrom_bigEndian, Nat.mod_eq_of_lt hfits]

end Peering
