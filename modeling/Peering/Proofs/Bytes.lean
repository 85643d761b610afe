import Peering.Bytes

/-!
# Big-endian fields, read and written again

A field of a given width and the number that it denotes determine each other:
writing the number that was read from a field gives back its bytes.
-/

namespace Peering

theorem byteWeight_pos (place : Nat) : 0 < byteWeight place := by
  induction place with
  | zero => exact Nat.one_pos
  | succ place ih => exact Nat.mul_pos ih (by omega)

theorem bigEndianFrom_eq (high : Nat) (bytes : Bytes) :
    bigEndianFrom high bytes = high * byteWeight bytes.length + bigEndianValue bytes := by
  induction bytes generalizing high with
  | nil => simp [bigEndianFrom, bigEndianValue, byteWeight]
  | cons byte rest ih =>
      have hweight : high * byteWeight (rest.length + 1) =
          high * 256 * byteWeight rest.length := by
        rw [byteWeight, Nat.mul_comm (byteWeight _), Nat.mul_assoc]
      simp only [bigEndianFrom, bigEndianValue, List.length_cons, Nat.zero_mul, Nat.zero_add]
      rw [ih, ih byte.toNat, hweight, Nat.add_mul, Nat.add_assoc]

theorem bigEndianValue_cons (byte : UInt8) (rest : Bytes) :
    bigEndianValue (byte :: rest) = byte.toNat * byteWeight rest.length + bigEndianValue rest := by
  have h := bigEndianFrom_eq byte.toNat rest
  simpa [bigEndianValue, bigEndianFrom] using h

theorem bigEndianValue_lt (bytes : Bytes) : bigEndianValue bytes < byteWeight bytes.length := by
  induction bytes with
  | nil => exact Nat.one_pos
  | cons byte rest ih =>
      have hbyte : byte.toNat + 1 ≤ 256 := byte.toNat_lt
      have hroom := Nat.mul_le_mul_right (byteWeight rest.length) hbyte
      rw [bigEndianValue_cons, List.length_cons, byteWeight, Nat.mul_comm (byteWeight _)]
      rw [Nat.add_mul, Nat.one_mul] at hroom
      omega

/-- A field shows nothing of a number but its low-order bytes. -/
theorem bigEndian_add_mul (width high n : Nat) :
    bigEndian width (high * byteWeight width + n) = bigEndian width n := by
  induction width generalizing high with
  | zero => rfl
  | succ width ih =>
      have hweight : high * byteWeight (width + 1) = high * 256 * byteWeight width := by
        rw [byteWeight, Nat.mul_comm (byteWeight width), Nat.mul_assoc]
      have hdigit : (high * 256 * byteWeight width + n) / byteWeight width =
          high * 256 + n / byteWeight width := by
        rw [Nat.add_comm, Nat.add_mul_div_right _ _ (byteWeight_pos width), Nat.add_comm]
      have hbyte : UInt8.ofNat (high * 256 + n / byteWeight width) =
          UInt8.ofNat (n / byteWeight width) := by
        apply UInt8.toNat.inj
        simp [UInt8.toNat_ofNat']
      rw [bigEndian, bigEndian, hweight, hdigit, hbyte, ih]

/-- Writing the number that a field denotes gives back the field. -/
theorem bigEndian_bigEndianValue (bytes : Bytes) :
    bigEndian bytes.length (bigEndianValue bytes) = bytes := by
  induction bytes with
  | nil => rfl
  | cons byte rest ih =>
      have hdigit : (byte.toNat * byteWeight rest.length + bigEndianValue rest) /
          byteWeight rest.length = byte.toNat := by
        rw [Nat.add_comm, Nat.add_mul_div_right _ _ (byteWeight_pos _),
          Nat.div_eq_of_lt (bigEndianValue_lt rest), Nat.zero_add]
      rw [List.length_cons, bigEndian, bigEndianValue_cons, hdigit, bigEndian_add_mul, ih,
        UInt8.ofNat_toNat]

theorem bigEndian_of_length {width : Nat} {bytes : Bytes} (hlength : bytes.length = width) :
    bigEndian width (bigEndianValue bytes) = bytes := by
  rw [← hlength, bigEndian_bigEndianValue]

theorem bigEndianValue_lt_of_length {width : Nat} {bytes : Bytes} (hlength : bytes.length = width) :
    bigEndianValue bytes < byteWeight width :=
  hlength ▸ bigEndianValue_lt bytes

end Peering
