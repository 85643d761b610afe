import Peering.Payload
import Peering.Proofs.Bytes
import Peering.Proofs.Reader

/-!
# Payload fields are read as they were written

A reader that meets the bytes its writer made gives the value back and leaves
what comes after them.
-/

namespace Peering

namespace Payload

open Reader (bind_ok)

variable {α β : Type} {bytes rest : Bytes} {field : String}

theorem pure_ok (value : α) : (pure value : Reader α) bytes = .ok (value, bytes) :=
  rfl

/-! ## Fixed-width fields -/

theorem take_append {count : Nat} (hlength : bytes.length = count) :
    take count field (bytes ++ rest) = .ok (bytes, rest) := by
  subst hlength
  simp [take]

theorem number_append {width n : Nat} (hfits : n < byteWeight width) :
    number width field (bigEndian width n ++ rest) = .ok (n, rest) := by
  rw [number, bind_ok (take_append (length_bigEndian width n)), bigEndianValue_bigEndian hfits]
  rfl

theorem byte_cons (value : UInt8) : byte field (value :: rest) = .ok (value, rest) := by
  have hone : value :: rest = bigEndian 1 value.toNat ++ rest := by
    simp [bigEndian, byteWeight]
  rw [byte, hone, bind_ok (number_append (show value.toNat < byteWeight 1 from value.toNat_lt)),
    UInt8.ofNat_toNat]
  rfl

theorem word_append (value : UInt16) :
    word field (bigEndian 2 value.toNat ++ rest) = .ok (value, rest) := by
  rw [word, bind_ok (number_append (show value.toNat < byteWeight 2 from value.toNat_lt)),
    UInt16.ofNat_toNat]
  rfl

theorem finish_nil : finish [] = .ok ((), []) :=
  rfl

/-! ## Varints -/

/-- Each byte carries seven bits, so that many bits are written into so many bytes. -/
theorem varintFrom_varintBytes {room n : Nat} (hfits : n < 1 <<< (7 * (room + 1)))
    (shift value : Nat) :
    varintFrom (room + 1) shift value (varintBytes (room + 1) n ++ rest) =
      .ok (UInt64.ofNat (value + n <<< shift), rest) := by
  rw [Nat.shiftLeft_eq] at hfits ⊢
  rw [Nat.one_mul] at hfits
  induction room generalizing n shift value with
  | zero =>
      have hlow : n < 128 := by simpa using hfits
      have hbyte : (UInt8.ofNat n).toNat = n := UInt8.toNat_ofNat_of_lt' (by simp [UInt8.size]; omega)
      simp [varintBytes, varintFrom, hlow, hbyte, Nat.mod_eq_of_lt hlow, Nat.shiftLeft_eq]
  | succ room ih =>
      by_cases hlow : n < 128
      · have hbyte : (UInt8.ofNat n).toNat = n :=
          UInt8.toNat_ofNat_of_lt' (by simp [UInt8.size]; omega)
        rw [varintBytes, if_pos hlow]
        simp [varintFrom, hlow, hbyte, Nat.mod_eq_of_lt hlow, Nat.shiftLeft_eq]
      · have hbyte : (UInt8.ofNat (n % 128 + 128)).toNat = n % 128 + 128 :=
          UInt8.toNat_ofNat_of_lt' (by simp [UInt8.size]; omega)
        have hhigh : n / 128 < 2 ^ (7 * (room + 1)) := by
          rw [Nat.div_lt_iff_lt_mul (by omega)]
          rwa [Nat.mul_succ, Nat.pow_add] at hfits
        have hmod : (n % 128 + 128) % 128 = n % 128 := by omega
        have hsplit : value + n % 128 * 2 ^ shift + n / 128 * 2 ^ (shift + 7) =
            value + n * 2 ^ shift := by
          have hdigits := Nat.div_add_mod n 128
          calc value + n % 128 * 2 ^ shift + n / 128 * 2 ^ (shift + 7)
              = value + (128 * (n / 128) + n % 128) * 2 ^ shift := by
                rw [Nat.pow_add, Nat.add_mul, Nat.add_assoc, Nat.add_comm (n % 128 * 2 ^ shift)]
                congr 2
                rw [Nat.mul_comm 128, Nat.mul_assoc, Nat.mul_comm 128]
            _ = value + n * 2 ^ shift := by rw [hdigits]
        rw [varintBytes, if_neg hlow, List.cons_append, varintFrom]
        simp only [hbyte, hmod, Nat.shiftLeft_eq]
        rw [if_neg (by omega), ih hhigh, hsplit]

theorem varint_putVarint (value : UInt64) :
    varint (putVarint value ++ rest) = .ok (value, rest) := by
  have hfits : value.toNat < 1 <<< (7 * varintRoom) :=
    Nat.lt_of_lt_of_le value.toNat_lt (by decide)
  rw [varint, putVarint]
  have h := @varintFrom_varintBytes rest _ _ hfits 0 0
  simpa [varintRoom] using h

/-! ## Addresses -/

theorem ip_putIp (address : IpAddress) : ip (putIp address ++ rest) = .ok (address, rest) := by
  cases address with
  | v4 bits =>
      have hlength : putIp (.v4 bits) = 4 :: bigEndian 4 bits.toNat := by
        simp [putIp, IpAddress.octets]
      have hfits : bits.toNat < byteWeight 4 := bits.isLt
      rw [ip, hlength, List.cons_append, bind_ok (byte_cons 4), if_pos rfl,
        bind_ok (number_append hfits)]
      simp [pure_ok]
  | v6 bits =>
      have hlength : putIp (.v6 bits) = 16 :: bigEndian 16 bits.toNat := by
        simp [putIp, IpAddress.octets]
      have hfits : bits.toNat < byteWeight 16 := bits.isLt
      rw [ip, hlength, List.cons_append, bind_ok (byte_cons 16), if_neg (by decide), if_pos rfl,
        bind_ok (number_append hfits)]
      simp [pure_ok]

/-! ## Short byte strings -/

/-- What is read is what was kept: at most the first 64 bytes. -/
theorem short_putShort (value : Bytes) :
    short field (putShort value ++ rest) = .ok (value.take maxRevision, rest) := by
  have hkept : (value.take maxRevision).length ≤ maxRevision := List.length_take_le _ _
  have hbyte : (UInt8.ofNat (value.take maxRevision).length).toNat =
      (value.take maxRevision).length :=
    UInt8.toNat_ofNat_of_lt' (Nat.lt_of_le_of_lt hkept (by decide))
  rw [short, putShort, List.cons_append, bind_ok (byte_cons _), hbyte, if_neg (Nat.not_lt.mpr hkept),
    take_append rfl]

/-! ## Node ids -/

theorem nodeId_append (id : NodeId) : nodeId (id.bytes ++ rest) = .ok (id, rest) := by
  have hlength : NodeId.byteLength = id.bytes.length := id.length_eq.symm
  simp [nodeId, hlength, NodeId.ofBytes?, id.length_eq]

/-! ## Repetition -/

/-- `read` is what becomes of a value when it is written and read. -/
theorem many_append {reader : Reader β} {write : α → Bytes} {read : α → β}
    (hread : ∀ value rest, reader (write value ++ rest) = .ok (read value, rest))
    (values : List α) :
    many reader values.length (values.flatMap write ++ rest) = .ok (values.map read, rest) := by
  induction values with
  | nil => rfl
  | cons first others ih =>
      rw [List.length_cons, many, List.flatMap_cons, List.append_assoc,
        bind_ok (hread first _), bind_ok ih]
      rfl

end Payload

end Peering
