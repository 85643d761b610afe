import Peering.Proofs.Payload

/-!
# Payload fields are written as they were read

Where a reader succeeds, the bytes that it used are those that its writer makes
of the value. The one exception is the varint, which has longer forms than the
written one; what is written is the shortest of them.
-/

namespace Peering

namespace Payload

variable {α : Type} {bytes rest : Bytes} {field : String}

/-! ## Fixed-width fields -/

theorem take_sound {count : Nat} {value : Bytes} (hread : take count field bytes = .ok (value, rest)) :
    bytes = value ++ rest ∧ value.length = count := by
  rw [take] at hread
  split at hread
  · cases hread
  · rename_i hlong
    cases hread
    refine ⟨(List.take_append_drop count bytes).symm, ?_⟩
    rw [List.length_take]
    omega

theorem number_sound {width n : Nat} (hread : number width field bytes = .ok (n, rest)) :
    bytes = bigEndian width n ++ rest ∧ n < byteWeight width := by
  obtain ⟨digits, middle, htake, hvalue⟩ := Reader.bind_eq_ok_iff.mp hread
  obtain ⟨rfl, rfl⟩ := Reader.pure_eq_ok_iff.mp hvalue
  obtain ⟨rfl, rfl⟩ := take_sound htake
  exact ⟨by rw [bigEndian_bigEndianValue], bigEndianValue_lt digits⟩

theorem byte_sound {value : UInt8} (hread : byte field bytes = .ok (value, rest)) :
    bytes = value :: rest := by
  obtain ⟨n, middle, hnumber, hvalue⟩ := Reader.bind_eq_ok_iff.mp hread
  obtain ⟨rfl, rfl⟩ := Reader.pure_eq_ok_iff.mp hvalue
  obtain ⟨rfl, hfits⟩ := number_sound hnumber
  simp [bigEndian, byteWeight]

theorem word_sound {value : UInt16} (hread : word field bytes = .ok (value, rest)) :
    bytes = bigEndian 2 value.toNat ++ rest := by
  obtain ⟨n, middle, hnumber, hvalue⟩ := Reader.bind_eq_ok_iff.mp hread
  obtain ⟨rfl, rfl⟩ := Reader.pure_eq_ok_iff.mp hvalue
  obtain ⟨rfl, hfits⟩ := number_sound hnumber
  rw [UInt16.toNat_ofNat_of_lt' hfits]

theorem finish_sound (hread : finish bytes = .ok ((), rest)) : bytes = [] ∧ rest = [] := by
  rw [finish] at hread
  split at hread
  · rename_i hempty
    cases hread
    exact ⟨List.isEmpty_iff.mp hempty, List.isEmpty_iff.mp hempty⟩
  · cases hread

/-! ## Addresses -/

theorem ip_sound {address : IpAddress} (hread : ip bytes = .ok (address, rest)) :
    bytes = putIp address ++ rest := by
  obtain ⟨length, middle, hlength, hbody⟩ := Reader.bind_eq_ok_iff.mp hread
  obtain rfl := byte_sound hlength
  split at hbody
  · rename_i hfour
    obtain ⟨n, last, hnumber, hvalue⟩ := Reader.bind_eq_ok_iff.mp hbody
    obtain ⟨rfl, rfl⟩ := Reader.pure_eq_ok_iff.mp hvalue
    obtain ⟨rfl, hfits⟩ := number_sound hnumber
    have hweight : byteWeight 4 = 2 ^ 32 := by decide
    have hbits : (BitVec.ofNat 32 n).toNat = n := by
      rw [BitVec.toNat_ofNat, Nat.mod_eq_of_lt (hweight ▸ hfits)]
    simp [putIp, IpAddress.octets, hbits, hfour]
  · split at hbody
    · rename_i hsixteen
      obtain ⟨n, last, hnumber, hvalue⟩ := Reader.bind_eq_ok_iff.mp hbody
      obtain ⟨rfl, rfl⟩ := Reader.pure_eq_ok_iff.mp hvalue
      obtain ⟨rfl, hfits⟩ := number_sound hnumber
      have hweight : byteWeight 16 = 2 ^ 128 := by decide
      have hbits : (BitVec.ofNat 128 n).toNat = n := by
        rw [BitVec.toNat_ofNat, Nat.mod_eq_of_lt (hweight ▸ hfits)]
      simp [putIp, IpAddress.octets, hbits, hsixteen]
    · cases hbody

/-! ## Short byte strings -/

theorem short_sound {value : Bytes} (hread : short field bytes = .ok (value, rest)) :
    bytes = putShort value ++ rest ∧ value.length ≤ maxRevision := by
  obtain ⟨length, middle, hlength, hbody⟩ := Reader.bind_eq_ok_iff.mp hread
  obtain rfl := byte_sound hlength
  split at hbody
  · cases hbody
  · rename_i hwithin
    obtain ⟨rfl, hvalue⟩ := take_sound hbody
    have hkept : value.take maxRevision = value := List.take_of_length_le (by omega)
    refine ⟨?_, by omega⟩
    rw [putShort, hkept, hvalue, UInt8.ofNat_toNat, List.cons_append]

/-! ## Node ids -/

theorem nodeId_sound {id : NodeId} (hread : nodeId bytes = .ok (id, rest)) :
    bytes = id.bytes ++ rest := by
  rw [nodeId] at hread
  split at hread
  · rename_i found hfound
    cases hread
    rw [NodeId.ofBytes?] at hfound
    split at hfound
    · cases hfound
      exact (List.take_append_drop _ bytes).symm
    · cases hfound
  · cases hread

/-! ## Repetition -/

/-- What is read so many times is written that many times. -/
theorem many_sound {reader : Reader α} {write : α → Bytes}
    (hsound : ∀ {bytes value rest}, reader bytes = .ok (value, rest) → bytes = write value ++ rest)
    {count : Nat} {values : List α} (hread : many reader count bytes = .ok (values, rest)) :
    bytes = values.flatMap write ++ rest ∧ values.length = count := by
  induction count generalizing bytes values with
  | zero =>
      obtain ⟨rfl, rfl⟩ := Reader.pure_eq_ok_iff.mp hread
      exact ⟨rfl, rfl⟩
  | succ count ih =>
      obtain ⟨first, middle, hfirst, hread⟩ := Reader.bind_eq_ok_iff.mp hread
      obtain ⟨others, last, hothers, hvalues⟩ := Reader.bind_eq_ok_iff.mp hread
      obtain ⟨rfl, rfl⟩ := Reader.pure_eq_ok_iff.mp hvalues
      obtain ⟨rfl, rfl⟩ := ih hothers
      obtain rfl := hsound hfirst
      simp

/-! ## Varints -/

/-- So many bytes were used, and they hold seven bits each. -/
theorem varintFrom_sound {room shift start : Nat} {value : UInt64}
    (hread : varintFrom room shift start bytes = .ok (value, rest)) :
    ∃ used n, bytes.length = used + 1 + rest.length ∧ n < 1 <<< (7 * (used + 1)) ∧
      value = UInt64.ofNat (start + n <<< shift) := by
  induction room generalizing shift start bytes with
  | zero => cases hread
  | succ room ih =>
      cases bytes with
      | nil => cases hread
      | cons next tail =>
          have hdigit : next.toNat % 0x80 < 0x80 := Nat.mod_lt _ (by decide)
          rw [varintFrom] at hread
          split at hread
          · cases hread
            exact ⟨0, next.toNat % 0x80, by simp [Nat.add_comm], hdigit, rfl⟩
          · obtain ⟨used, n, hlength, hfits, rfl⟩ := ih hread
            refine ⟨used + 1, next.toNat % 0x80 + n * 0x80, ?_, ?_, ?_⟩
            · rw [List.length_cons, hlength]
              omega
            · rw [Nat.shiftLeft_eq] at hfits ⊢
              have hroom : 2 ^ (7 * (used + 1 + 1)) = 2 ^ (7 * (used + 1)) * 0x80 := by
                rw [Nat.mul_succ 7 (used + 1), Nat.pow_add]
              omega
            · congr 1
              simp only [Nat.shiftLeft_eq, Nat.pow_add]
              grind

/-- A number of so many bits needs no more than so many bytes. -/
theorem length_varintBytes_le {used n : Nat} (hfits : n < 1 <<< (7 * (used + 1))) (room : Nat) :
    (varintBytes room n).length ≤ used + 1 := by
  rw [Nat.shiftLeft_eq, Nat.one_mul] at hfits
  induction room generalizing used n with
  | zero => exact Nat.zero_le _
  | succ room ih =>
      rw [varintBytes]
      split
      · exact Nat.succ_le_succ (Nat.zero_le used)
      · rename_i hhigh
        cases used with
        | zero => exact absurd hfits hhigh
        | succ used =>
            have hlater : n / 0x80 < 2 ^ (7 * (used + 1)) := by
              rw [Nat.div_lt_iff_lt_mul (by decide)]
              rwa [Nat.mul_succ 7 (used + 1), Nat.pow_add] at hfits
            exact Nat.succ_le_succ (ih hlater)

theorem length_putVarint_le {value : UInt64} (hread : varint bytes = .ok (value, rest)) :
    (putVarint value).length + rest.length ≤ bytes.length := by
  obtain ⟨used, n, hlength, hfits, rfl⟩ := varintFrom_sound hread
  have hvalue : (UInt64.ofNat (0 + n <<< 0)).toNat ≤ n := by
    rw [UInt64.toNat_ofNat', Nat.zero_add]
    exact Nat.mod_le _ _
  have hwritten := length_varintBytes_le (Nat.lt_of_le_of_lt hvalue hfits) varintRoom
  rw [putVarint]
  omega

/-- The bytes are a varint, perhaps a longer one than is written for the number. -/
def IsVarint (value : UInt64) (form : Bytes) : Prop :=
  varint form = .ok (value, [])

/-- Of all the forms of a number, none is shorter than this one. -/
structure IsShortestVarint (value : UInt64) (form : Bytes) : Prop where
  isVarint : IsVarint value form
  shortest : ∀ {other}, IsVarint value other → form.length ≤ other.length

theorem isShortestVarint_putVarint (value : UInt64) :
    IsShortestVarint value (putVarint value) where
  isVarint := by simpa [IsVarint] using @varint_putVarint [] value
  shortest hother := by simpa using length_putVarint_le hother

end Payload

end Peering
