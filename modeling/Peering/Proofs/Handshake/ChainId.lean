import Peering.Proofs.Handshake.Reencoding
import Peering.Proofs.Payload.Varint

/-!
# The number in a chain id field

A chain id stands in a request as a varint. Main statement: which bytes a varint
takes, which number comes of them and how reading fails, for every byte string. Of
the seventy bits that ten bytes carry the lowest sixty-four are kept, so a request is
accepted whose chain id field denotes the chain id and a multiple of 2 to the 64th.
-/

namespace Peering

namespace Handshake

open Payload (varint putVarint varintRoom varintNumber IsWhole continued_of_all)

/-- The chain id of a request is what its field denotes, as far as 64 bits hold it. -/
theorem Request.chainId_of_decode {payload : Bytes} {request : Request}
    (hdecode : decode payload = .ok request) :
    ∃ form tail, payload = request.id.bytes ++ form ++ tail ∧ IsWhole varintRoom form ∧
      request.chainId.toNat = varintNumber form % UInt64.size := by
  obtain ⟨form, tail, hpayload, hvarint, _⟩ := decode_sound hdecode
  obtain ⟨whole, hform, hwhole, hvalue⟩ := Payload.varintFrom_eq_ok_iff.mp hvarint
  rw [List.append_nil] at hform
  refine ⟨form, tail, hpayload, hform ▸ hwhole, ?_⟩
  calc request.chainId.toNat
      = request.chainId.toUInt64.toNat := (UInt32.toNat_toUInt64 _).symm
    _ = (UInt64.ofNat (0 + varintNumber form <<< 0)).toNat := by rw [hvalue, hform]
    _ = varintNumber form % UInt64.size := by
        rw [Nat.shiftLeft_zero, Nat.zero_add]
        exact UInt64.toNat_ofNat'

/-- A varint is read as the number that its bytes denote, modulo 2 to the 64th. -/
theorem varint_eq_ok_iff {bytes rest : Bytes} {value : UInt64} :
    varint bytes = .ok (value, rest) ↔
      ∃ form, bytes = form ++ rest ∧ IsWhole varintRoom form ∧
        value.toNat = varintNumber form % UInt64.size := by
  have hnumber : ∀ n, value = UInt64.ofNat (0 + n <<< 0) ↔ value.toNat = n % UInt64.size := by
    intro n
    rw [← UInt64.toNat_inj, Nat.shiftLeft_zero, Nat.zero_add, UInt64.toNat_ofNat']
  simp only [varint, Payload.varintFrom_eq_ok_iff, hnumber]

/-- A varint is read without loss, or else reported to be too long, exactly if 64 bits hold its number. -/
theorem varint_exact_iff {form rest : Bytes} (hwhole : IsWhole varintRoom form) :
    (varint (form ++ rest) = if varintNumber form < UInt64.size
      then .ok (UInt64.ofNat (varintNumber form), rest) else .error .varintOverflow) ↔
      varintNumber form < UInt64.size := by
  have hread : varint (form ++ rest) = .ok (UInt64.ofNat (varintNumber form), rest) :=
    varint_eq_ok_iff.mpr ⟨form, rfl, hwhole, UInt64.toNat_ofNat'⟩
  rw [hread]
  split
  · rename_i hfits
    exact iff_of_true rfl hfits
  · rename_i hlarge
    exact iff_of_false nofun hlarge

/--
A varint is the bytes with the top bit set at the front and the one after them, ten
bytes at most. It is read as the number that its bytes denote, modulo 2 to the 64th,
and exactly its bytes are used; so it is read without loss or reported to be too long
exactly if the number is below 2 to the 64th, that is, unless there are ten bytes and
the last is greater than one. If the first ten bytes have the top bit set, the varint
is too long, and if there are fewer and they all have it, it is truncated; reading
fails in no other way. What is written for a number is read back as the number, with
any bytes after it. A request that is accepted has the chain id that its field
denotes modulo 2 to the 64th, so exactly that if it is below.
-/
theorem varint_decided (bytes : Bytes) :
    (∀ value rest, varint bytes = .ok (value, rest) ↔
      ∃ form, bytes = form ++ rest ∧ IsWhole varintRoom form ∧
        value.toNat = varintNumber form % UInt64.size) ∧
    (∀ leading last rest, bytes = leading ++ [last] ++ rest →
      IsWhole varintRoom (leading ++ [last]) →
      let number := varintNumber (leading ++ [last])
      ((varint bytes = if number < UInt64.size
          then .ok (UInt64.ofNat number, rest) else .error .varintOverflow) ↔
        number < UInt64.size) ∧
      (number < UInt64.size ↔ leading.length + 1 < varintRoom ∨ last.toNat ≤ 1)) ∧
    (∀ error, varint bytes = .error error ↔
      (∀ byte ∈ bytes.take varintRoom, 0x80 ≤ byte.toNat) ∧
        error = if bytes.length < varintRoom then .truncated "varint" else .varintOverflow) ∧
    (∀ value, varint (putVarint value ++ bytes) = .ok (value, bytes)) ∧
    ∀ request, Request.decode bytes = .ok request →
      ∃ form tail, bytes = request.id.bytes ++ form ++ tail ∧ IsWhole varintRoom form ∧
        request.chainId.toNat = varintNumber form % UInt64.size ∧
        (request.chainId.toNat = varintNumber form ↔ varintNumber form < UInt64.size) := by
  refine ⟨fun value rest => varint_eq_ok_iff, fun leading last rest hbytes hwhole => ⟨?_, ?_⟩,
    fun error => Payload.varintFrom_eq_error_iff, fun value => Payload.varint_putVarint value,
    fun request hdecode => ?_⟩
  · rw [hbytes]
    exact varint_exact_iff hwhole
  · obtain ⟨others, final, hform, hroom, _, hlast⟩ := hwhole
    obtain ⟨rfl, hfinal⟩ := List.append_inj' hform rfl
    obtain rfl := (List.cons.inj hfinal).1
    exact Payload.varintNumber_lt_size_iff hroom hlast
  · obtain ⟨form, tail, hbytes, hwhole, hvalue⟩ := Request.chainId_of_decode hdecode
    refine ⟨form, tail, hbytes, hwhole, hvalue, ?_⟩
    rw [hvalue]
    exact Nat.mod_eq_iff_lt (by decide)

/-- The greatest number that 64 bits hold takes ten bytes, and a byte after them is left. -/
theorem varint_decided_of_greatest :
    let leading : Bytes := List.replicate 9 0xff
    let bytes := leading ++ [1] ++ [7]
    IsWhole varintRoom (leading ++ [1]) ∧ varintNumber (leading ++ [1]) < UInt64.size ∧
      varint bytes = .ok (18446744073709551615, [7]) ∧
      varint (putVarint 300 ++ bytes) = .ok (300, bytes) := by
  intro leading bytes
  have hwhole : IsWhole varintRoom (leading ++ [1]) :=
    ⟨leading, 1, rfl, by decide, continued_of_all (by decide), by decide⟩
  obtain ⟨hread, hexact, _, hwritten, _⟩ := varint_decided bytes
  obtain ⟨_, hfits⟩ := hexact leading 1 [7] rfl hwhole
  exact ⟨hwhole, hfits.mpr (Or.inr (by decide)),
    (hread _ _).mpr ⟨leading ++ [1], rfl, hwhole, by decide⟩, hwritten 300⟩

/--
Ten bytes that denote 2 to the 64th and one are read as one, and a request with
these bytes for its chain id is accepted as one for chain 1.
-/
theorem tenth_byte_wraps :
    let form : Bytes := 0x81 :: List.replicate 8 0x80 ++ [2]
    let id := NodeId.random 0 0
    IsWhole varintRoom form ∧ varintNumber form = UInt64.size + 1 ∧ varint form = .ok (1, []) ∧
      Request.decode (id.bytes ++ form ++ [4, 10, 1, 2, 3, 0x76, 0x5f, 1, 0x72, 1, 0, 1]) =
        .ok ⟨id, 1, .v4 0x0a010203, 30303, [0x72], [1]⟩ := by
  intro form id
  exact ⟨⟨0x81 :: List.replicate 8 0x80, 2, rfl, by decide, continued_of_all (by decide),
    by decide⟩, by decide, rfl, rfl⟩

end Handshake

end Peering
