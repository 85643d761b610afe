import Peering.Text.Utf8

/-!
# Text that is written, cut and read again

The lossy reading gives every text back from its bytes. If the bytes are cut
short, it gives the characters that are whole, and one replacement character if
the cut fell inside the next one. Main statement: what a cut leaves can be
written and cut at the same place again without another change, although the
replacement character may be longer than the piece that it stands for.
-/

namespace Peering

namespace Utf8

variable {char : Char} {byte : UInt8} {tails rest : Bytes} {state : Partial}

/-! ## The bytes of one character -/

/-- The tails that a begun character still owes, up to the last one, which completes it. -/
inductive Closes (char : Char) : Partial → Bytes → Prop where
  | last {state : Partial} {byte : UInt8} (hadmits : state.admits byte) (howed : state.owed = 1)
      (hbits : state.bitsWith byte = char.toNat) : Closes char state [byte]
  | more {state : Partial} {byte : UInt8} {tails : Bytes} (hadmits : state.admits byte)
      (howed : 1 < state.owed) (htails : Closes char (state.advance byte) tails) :
      Closes char state (byte :: tails)

/-- The bytes that spell a character: a whole one, or one that begins it and the tails it owes. -/
inductive Spells (char : Char) : Bytes → Prop where
  | whole {byte : UInt8} (hopening : opening byte = .whole char) : Spells char [byte]
  | begun {byte : UInt8} {state : Partial} {tails : Bytes} (hopening : opening byte = .begun state)
      (htails : Closes char state tails) : Spells char (byte :: tails)

theorem admits_iff :
    state.admits byte ↔ state.low.toNat ≤ byte.toNat ∧ byte.toNat ≤ state.high.toNat := by
  simp [Partial.admits, UInt8.le_iff_toNat_le]

theorem toNat_tail (n : Nat) : (UInt8.ofNat (n % 64 + 128)).toNat = n % 64 + 128 :=
  UInt8.toNat_ofNat_of_lt' (show _ < 256 by omega)

theorem bitsWith_tail (state : Partial) (n : Nat) :
    state.bitsWith (UInt8.ofNat (n % 64 + 128)) = state.bits * 64 + n % 64 := by
  have htail := toNat_tail n
  unfold Partial.bitsWith
  omega

/-- A byte that begins three leaves out what is shorter, and the surrogates. -/
theorem opening_three {n : Nat} (hlead : byte.toNat = n / 4096 + 224) (hlow : 2047 < n)
    (hhigh : n ≤ 65535) (hchar : n < 0xd800 ∨ 0xdfff < n) :
    ∃ low high, opening byte = .begun ⟨n / 4096, 2, low, high⟩ ∧
      low.toNat ≤ n / 64 % 64 + 128 ∧ n / 64 % 64 + 128 ≤ high.toNat := by
  by_cases hzero : n / 4096 = 0
  · refine ⟨0xa0, 0xbf, by simp [opening, hlead, hzero], ?_, ?_⟩
    · show 160 ≤ _
      omega
    · show _ ≤ 191
      omega
  · by_cases hthirteen : n / 4096 = 13
    · refine ⟨0x80, 0x9f, by simp [opening, hlead, hthirteen], ?_, ?_⟩
      · show 128 ≤ _
        omega
      · show _ ≤ 159
        omega
    · refine ⟨0x80, 0xbf, ?_, ?_, ?_⟩
      · simp only [opening, hlead]
        rw [if_neg (by omega), if_neg (by omega), if_neg (by omega), if_neg (by omega),
          if_neg (by omega), if_pos (by omega), Nat.add_sub_cancel]
      · show 128 ≤ _
        omega
      · show _ ≤ 191
        omega

/-- A byte that begins four leaves out what is shorter, and what is above the last character. -/
theorem opening_four {n : Nat} (hlead : byte.toNat = n / 262144 + 240) (hlow : 65535 < n)
    (hhigh : n < 0x110000) :
    ∃ low high, opening byte = .begun ⟨n / 262144, 3, low, high⟩ ∧
      low.toNat ≤ n / 4096 % 64 + 128 ∧ n / 4096 % 64 + 128 ≤ high.toNat := by
  by_cases hzero : n / 262144 = 0
  · refine ⟨0x90, 0xbf, by simp [opening, hlead, hzero], ?_, ?_⟩
    · show 144 ≤ _
      omega
    · show _ ≤ 191
      omega
  · by_cases hfour : n / 262144 = 4
    · refine ⟨0x80, 0x8f, by simp [opening, hlead, hfour], ?_, ?_⟩
      · show 128 ≤ _
        omega
      · show _ ≤ 143
        omega
    · refine ⟨0x80, 0xbf, ?_, ?_, ?_⟩
      · simp only [opening, hlead]
        rw [if_neg (by omega), if_neg (by omega), if_neg (by omega), if_neg (by omega),
          if_neg (by omega), if_neg (by omega), if_neg (by omega), if_pos (by omega),
          Nat.add_sub_cancel]
      · show 128 ≤ _
        omega
      · show _ ≤ 191
        omega

/-- The last tail of a character completes it. -/
theorem closes_last {high n : Nat} (hbits : high = n / 64) (hchar : n = char.toNat) :
    Closes char ⟨high, 1, 0x80, 0xbf⟩ [UInt8.ofNat (n % 64 + 128)] := by
  refine .last ?_ rfl ?_
  · rw [admits_iff, toNat_tail]
    show 128 ≤ _ ∧ _ ≤ 191
    omega
  · rw [bitsWith_tail]
    dsimp only
    omega

theorem closes_more {high owed n : Nat} {low top : UInt8} (hbits : high = n / 64)
    (hlow : low.toNat ≤ n % 64 + 128) (htop : n % 64 + 128 ≤ top.toNat)
    (htails : Closes char ⟨n, owed + 1, 0x80, 0xbf⟩ tails) :
    Closes char ⟨high, owed + 2, low, top⟩ (UInt8.ofNat (n % 64 + 128) :: tails) := by
  have hdigits : Partial.bitsWith ⟨high, owed + 2, low, top⟩ (UInt8.ofNat (n % 64 + 128)) = n := by
    rw [bitsWith_tail]
    dsimp only
    omega
  refine .more ?_ (Nat.lt_add_left owed Nat.one_lt_two) ?_
  · rw [admits_iff, toNat_tail]
    exact ⟨hlow, htop⟩
  · rw [Partial.advance, hdigits]
    exact htails

theorem spells_encodeChar (char : Char) : Spells char (String.utf8EncodeChar char) := by
  obtain ⟨n, hn⟩ : ∃ n, char.val.toNat = n := ⟨_, rfl⟩
  have hchar : n = char.toNat := hn.symm
  have hvalid : n < 0xd800 ∨ 0xdfff < n ∧ n < 0x110000 := hn ▸ char.valid
  simp only [String.utf8EncodeChar, hn]
  split
  · refine .whole ?_
    have hbyte : (UInt8.ofNat n).toNat = n := UInt8.toNat_ofNat_of_lt' (show _ < 256 by omega)
    simp only [opening, hbyte]
    rw [if_pos (by omega), hchar, Char.ofNat_toNat]
  split
  · have hlead : (UInt8.ofNat (n / 64 % 32 + 192)).toNat = n / 64 + 192 := by
      rw [UInt8.toNat_ofNat_of_lt' (show _ < 256 by omega)]
      omega
    have hopening : opening (UInt8.ofNat (n / 64 % 32 + 192)) =
        .begun ⟨n / 64, 1, 0x80, 0xbf⟩ := by
      simp only [opening, hlead]
      rw [if_neg (by omega), if_neg (by omega), if_pos (by omega), Nat.add_sub_cancel]
    exact .begun hopening (closes_last rfl hchar)
  split
  · have hlead : (UInt8.ofNat (n / 4096 % 16 + 224)).toNat = n / 4096 + 224 := by
      rw [UInt8.toNat_ofNat_of_lt' (show _ < 256 by omega)]
      omega
    obtain ⟨low, high, hopening, hlow, hhigh⟩ :=
      opening_three hlead (by omega) (by omega) (by omega)
    exact .begun hopening (closes_more (by omega) hlow hhigh (closes_last rfl hchar))
  · have hlead : (UInt8.ofNat (n / 262144 % 8 + 240)).toNat = n / 262144 + 240 := by
      rw [UInt8.toNat_ofNat_of_lt' (show _ < 256 by omega)]
      omega
    obtain ⟨low, high, hopening, hlow, hhigh⟩ := opening_four hlead (by omega) (by omega)
    have htail : ∀ m : Nat, (0x80 : UInt8).toNat ≤ m % 64 + 128 ∧
        m % 64 + 128 ≤ (0xbf : UInt8).toNat := by
      intro m
      show 128 ≤ _ ∧ _ ≤ 191
      omega
    exact .begun hopening (closes_more (by omega) hlow hhigh
      (closes_more (by omega) (htail _).1 (htail _).2 (closes_last rfl hchar)))

/-! ## Whole characters and cut ones -/

theorem lossyFrom_tails (htails : Closes char state tails) (rest : Bytes) :
    lossyFrom (some state) (tails ++ rest) = char :: lossyFrom none rest := by
  induction htails with
  | last hadmits howed hbits => simp [lossyFrom, hadmits, howed, hbits]
  | more hadmits howed htails ih => simp [lossyFrom, hadmits, Nat.not_le.mpr howed, ih]

theorem lossyFrom_take_tails (htails : Closes char state tails) {room : Nat}
    (hcut : room < tails.length) : lossyFrom (some state) (tails.take room) = [replacement] := by
  induction htails generalizing room with
  | last hadmits howed hbits =>
      obtain rfl : room = 0 := by simpa using hcut
      rfl
  | more hadmits howed htails ih =>
      cases room with
      | zero => rfl
      | succ room => simp [lossyFrom, hadmits, Nat.not_le.mpr howed, ih (Nat.lt_of_succ_lt_succ hcut)]

theorem lossyFrom_spelled {bytes : Bytes} (hspells : Spells char bytes) (rest : Bytes) :
    lossyFrom none (bytes ++ rest) = char :: lossyFrom none rest := by
  cases hspells with
  | whole hopening => simp [lossyFrom, hopening]
  | begun hopening htails => simp [lossyFrom, hopening, lossyFrom_tails htails]

/-- A character of which some bytes are there and some are missing reads as one replacement. -/
theorem lossyFrom_take_spelled {bytes : Bytes} (hspells : Spells char bytes) {room : Nat}
    (hsome : room ≠ 0) (hcut : room < bytes.length) :
    lossyFrom none (bytes.take room) = [replacement] := by
  obtain ⟨fewer, rfl⟩ := Nat.exists_eq_succ_of_ne_zero hsome
  cases hspells with
  | whole hopening => simp at hcut
  | begun hopening htails =>
      simp [lossyFrom, hopening, lossyFrom_take_tails htails (Nat.lt_of_succ_lt_succ hcut)]

/-- What the first bytes of some characters show: those that are whole, and a cut one replaced. -/
def shown : Nat → List Char → List Char
  | _, [] => []
  | room, char :: later =>
      if char.utf8Size ≤ room then char :: shown (room - char.utf8Size) later
      else if room = 0 then [] else [replacement]

theorem lossyFrom_take (room : Nat) (chars : List Char) :
    lossyFrom none ((chars.flatMap String.utf8EncodeChar).take room) = shown room chars := by
  induction chars generalizing room with
  | nil => simp [lossyFrom, shown]
  | cons char later ih =>
      have hspells := spells_encodeChar char
      have hlength := String.length_utf8EncodeChar char
      rw [List.flatMap_cons, List.take_append, shown, hlength]
      by_cases hwhole : char.utf8Size ≤ room
      · rw [if_pos hwhole, List.take_of_length_le (hlength ▸ hwhole), lossyFrom_spelled hspells, ih]
      · rw [if_neg hwhole, Nat.sub_eq_zero_of_le (Nat.le_of_not_le hwhole), List.take_zero,
          List.append_nil]
        split
        · rename_i hzero
          rw [hzero]
          rfl
        · rename_i hsome
          exact lossyFrom_take_spelled hspells hsome (hlength ▸ Nat.lt_of_not_le hwhole)

/-- The replacement of a cut character is itself cut at the same place, or just fits. -/
theorem shown_shown (room : Nat) (chars : List Char) :
    shown room (shown room chars) = shown room chars := by
  induction chars generalizing room with
  | nil => rfl
  | cons char later ih =>
      by_cases hwhole : char.utf8Size ≤ room
      · simp only [shown, if_pos hwhole, ih]
      · by_cases hzero : room = 0
        · simp only [shown, if_neg hwhole, if_pos hzero]
        · simp only [shown, if_neg hwhole, if_neg hzero]
          split <;> rfl

theorem lossyFrom_flatMap (chars : List Char) :
    lossyFrom none (chars.flatMap String.utf8EncodeChar) = chars := by
  induction chars with
  | nil => rfl
  | cons char later ih => rw [List.flatMap_cons, lossyFrom_spelled (spells_encodeChar char), ih]

/-! ## Texts -/

@[simp] theorem lossy_encode (text : String) : lossy (encode text) = text := by
  rw [lossy, encode, lossyFrom_flatMap, String.ofList_toList]

/-- The text that the first bytes of a text show. -/
def cut (room : Nat) (text : String) : String :=
  lossy ((encode text).take room)

theorem cut_of_le {room : Nat} {text : String} (hfits : (encode text).length ≤ room) :
    cut room text = text := by
  rw [cut, List.take_of_length_le hfits, lossy_encode]

/-- Cutting a second time at the same place changes nothing. -/
@[simp] theorem cut_cut (room : Nat) (text : String) : cut room (cut room text) = cut room text := by
  simp only [cut, lossy, encode, lossyFrom_take, String.toList_ofList, shown_shown]

/-- Bytes that are the text of something. -/
def IsText (bytes : Bytes) : Prop :=
  ∃ text, encode text = bytes

theorem IsText.encode_lossy {bytes : Bytes} (htext : IsText bytes) :
    encode (lossy bytes) = bytes := by
  obtain ⟨text, rfl⟩ := htext
  rw [lossy_encode]

end Utf8

end Peering
