import Mathlib.Data.List.TakeWhile
import Mathlib.Tactic
import Peering.BootUri
import Peering.Proofs.Address.Written
import Peering.Proofs.Text.Utf8

/-!
# Announced URIs are read back

The URI under which a node announces itself, put into a boot list with any blanks
around it. The id is read up to the first `@`, so an id that has one itself comes
back short and is refused by its length. Main statement: the URI is read as a
boot node of exactly the announced identity and address, or refused.
-/

namespace Peering

namespace BootUri

variable {id : NodeId} {char : Char}

/-! ## Blanks around a text -/

theorem dropWhile_blanks {before rest : List Char} (hbefore : ∀ char ∈ before, isBlank char = true)
    (hfirst : ∃ first ∈ rest.head?, isBlank first = false) :
    (before ++ rest).dropWhile isBlank = rest := by
  rw [List.dropWhile_append_of_pos hbefore]
  obtain ⟨first, hhead, hfirst⟩ := hfirst
  obtain ⟨later, rfl⟩ := List.head?_eq_some_iff.mp hhead
  exact List.dropWhile_cons_of_neg (by simp [hfirst])

/-- Trimming leaves what stands between the first and the last character that are no blanks. -/
theorem trimBlanks_surrounded {before text after : List Char}
    (hbefore : ∀ char ∈ before, isBlank char = true)
    (hafter : ∀ char ∈ after, isBlank char = true)
    (hfirst : ∃ first ∈ text.head?, isBlank first = false)
    (hlast : ∃ last ∈ text.getLast?, isBlank last = false) :
    trimBlanks (before ++ text ++ after) = text := by
  have hfront : ∃ first ∈ (text ++ after).head?, isBlank first = false := by
    obtain ⟨first, hhead, hblank⟩ := hfirst
    obtain ⟨later, rfl⟩ := List.head?_eq_some_iff.mp hhead
    exact ⟨first, rfl, hblank⟩
  have hback : (after.reverse ++ text.reverse).dropWhile isBlank = text.reverse := by
    refine dropWhile_blanks (fun char hchar => hafter char (List.mem_reverse.mp hchar)) ?_
    simpa only [List.head?_reverse] using hlast
  rw [trimBlanks, List.append_assoc, dropWhile_blanks hbefore hfront, List.reverse_append, hback,
    List.reverse_reverse]

theorem isBlank_of_isDigitIn (hdigit : isDigitIn 16 char = true) : isBlank char = false := by
  have hrange : 0x30 ≤ char.toNat ∧ char.toNat ≤ 0x66 := by
    simp only [isDigitIn, digitValue, decide_eq_true_eq, Bool.and_eq_true] at hdigit
    split at hdigit
    · omega
    split at hdigit
    · omega
    split at hdigit
    · omega
    · omega
  simp only [isBlank, blankRanges, List.any_cons, List.any_nil, Bool.or_false, Bool.or_eq_false_iff,
    Bool.and_eq_false_iff, decide_eq_false_iff_not]
  omega

/-- A URI ends with the digits of its port. -/
theorem getLast?_chars (address : SocketAddress) :
    ∃ last ∈ address.chars.getLast?, isBlank last = false := by
  obtain ⟨front, hfront⟩ :
      ∃ front, address.chars = front ++ decimalDigits address.port.toNat := by
    obtain ⟨ip, port⟩ := address
    cases ip with
    | v4 bits => exact ⟨IpAddress.quadChars bits ++ [':'], by simp [SocketAddress.chars]⟩
    | v6 bits =>
        exact ⟨'[' :: IpAddress.v6Chars bits ++ [']', ':'], by simp [SocketAddress.chars]⟩
  have hdigits : decimalDigits address.port.toNat ≠ [] := Nat.toDigits_ne_nil
  refine ⟨(decimalDigits address.port.toNat).getLast hdigits, ?_, ?_⟩
  · rw [hfront, List.getLast?_append_of_ne_nil _ hdigits]
    exact List.getLast?_eq_some_getLast hdigits
  · have hdigit := isDigitIn_of_mem_toDigits (by decide) (by decide) (List.getLast_mem hdigits)
    refine isBlank_of_isDigitIn ?_
    simp only [isDigitIn, decide_eq_true_eq] at hdigit ⊢
    omega

/-! ## The id up to its first at sign -/

/-- The byte that ends an id. -/
def atSign : UInt8 := 0x40

theorem atSign_notMem_encodeChar (hother : char ≠ '@') :
    atSign ∉ String.utf8EncodeChar char := by
  intro hmem
  have hbyte : ∀ n : Nat, atSign = UInt8.ofNat n → n % 256 = 0x40 := by
    intro n heq
    simpa [atSign] using (congrArg UInt8.toNat heq).symm
  have hnone : char.val.toNat ≠ 0x40 := by
    intro heq
    exact hother (Char.ext (UInt32.toNat_inj.mp heq))
  simp only [String.utf8EncodeChar] at hmem
  split at hmem
  · have := hbyte _ (List.mem_singleton.mp hmem)
    omega
  split at hmem
  · simp only [List.mem_cons, List.not_mem_nil, or_false] at hmem
    rcases hmem with h | h <;> have := hbyte _ h <;> omega
  split at hmem
  · simp only [List.mem_cons, List.not_mem_nil, or_false] at hmem
    rcases hmem with h | h | h <;> have := hbyte _ h <;> omega
  · simp only [List.mem_cons, List.not_mem_nil, or_false] at hmem
    rcases hmem with h | h | h | h <;> have := hbyte _ h <;> omega

/-- Characters before the first at sign are spelled by the bytes before it. -/
theorem flatMap_takeWhile_atSign (chars : List Char) :
    (chars.takeWhile (· != '@')).flatMap String.utf8EncodeChar =
      (chars.flatMap String.utf8EncodeChar).takeWhile (· != atSign) := by
  induction chars with
  | nil => rfl
  | cons char later ih =>
      by_cases hat : char = '@'
      · subst hat
        rfl
      · have hbytes : ∀ byte ∈ String.utf8EncodeChar char, (byte != atSign) = true := by
          intro byte hbyte
          exact bne_iff_ne.mpr fun heq => atSign_notMem_encodeChar hat (heq ▸ hbyte)
        rw [List.takeWhile_cons_of_pos (by simpa using hat), List.flatMap_cons, List.flatMap_cons,
          List.takeWhile_append_of_pos hbytes, ih]

theorem splitAtSign_cons (hother : char ≠ '@') (chars : List Char) :
    splitAtSign (char :: chars) =
      (splitAtSign chars).map fun parts => (char :: parts.1, parts.2) := by
  simp only [splitAtSign, List.dropWhile_cons, List.takeWhile_cons, bne_iff_ne.mpr hother, if_true]
  cases chars.dropWhile (· != '@') <;> rfl

/-- The first part ends at an at sign within it, or else at the one behind it. -/
theorem splitAtSign_append (chars rest : List Char) :
    splitAtSign (chars ++ '@' :: rest) = some
      (chars.takeWhile (· != '@'), (chars.dropWhile (· != '@') ++ '@' :: rest).tail) := by
  induction chars with
  | nil => rfl
  | cons char later ih =>
      by_cases hat : char = '@'
      · subst hat
        rfl
      · rw [List.cons_append, splitAtSign_cons hat, ih]
        simp only [List.takeWhile_cons, List.dropWhile_cons, bne_iff_ne.mpr hat, if_true,
          Option.map_some]

theorem afterChars_append (start chars : List Char) :
    afterChars start (start ++ chars) = some chars := by
  induction start with
  | nil => rfl
  | cons char later ih => rw [List.cons_append, afterChars, if_pos rfl, ih]

/-! ## Reading an announced URI -/

theorem encode_text (htext : Utf8.IsText id.bytes) :
    id.text.toList.flatMap String.utf8EncodeChar = id.bytes :=
  htext.encode_lossy

variable {before after : String} {address : SocketAddress} {now : Nat}

/-- What is left of the URI once the blanks around it are gone. -/
theorem trimBlanks_render (id : NodeId) (address : SocketAddress)
    (hbefore : ∀ char ∈ before.toList, isBlank char = true)
    (hafter : ∀ char ∈ after.toList, isBlank char = true) :
    trimBlanks (before ++ render id address ++ after).toList =
      scheme ++ (id.text.toList ++ '@' :: address.chars) := by
  have hlast : ∃ last ∈ (scheme ++ (id.text.toList ++ '@' :: address.chars)).getLast?,
      isBlank last = false := by
    obtain ⟨last, hend, hblank⟩ := getLast?_chars address
    obtain ⟨front, hfront⟩ := List.getLast?_eq_some_iff.mp hend
    refine ⟨last, List.getLast?_eq_some_iff.mpr ⟨scheme ++ (id.text.toList ++ '@' :: front), ?_⟩,
      hblank⟩
    simp [hfront]
  have hfirst : ∃ first ∈ (scheme ++ (id.text.toList ++ '@' :: address.chars)).head?,
      isBlank first = false := ⟨'p', rfl, by decide⟩
  rw [String.toList_append, String.toList_append, render, String.toList_ofList,
    List.append_assoc scheme]
  exact trimBlanks_surrounded hbefore hafter hfirst hlast

/-- An id without an at sign is read whole, and the address behind it. -/
theorem parse_render_of_notMem (htext : Utf8.IsText id.bytes)
    (hbefore : ∀ char ∈ before.toList, isBlank char = true)
    (hafter : ∀ char ∈ after.toList, isBlank char = true) (hnone : atSign ∉ id.bytes) :
    parse (before ++ render id address ++ after) now =
      .ok { Node.create id address.ip address.port now with fromBootList := true } := by
  have hbytes : id.bytes.takeWhile (· != atSign) = id.bytes :=
    List.takeWhile_eq_self_iff.mpr fun byte hbyte =>
      bne_iff_ne.mpr fun heq => hnone (heq ▸ hbyte)
  have hid : NodeId.ofBytes id.bytes = .ok id := by
    simp [NodeId.ofBytes, NodeId.ofBytes?, id.length_eq]
  have hchars : id.text.toList.dropWhile (· != '@') = [] := by
    refine List.dropWhile_eq_nil_iff.mpr fun char hchar => bne_iff_ne.mpr ?_
    rintro rfl
    refine hnone (encode_text htext ▸ ?_)
    exact List.mem_flatMap.mpr ⟨'@', hchar, by decide⟩
  simp only [parse, trimBlanks_render id address hbefore hafter, afterChars_append,
    splitAtSign_append, flatMap_takeWhile_atSign, encode_text htext, hbytes, hid, hchars,
    List.nil_append, List.tail_cons, SocketAddress.ofChars?_chars]

/-- An id with an at sign is cut there, and too short. -/
theorem parse_render_of_idxOf? (htext : Utf8.IsText id.bytes)
    (hbefore : ∀ char ∈ before.toList, isBlank char = true)
    (hafter : ∀ char ∈ after.toList, isBlank char = true) {count : Nat}
    (hindex : id.bytes.idxOf? atSign = some count) :
    parse (before ++ render id address ++ after) now = .error (.badIdLength count) := by
  obtain ⟨hlt, hat, hearlier⟩ := List.idxOf?_eq_some_iff.mp hindex
  have hsplit : id.bytes = id.bytes.take count ++ atSign :: id.bytes.drop (count + 1) := by
    rw [← hat, ← List.drop_eq_getElem_cons hlt, List.take_append_drop]
  have hpasses : ∀ byte ∈ id.bytes.take count, (byte != atSign) = true := by
    intro byte hbyte
    obtain ⟨place, hplace, rfl⟩ := List.mem_take_iff_getElem.mp hbyte
    exact bne_iff_ne.mpr (hearlier place (Nat.lt_of_lt_of_le hplace (Nat.min_le_left _ _)))
  have hbytes : id.bytes.takeWhile (· != atSign) = id.bytes.take count :=
    calc id.bytes.takeWhile (· != atSign)
      _ = (id.bytes.take count ++ atSign :: id.bytes.drop (count + 1)).takeWhile (· != atSign) :=
        congrArg (List.takeWhile (· != atSign)) hsplit
      _ = id.bytes.take count := by
        rw [List.takeWhile_append_of_pos hpasses]
        simp
  have hid : NodeId.ofBytes (id.bytes.take count) = .error (.badIdLength count) := by
    have hlength : (id.bytes.take count).length = count := List.length_take_of_le (Nat.le_of_lt hlt)
    have hshort : count ≠ 36 := Nat.ne_of_lt (id.length_eq ▸ hlt)
    simp [NodeId.ofBytes, NodeId.ofBytes?, hlength, hshort]
  simp only [parse, trimBlanks_render id address hbefore hafter, afterChars_append,
    splitAtSign_append, flatMap_takeWhile_atSign, encode_text htext, hbytes, hid]

/--
A node's own URI is read as a boot node of the same identity and address when its
id has no at sign, and refused with the number of bytes before the first one when
it has; it is never read as anyone else.
-/
theorem parse_render (id : NodeId) (htext : Utf8.IsText id.bytes) (address : SocketAddress)
    (now : Nat) (before after : String) (hbefore : ∀ char ∈ before.toList, isBlank char = true)
    (hafter : ∀ char ∈ after.toList, isBlank char = true) :
    (atSign ∉ id.bytes →
      ∃ node, parse (before ++ render id address ++ after) now = .ok node ∧
        node.id = id ∧ node.idHash = id.hash ∧ node.ip = address.ip ∧ node.port = address.port ∧
        node.fromBootList = true ∧ node.conn = none) ∧
    (∀ count, id.bytes.idxOf? atSign = some count →
      parse (before ++ render id address ++ after) now = .error (.badIdLength count)) ∧
    (∀ node, parse (before ++ render id address ++ after) now = .ok node → node.id = id) := by
  refine ⟨fun hnone => ?_, fun count hindex => ?_, fun node hnode => ?_⟩
  · exact ⟨_, parse_render_of_notMem htext hbefore hafter hnone, rfl, rfl, rfl, rfl, rfl, rfl⟩
  · exact parse_render_of_idxOf? htext hbefore hafter hindex
  · cases hindex : id.bytes.idxOf? atSign with
    | some count =>
        have hcut := (parse_render_of_idxOf? htext hbefore hafter hindex).symm.trans hnode
        cases hcut
    | none =>
        have hnone := List.idxOf?_eq_none_iff.mp hindex
        have hwhole := (parse_render_of_notMem htext hbefore hafter hnone).symm.trans hnode
        cases hwhole
        rfl

/-- Eighteen accented characters spell an id of 36 bytes. -/
theorem parse_render_accented :
    ∃ id : NodeId, Utf8.encode (String.ofList (List.replicate 18 'é')) = id.bytes ∧
      ∃ node, parse ("\t " ++ render id ⟨.v6 1, 30303⟩ ++ "\n") 0 = .ok node ∧
        node.id = id ∧ node.idHash = id.hash ∧ node.ip = .v6 1 ∧ node.port = 30303 ∧
        node.fromBootList = true ∧ node.conn = none :=
  ⟨⟨Utf8.encode (String.ofList (List.replicate 18 'é')), by decide⟩, rfl,
    (parse_render ⟨Utf8.encode (String.ofList (List.replicate 18 'é')), by decide⟩ ⟨_, rfl⟩
      ⟨.v6 1, 30303⟩ 0 "\t " "\n" (List.all_eq_true.mp (by decide))
      (List.all_eq_true.mp (by decide))).1 (by decide)⟩

end BootUri

end Peering
