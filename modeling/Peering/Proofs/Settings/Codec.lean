import Peering.Settings.Field
import Peering.Proofs.Json.Written

/-!
# Values of settings are read back

A codec reads back a value if it takes exactly what it writes for it off the front, with
anything behind it that can stand behind a value. Every field of a settings document has
a codec that does so with every value of its type.
-/

namespace Peering

/-! ## Addresses -/

namespace IpAddress

theorem endsGroup_nil : EndsGroup [] :=
  fun _ hchar => nomatch hchar

theorem readQuad_groupChars (parts : List Nat) {rest : List Char} (hends : EndsGroup rest) :
    readQuad (groupChars parts ++ rest) = none := by
  rw [groupChars_eq]
  cases parts with
  | nil =>
      have hread : octetForm.read rest = none :=
        NumberForm.read_of_noDigitAhead (noDigitAhead_ten hends.noDigitAhead)
      simp [groupsAhead, readQuad, hread]
  | cons group later =>
      rw [groupsAhead, List.append_assoc]
      exact readQuad_hexDigits group (endsGroup_groupsAhead later hends)

/-- No IPv6 address starts like a quad. -/
theorem readQuad_v6Chars (bits : BitVec 128) : readQuad (v6Chars bits) = none := by
  unfold v6Chars
  dsimp only
  split
  · exact readQuad_groupChars [] (endsGroup_colon _)
  split
  · exact readQuad_groupChars _ (endsGroup_colon _)
  · rw [← List.append_nil (groupChars _)]
    exact readQuad_groupChars (groups bits) endsGroup_nil

/-- An address is what its own text denotes. -/
theorem parse?_text (ip : IpAddress) : parse? ip.text = some ip := by
  rw [parse?, text, String.toList_ofList, ← List.append_nil ip.chars]
  cases ip with
  | v4 bits =>
      have hends : NoDigitAhead 10 [] := noDigitAhead_ten endsGroup_nil.noDigitAhead
      simp only [read, chars, readQuad_quadChars bits hends]
  | v6 bits =>
      have hread := readV6_v6Chars bits endsGroup_nil fun _ hchar => nomatch hchar
      rw [List.append_nil] at hread ⊢
      simp only [read, chars, hread, readQuad_v6Chars, Option.map_some]

end IpAddress

namespace Codec

open Json (EndsValue)

variable {α β : Type} {rest : List Char}

/-- A codec takes what it writes for a value back off the front of a text. -/
def ReadsBack (codec : Codec α) (value : α) : Prop :=
  ∀ rest, EndsValue rest →
    codec.read (codec.write .compact value ++ rest) = .ok (value, rest)

theorem via_readsBack {codec : Codec α} {toOther : β → α} {ofOther : α → Option β} {value : β}
    (hreads : codec.ReadsBack (toOther value)) (hof : ofOther (toOther value) = some value) :
    (codec.via toOther ofOther).ReadsBack value := by
  intro rest hends
  have hread : codec.read (codec.write .compact (toOther value) ++ rest) =
      .ok (toOther value, rest) := hreads rest hends
  simp only [via, hread, bind, Except.bind, hof]
  rfl

theorem natural_readsBack {greatest value : Nat} (hvalue : value ≤ greatest)
    (hgreatest : greatest < UInt64.size) : (natural greatest).ReadsBack value :=
  fun _ hends => Json.readNatural_decimalDigits hvalue hgreatest hends

@[simp] theorem word16_readsBack (value : UInt16) : word16.ReadsBack value :=
  via_readsBack (natural_readsBack (Nat.le_of_lt_succ value.toNat_lt) (by decide)) (by simp)

@[simp] theorem word32_readsBack (value : UInt32) : word32.ReadsBack value :=
  via_readsBack (natural_readsBack (Nat.le_of_lt_succ value.toNat_lt) (by decide)) (by simp)

@[simp] theorem word64_readsBack (value : UInt64) : word64.ReadsBack value :=
  via_readsBack (natural_readsBack (Nat.le_of_lt_succ value.toNat_lt) (by decide)) (by simp)

@[simp] theorem flag_readsBack (value : Bool) : flag.ReadsBack value := by
  intro rest _
  cases value <;> rfl

@[simp] theorem text_readsBack (value : String) : text.ReadsBack value :=
  fun rest _ => Json.readText_write value rest

@[simp] theorem address_readsBack (value : IpAddress) : address.ReadsBack value :=
  via_readsBack (text_readsBack _) value.parse?_text

/-! ## Lists and policies -/

/-- On one line, parts stand between brackets with commas between them. -/
theorem enclose_compact (depth : Nat) (opening closing : Char) (parts : List (List Char)) :
    enclose .compact depth opening closing parts =
      opening :: (Json.ahead true parts ++ [closing]) := by
  cases parts with
  | nil => rfl
  | cons part later =>
      show opening :: List.intercalate [','] (part :: later) ++ [closing] = _
      rw [Json.intercalate_comma]
      rfl

@[simp] theorem texts_readsBack (values : List String) : texts.ReadsBack values := by
  intro rest _
  show Json.readTexts (enclose .compact 1 '[' ']' (values.map Json.Quoted.write) ++ rest) = _
  rw [enclose_compact, List.cons_append, List.append_assoc]
  exact Json.textElements_written values true rest

@[simp] theorem policy_readsBack (value : BindFailurePolicy) : policy.ReadsBack value := by
  intro rest _
  have hread := Json.readText_write (policyName value) rest
  have hname : policyNamed (policyName value) = .ok value := by cases value <;> rfl
  show readPolicy (Json.Quoted.write (policyName value) ++ rest) = _
  rw [Json.Quoted.write_append] at hread ⊢
  rw [readPolicy, Json.skipSpaces_cons (by decide)]
  show (Json.readText _ >>= _) = _
  rw [hread]
  show (policyNamed (policyName value) >>= _) = _
  rw [hname]
  rfl

end Codec

/-- Every field reads back every value. -/
theorem Settings.fields_readBack :
    ∀ field ∈ fields, ∀ value, field.codec.ReadsBack value := by
  simp [fields]

end Peering
