import Mathlib.Tactic
import Peering.Address.Text

/-!
# Written addresses are read back

Each reader is met with what the matching writer puts down, followed by anything
that cannot be taken for more of it. Main statement: a socket address is the
only thing its own text denotes, whichever of the three IPv6 forms its address
is written in.
-/

namespace Peering

variable {base n : Nat} {rest : List Char}

/-! ## Numbers -/

/-- No digit of the base stands at the front. -/
def NoDigitAhead (base : Nat) (chars : List Char) : Prop :=
  ∀ char ∈ chars.head?, isDigitIn base char = false

theorem digitValue_digitChar {digit : Nat} (hdigit : digit < 16) :
    digitValue (Nat.digitChar digit) = digit := by
  have hall : ∀ digit < 16, digitValue (Nat.digitChar digit) = digit := by decide
  exact hall digit hdigit

/-- A number is written with digits of the base only. -/
theorem isDigitIn_of_mem_toDigits (hbase : 1 < base) (hsixteen : base ≤ 16) {char : Char}
    (hchar : char ∈ Nat.toDigits base n) : isDigitIn base char = true := by
  have hdigit : ∀ digit < base, isDigitIn base (Nat.digitChar digit) = true := by
    intro digit hlt
    rw [isDigitIn, digitValue_digitChar (Nat.lt_of_lt_of_le hlt hsixteen)]
    exact decide_eq_true hlt
  induction n using Nat.strongRecOn with
  | ind n ih =>
      by_cases hsmall : n < base
      · rw [Nat.toDigits_of_lt_base hsmall, List.mem_singleton] at hchar
        exact hchar ▸ hdigit n hsmall
      · have hlarge := Nat.le_of_not_lt hsmall
        rw [Nat.toDigits_of_base_le hbase hlarge, List.mem_append, List.mem_singleton] at hchar
        rcases hchar with hinit | rfl
        · exact ih _ (Nat.div_lt_self (by omega) hbase) hinit
        · exact hdigit _ (Nat.mod_lt _ (by omega))

theorem digitsValue_toDigits (hbase : 1 < base) (hsixteen : base ≤ 16) :
    digitsValue base (Nat.toDigits base n) = n := by
  induction n using Nat.strongRecOn with
  | ind n ih =>
      by_cases hsmall : n < base
      · rw [Nat.toDigits_of_lt_base hsmall]
        simp [digitsValue, digitValue_digitChar (Nat.lt_of_lt_of_le hsmall hsixteen)]
      · have hmod : n % base < base := Nat.mod_lt _ (by omega)
        have hinit := ih (n / base) (Nat.div_lt_self (by omega) hbase)
        rw [digitsValue] at hinit
        rw [Nat.toDigits_of_base_le hbase (Nat.le_of_not_lt hsmall), digitsValue,
          List.foldl_append, hinit, List.foldl_cons, List.foldl_nil,
          digitValue_digitChar (Nat.lt_of_lt_of_le hmod hsixteen)]
        exact Nat.div_add_mod' n base

/-- Only zero is written with a zero in front. -/
theorem head_toDigits (hbase : 1 < base) (hsixteen : base ≤ 16)
    (hzero : (Nat.toDigits base n).head? = some '0') : n = 0 := by
  induction n using Nat.strongRecOn with
  | ind n ih =>
      by_cases hsmall : n < base
      · rw [Nat.toDigits_of_lt_base hsmall, List.head?_cons, Option.some.injEq] at hzero
        rw [← digitValue_digitChar (Nat.lt_of_lt_of_le hsmall hsixteen), hzero]
        decide
      · have hlarge := Nat.le_of_not_lt hsmall
        rw [Nat.toDigits_of_base_le hbase hlarge,
          List.head?_append_of_ne_nil _ Nat.toDigits_ne_nil] at hzero
        have hquotient := ih _ (Nat.div_lt_self (by omega) hbase) hzero
        have hpositive := Nat.div_pos hlarge (by omega)
        omega

theorem takeWhile_toDigits (hbase : 1 < base) (hsixteen : base ≤ 16)
    (hends : NoDigitAhead base rest) :
    (Nat.toDigits base n ++ rest).takeWhile (isDigitIn base) = Nat.toDigits base n := by
  rw [List.takeWhile_append_of_pos fun char => isDigitIn_of_mem_toDigits hbase hsixteen]
  cases rest with
  | nil => simp
  | cons char rest => simp [hends char rfl]

theorem dropWhile_toDigits (hbase : 1 < base) (hsixteen : base ≤ 16)
    (hends : NoDigitAhead base rest) :
    (Nat.toDigits base n ++ rest).dropWhile (isDigitIn base) = rest := by
  rw [List.dropWhile_append_of_pos fun char => isDigitIn_of_mem_toDigits hbase hsixteen]
  cases rest with
  | nil => simp
  | cons char rest => simp [hends char rfl]

/-- What a form asks of a number so that its own digits are let through. -/
structure NumberForm.Admits (form : NumberForm) (n : Nat) : Prop where
  base : 1 < form.base ∧ form.base ≤ 16
  fits : ∀ longest ∈ form.longest, 0 < longest ∧ n < form.base ^ longest
  bounded : n ≤ form.greatest

namespace NumberForm

variable {form : NumberForm}

theorem read_toDigits (hadmits : form.Admits n) (hends : NoDigitAhead form.base rest) :
    form.read (Nat.toDigits form.base n ++ rest) = some (n, rest) := by
  obtain ⟨⟨hbase, hsixteen⟩, hfits, hbounded⟩ := hadmits
  have hlength : form.longest.any (· < (Nat.toDigits form.base n).length) = false := by
    rw [Option.any_eq_false_iff_get]
    intro hsome
    obtain ⟨hpositive, hlt⟩ := hfits _ (Option.get_mem hsome)
    simpa using (Nat.length_toDigits_le_iff hbase hpositive).mpr hlt
  have hleading : ((Nat.toDigits form.base n).head? == some '0' &&
      decide (1 < (Nat.toDigits form.base n).length)) = false := by
    by_cases hzero : (Nat.toDigits form.base n).head? = some '0'
    · rw [head_toDigits hbase hsixteen hzero, Nat.toDigits_of_lt_base (Nat.lt_of_succ_lt hbase)]
      rfl
    · simp [hzero]
  simp only [NumberForm.read, takeWhile_toDigits hbase hsixteen hends,
    dropWhile_toDigits hbase hsixteen hends, digitsValue_toDigits hbase hsixteen]
  rw [if_neg (by simp [Nat.toDigits_ne_nil]), if_neg (by simp [hlength]),
    if_neg (by rw [Bool.and_assoc, hleading]; simp), if_neg (Nat.not_lt.mpr hbounded)]

/-- What is left after a number begins where its digits end. -/
theorem rest_of_read {chars : List Char} {value : Nat}
    (hread : form.read chars = some (value, rest)) :
    rest = chars.dropWhile (isDigitIn form.base) := by
  simp only [NumberForm.read, Option.ite_none_left_eq_some, Option.some.injEq,
    Prod.mk.injEq] at hread
  exact hread.2.2.2.2.2.symm

theorem read_of_noDigitAhead (hnone : NoDigitAhead form.base rest) : form.read rest = none := by
  have hdigits : rest.takeWhile (isDigitIn form.base) = [] := by
    cases rest with
    | nil => rfl
    | cons char rest => simp [hnone char rfl]
  simp [NumberForm.read, hdigits]

end NumberForm

theorem octetForm_admits (hoctet : n < 256) : octetForm.Admits n where
  base := by decide
  fits longest hlongest := by
    obtain rfl : 3 = longest := Option.some.inj hlongest
    exact ⟨by decide, Nat.lt_trans hoctet (by decide)⟩
  bounded := Nat.le_of_lt_succ hoctet

theorem groupForm_admits (hgroup : n < 65536) : groupForm.Admits n where
  base := by decide
  fits longest hlongest := by
    obtain rfl : 4 = longest := Option.some.inj hlongest
    exact ⟨by decide, hgroup⟩
  bounded := Nat.le_of_lt_succ hgroup

theorem portForm_admits (port : UInt16) : portForm.Admits port.toNat where
  base := by decide
  fits longest hlongest := nomatch hlongest
  bounded := Nat.le_of_lt_succ port.toNat_lt

@[simp] theorem skipChar_self (char : Char) : skipChar char (char :: rest) = some rest :=
  if_pos rfl

theorem skipChar_of_ne {char : Char} (hother : ∀ first ∈ rest.head?, first ≠ char) :
    skipChar char rest = none := by
  cases rest with
  | nil => rfl
  | cons first rest => exact if_neg (hother first rfl)

namespace IpAddress

/-! ## Dotted quads -/

theorem read_octet (hoctet : n < 256) (hends : NoDigitAhead 10 rest) :
    octetForm.read (decimalDigits n ++ rest) = some (n, rest) :=
  NumberForm.read_toDigits (octetForm_admits hoctet) hends

theorem noDigitAhead_dot (chars : List Char) : NoDigitAhead 10 ('.' :: chars) := by
  rintro _ ⟨⟩
  decide

theorem readQuad_quadChars (bits : BitVec 32) (hends : NoDigitAhead 10 rest) :
    readQuad (quadChars bits ++ rest) = some (bits, rest) := by
  have hoctet : ∀ place, bits.toNat >>> place % 256 < 256 := fun place => Nat.mod_lt _ (by decide)
  have hvalue : ((bits.toNat >>> (8 * 3) % 256 * 256 + bits.toNat >>> (8 * 2) % 256) * 256 +
      bits.toNat >>> (8 * 1) % 256) * 256 + bits.toNat >>> (8 * 0) % 256 = bits.toNat := by
    have hbits := bits.isLt
    simp only [Nat.shiftRight_eq_div_pow]
    omega
  have hchars : quadChars bits ++ rest =
      decimalDigits (bits.toNat >>> (8 * 3) % 256) ++ '.' ::
        (decimalDigits (bits.toNat >>> (8 * 2) % 256) ++ '.' ::
          (decimalDigits (bits.toNat >>> (8 * 1) % 256) ++ '.' ::
            (decimalDigits (bits.toNat >>> (8 * 0) % 256) ++ rest))) := by
    simp [quadChars, quad, List.intercalate_cons_cons]
  simp only [hchars, readQuad, read_octet (hoctet _) (noDigitAhead_dot _),
    read_octet (hoctet _) hends, skipChar_self, Option.bind_eq_bind, Option.bind_some,
    Option.pure_def, hvalue, BitVec.ofNat_toNat, BitVec.setWidth_eq]

/-- A quad needs a dot where its first number ends. -/
theorem readQuad_eq_none {chars : List Char}
    (hdot : ∀ first ∈ (chars.dropWhile (isDigitIn 10)).head?, first ≠ '.') :
    readQuad chars = none := by
  cases hread : octetForm.read chars with
  | none => simp [readQuad, hread]
  | some found =>
      obtain ⟨value, left⟩ := found
      obtain rfl := NumberForm.rest_of_read hread
      have hskip : skipChar '.' (chars.dropWhile (isDigitIn octetForm.base)) = none :=
        skipChar_of_ne hdot
      simp [readQuad, hread, hskip]

/-! ## Groups -/

/-- The groups in the order of writing, with a colon before each but a first one. -/
def groupsAhead : Bool → List Nat → List Char
  | _, [] => []
  | true, group :: later => hexDigits group ++ groupsAhead false later
  | false, group :: later => ':' :: (hexDigits group ++ groupsAhead false later)

theorem groupsAhead_false (parts : List Nat) :
    groupsAhead false parts = parts.flatMap fun group => ':' :: hexDigits group := by
  induction parts with
  | nil => rfl
  | cons group later ih => rw [groupsAhead, ih, List.flatMap_cons, List.cons_append]

theorem groupChars_eq (parts : List Nat) : groupChars parts = groupsAhead true parts := by
  cases parts with
  | nil => rfl
  | cons group later =>
      rw [groupsAhead, groupsAhead_false]
      induction later generalizing group with
      | nil => simp [groupChars]
      | cons next later ih =>
          rw [groupChars, List.map_cons, List.map_cons, List.intercalate_cons_cons,
            ← List.map_cons, ← groupChars, ih, List.flatMap_cons]
          simp

/-- Neither another digit of a group nor the dot of a quad stands at the front. -/
def EndsGroup (rest : List Char) : Prop :=
  ∀ char ∈ rest.head?, isDigitIn 16 char = false ∧ char ≠ '.'

/-- With this much room, nothing more is read as a group. -/
def NoGroupAhead (room : Nat) (rest : List Char) : Prop :=
  ∀ isFirst, readGroups room isFirst rest = ([], false, rest)

theorem noDigitAhead_ten (hends : NoDigitAhead 16 rest) : NoDigitAhead 10 rest := by
  intro char hchar
  have hsixteen := hends char hchar
  simp only [isDigitIn, decide_eq_false_iff_not] at hsixteen ⊢
  omega

theorem EndsGroup.noDigitAhead (hends : EndsGroup rest) : NoDigitAhead 16 rest :=
  fun char hchar => (hends char hchar).1

theorem endsGroup_colon (chars : List Char) : EndsGroup (':' :: chars) := by
  rintro _ ⟨⟩
  decide

theorem endsGroup_groupsAhead (parts : List Nat) (hends : EndsGroup rest) :
    EndsGroup (groupsAhead false parts ++ rest) := by
  cases parts with
  | nil => exact hends
  | cons group later => exact endsGroup_colon _

theorem noGroupAhead_of (room : Nat)
    (hnone : ∀ isFirst, ∀ left ∈ afterColon isFirst rest, NoDigitAhead 16 left) :
    NoGroupAhead room rest := by
  intro isFirst
  cases room with
  | zero => rfl
  | succ room =>
      have hquad : afterColon isFirst rest >>= readQuad = none := by
        refine Option.bind_eq_none_iff.mpr fun left hleft => ?_
        have hread : octetForm.read left = none :=
          NumberForm.read_of_noDigitAhead (noDigitAhead_ten (hnone isFirst left hleft))
        simp [readQuad, hread]
      have hgroup : afterColon isFirst rest >>= groupForm.read = none :=
        Option.bind_eq_none_iff.mpr fun left hleft =>
          NumberForm.read_of_noDigitAhead (hnone isFirst left hleft)
      simp only [readGroups, hquad, hgroup, ite_self]

theorem noGroupAhead_colons (room : Nat) (chars : List Char) :
    NoGroupAhead room (':' :: ':' :: chars) := by
  have hcolon : ∀ chars, NoDigitAhead 16 (':' :: chars) :=
    fun chars => (endsGroup_colon chars).noDigitAhead
  refine noGroupAhead_of room fun isFirst left hleft => ?_
  cases isFirst with
  | true =>
      obtain rfl : ':' :: ':' :: chars = left := Option.some.inj hleft
      exact hcolon _
  | false =>
      obtain rfl : ':' :: chars = left := Option.some.inj ((skipChar_self ':').symm.trans hleft)
      exact hcolon _

theorem noGroupAhead_of_ends (room : Nat) (hends : EndsGroup rest)
    (hcolon : ∀ char ∈ rest.head?, char ≠ ':') : NoGroupAhead room rest := by
  refine noGroupAhead_of room fun isFirst left hleft => ?_
  cases isFirst with
  | true =>
      obtain rfl : rest = left := Option.some.inj hleft
      exact hends.noDigitAhead
  | false => exact nomatch (skipChar_of_ne hcolon).symm.trans hleft

/-- The first digits of a group that are decimal are not followed by a dot. -/
theorem readQuad_hexDigits (group : Nat) (hends : EndsGroup rest) :
    readQuad (hexDigits group ++ rest) = none := by
  have hdigits : ∀ char ∈ hexDigits group, char ≠ '.' := by
    rintro char hchar rfl
    have hdot := isDigitIn_of_mem_toDigits (by decide) (by decide) hchar
    exact absurd hdot (by decide)
  refine readQuad_eq_none ?_
  rw [List.dropWhile_append]
  split
  · cases rest with
    | nil => exact fun first hfirst => nomatch hfirst
    | cons char rest =>
        have hstop := noDigitAhead_ten hends.noDigitAhead char rfl
        rw [List.dropWhile_cons_of_neg (by simp [hstop])]
        exact fun first hfirst => (hends first hfirst).2
  · rename_i hsome
    rw [List.isEmpty_iff] at hsome
    intro first hfirst
    rw [List.head?_append_of_ne_nil _ hsome] at hfirst
    exact hdigits first (List.dropWhile_subset _ (List.mem_of_mem_head? hfirst))

theorem read_group {group : Nat} (hgroup : group < 65536) (hends : NoDigitAhead 16 rest) :
    groupForm.read (hexDigits group ++ rest) = some (group, rest) :=
  NumberForm.read_toDigits (groupForm_admits hgroup) hends

theorem readGroups_group {group room : Nat} {chars : List Char} {isFirst : Bool}
    (hgroup : group < 65536) (hends : EndsGroup rest)
    (hafter : afterColon isFirst chars = some (hexDigits group ++ rest)) :
    readGroups (room + 1) isFirst chars =
      (group :: (readGroups room false rest).1, (readGroups room false rest).2) := by
  simp only [readGroups, hafter, Option.bind_eq_bind, Option.bind_some,
    readQuad_hexDigits group hends, read_group hgroup hends.noDigitAhead, ite_self]

/-- Groups are read back one by one, as far as they were written. -/
theorem readGroups_groupsAhead {parts : List Nat} {room : Nat}
    (hparts : ∀ group ∈ parts, group < 65536) (hends : EndsGroup rest)
    (hstop : NoGroupAhead room rest) (isFirst : Bool) :
    readGroups (parts.length + room) isFirst (groupsAhead isFirst parts ++ rest) =
      (parts, false, rest) := by
  induction parts generalizing isFirst with
  | nil =>
      rw [List.length_nil, Nat.zero_add, groupsAhead, List.nil_append]
      exact hstop isFirst
  | cons group later ih =>
      have hafter : afterColon isFirst (groupsAhead isFirst (group :: later) ++ rest) =
          some (hexDigits group ++ (groupsAhead false later ++ rest)) := by
        cases isFirst <;> simp [groupsAhead, afterColon]
      rw [List.length_cons, Nat.add_right_comm,
        readGroups_group (hparts group List.mem_cons_self) (endsGroup_groupsAhead later hends)
          hafter,
        ih (fun group hgroup => hparts group (List.mem_cons_of_mem _ hgroup)) false]

/-- A quad behind a colon is read as two groups, and nothing after it. -/
theorem readGroups_quad (bits : BitVec 32) (room : Nat) (hends : NoDigitAhead 10 rest) :
    readGroups (room + 2) false (':' :: (quadChars bits ++ rest)) =
      ([bits.toNat / 65536, bits.toNat % 65536], true, rest) := by
  simp [readGroups, afterColon, readQuad_quadChars bits hends]

/-! ## The value of eight groups -/

theorem shiftRight_push (n place : Nat) :
    n >>> (16 * (place + 1)) * 65536 + n >>> (16 * place) % 65536 = n >>> (16 * place) := by
  have hnext : n >>> (16 * (place + 1)) = n >>> (16 * place) / 65536 := by
    rw [Nat.mul_add, Nat.mul_one, Nat.shiftRight_add]
    exact Nat.shiftRight_eq_div_pow _ 16
  rw [hnext]
  exact Nat.div_add_mod' _ _

/-- Behind what a number has above its lowest groups, those groups complete it. -/
theorem foldl_lowest_groups (n count : Nat) :
    (List.range count).reverse.foldl
      (fun value place => value * 65536 + n >>> (16 * place) % 65536) (n >>> (16 * count)) = n := by
  induction count with
  | zero => rfl
  | succ count ih =>
      rw [List.range_succ, List.reverse_append, List.reverse_singleton, List.singleton_append,
        List.foldl_cons, shiftRight_push, ih]

theorem ofGroups_groups (bits : BitVec 128) : ofGroups (groups bits) = bits := by
  have hgroups : groups bits =
      (List.range 8).reverse.map fun place => bits.toNat >>> (16 * place) % 65536 := rfl
  have hnone : bits.toNat >>> (16 * 8) = 0 := by
    rw [Nat.shiftRight_eq_div_pow]
    exact Nat.div_eq_of_lt bits.isLt
  have hvalue := foldl_lowest_groups bits.toNat 8
  rw [hnone] at hvalue
  rw [ofGroups, hgroups, List.foldl_map, hvalue, BitVec.ofNat_toNat, BitVec.setWidth_eq]

theorem ofGroups_mapped {bits : BitVec 128} (hmapped : isMapped bits = true) :
    ofGroups (List.replicate 5 0 ++
      [0xffff, (bits.setWidth 32).toNat / 65536, (bits.setWidth 32).toNat % 65536]) = bits := by
  have hhigh : bits.toNat >>> 32 = 0xffff := by simpa [isMapped] using hmapped
  have hvalue : (0xffff * 65536 + bits.toNat % 2 ^ 32 / 65536) * 65536 +
      bits.toNat % 2 ^ 32 % 65536 = bits.toNat := by
    rw [Nat.shiftRight_eq_div_pow] at hhigh
    omega
  have hfold : (List.replicate 5 0 ++
      [0xffff, (bits.setWidth 32).toNat / 65536, (bits.setWidth 32).toNat % 65536]).foldl
        (fun value group => value * 65536 + group) 0 = bits.toNat := by
    rw [BitVec.toNat_setWidth]
    exact hvalue
  rw [ofGroups, hfold, BitVec.ofNat_toNat, BitVec.setWidth_eq]

/-! ## The run of zeros that `::` stands for -/

theorem replicate_zerosAhead_prefix (parts : List Nat) :
    List.replicate (zerosAhead parts) 0 <+: parts := by
  have hzeros : parts.takeWhile (· == 0) = List.replicate (zerosAhead parts) 0 :=
    List.eq_replicate_iff.mpr ⟨rfl, fun group hgroup => by
      simpa using List.all_eq_true.mp List.all_takeWhile group hgroup⟩
  exact hzeros ▸ List.takeWhile_prefix _

theorem zeroRun_prefix (parts : List Nat) :
    List.replicate (zeroRun parts).2 0 <+: parts.drop (zeroRun parts).1 := by
  let IsRun (best : Nat × Nat) := List.replicate best.2 0 <+: parts.drop best.1
  have hstep : ∀ best : Nat × Nat, IsRun best → ∀ start ∈ List.range parts.length,
      IsRun (if best.2 < zerosAhead (parts.drop start) then
        (start, zerosAhead (parts.drop start)) else best) := by
    intro best hbest start _
    split
    · exact replicate_zerosAhead_prefix _
    · exact hbest
  exact List.foldlRecOn (motive := IsRun) _ _ (List.nil_prefix (l := parts)) hstep

/-- The groups are what stands before the run, the zeros of the run and what stands after it. -/
theorem take_zeroRun_drop (parts : List Nat) :
    parts.take (zeroRun parts).1 ++ List.replicate (zeroRun parts).2 0 ++
      parts.drop ((zeroRun parts).1 + (zeroRun parts).2) = parts := by
  obtain ⟨after, hafter⟩ := zeroRun_prefix parts
  have hdrop : parts.drop ((zeroRun parts).1 + (zeroRun parts).2) = after := by
    rw [← List.drop_drop, ← hafter, List.drop_left' List.length_replicate]
  rw [hdrop, List.append_assoc, hafter, List.take_append_drop]

/-! ## Written IPv6 addresses -/

variable {bits : BitVec 128}

theorem length_groups (bits : BitVec 128) : (groups bits).length = 8 :=
  rfl

theorem groups_lt (bits : BitVec 128) : ∀ group ∈ groups bits, group < 65536 := by
  intro group hgroup
  obtain ⟨place, -, rfl⟩ := List.mem_map.mp hgroup
  exact Nat.mod_lt _ (by decide)

/-- Eight groups without a gap. -/
theorem readV6_full (hends : EndsGroup rest) :
    readV6 (groupChars (groups bits) ++ rest) = some (bits, rest) := by
  have hstop : NoGroupAhead 0 rest := fun _ => rfl
  have hread : readGroups 8 true (groupChars (groups bits) ++ rest) =
      (groups bits, false, rest) := by
    rw [groupChars_eq]
    exact readGroups_groupsAhead (groups_lt bits) hends hstop true
  rw [readV6, hread]
  simp [length_groups, ofGroups_groups]

/-- Two colons stand for as many zero groups as the groups around them leave open. -/
theorem readV6_of_gap {chars inner : List Char} {before after : List Nat} {hasQuad : Bool}
    (hhead : readGroups 8 true chars = (before, false, ':' :: ':' :: inner))
    (hshort : before.length ≠ 8)
    (htail : readGroups (7 - before.length) true inner = (after, hasQuad, rest)) :
    readV6 chars = some (ofGroups
      (before ++ List.replicate (8 - before.length - after.length) 0 ++ after), rest) := by
  simp only [readV6, hhead, if_neg hshort, Bool.false_eq_true, if_false, skipChar_self,
    Option.bind_eq_bind, Option.bind_some, htail, Option.pure_def]

/-- Groups around a gap that stands for the zeros between them. -/
theorem readV6_gap {before after : List Nat} {zeros : Nat} (hgap : 1 < zeros)
    (hparts : before ++ List.replicate zeros 0 ++ after = groups bits) (hends : EndsGroup rest)
    (hcolon : ∀ char ∈ rest.head?, char ≠ ':') :
    readV6 (groupChars before ++ ':' :: ':' :: groupChars after ++ rest) = some (bits, rest) := by
  have hlength : before.length + zeros + after.length = 8 := by
    simpa [length_groups, Nat.add_assoc] using congrArg List.length hparts
  have hbefore : ∀ group ∈ before, group < 65536 := fun group hgroup =>
    groups_lt bits group (hparts ▸ List.mem_append_left _ (List.mem_append_left _ hgroup))
  have hafter : ∀ group ∈ after, group < 65536 := fun group hgroup =>
    groups_lt bits group (hparts ▸ List.mem_append_right _ hgroup)
  obtain ⟨room, hroom⟩ : ∃ room, 8 = before.length + room := ⟨zeros + after.length, by omega⟩
  obtain ⟨left, hleft⟩ : ∃ left, 7 - before.length = after.length + left :=
    ⟨zeros - 1, by omega⟩
  have hhead : readGroups 8 true
      (groupChars before ++ ':' :: ':' :: groupChars after ++ rest) =
        (before, false, ':' :: ':' :: (groupChars after ++ rest)) := by
    rw [groupChars_eq before, List.append_assoc, hroom]
    exact readGroups_groupsAhead hbefore (endsGroup_colon _) (noGroupAhead_colons room _) true
  have htail : readGroups (7 - before.length) true (groupChars after ++ rest) =
      (after, false, rest) := by
    rw [groupChars_eq after, hleft]
    exact readGroups_groupsAhead hafter hends (noGroupAhead_of_ends left hends hcolon) true
  have hzeros : 8 - before.length - after.length = zeros := by omega
  have hshort : before.length ≠ 8 := by omega
  rw [readV6_of_gap hhead hshort htail, hzeros, hparts, ofGroups_groups]

/-- An IPv4 address in disguise, its last two groups written as a quad. -/
theorem readV6_mapped (hmapped : isMapped bits = true) (hends : NoDigitAhead 10 rest) :
    readV6 ("::ffff:".toList ++ quadChars (bits.setWidth 32) ++ rest) = some (bits, rest) := by
  have hchars : "::ffff:".toList ++ quadChars (bits.setWidth 32) ++ rest =
      ':' :: ':' :: (hexDigits 0xffff ++ ':' :: (quadChars (bits.setWidth 32) ++ rest)) := by
    simp [show hexDigits 0xffff = ['f', 'f', 'f', 'f'] by decide]
  have hhead := noGroupAhead_colons 8
    (hexDigits 0xffff ++ ':' :: (quadChars (bits.setWidth 32) ++ rest)) true
  have htail : readGroups 7 true
      (hexDigits 0xffff ++ ':' :: (quadChars (bits.setWidth 32) ++ rest)) =
        ([0xffff, (bits.setWidth 32).toNat / 65536, (bits.setWidth 32).toNat % 65536],
          true, rest) := by
    rw [readGroups_group (by decide) (endsGroup_colon _) rfl, readGroups_quad _ 4 hends]
  rw [hchars, readV6_of_gap hhead (by decide) htail]
  exact congrArg (fun value => some (value, rest)) (ofGroups_mapped hmapped)

/-- Whichever form an IPv6 address is written in, it is read back. -/
theorem readV6_v6Chars (bits : BitVec 128) (hends : EndsGroup rest)
    (hcolon : ∀ char ∈ rest.head?, char ≠ ':') :
    readV6 (v6Chars bits ++ rest) = some (bits, rest) := by
  unfold v6Chars
  dsimp only
  split
  · rename_i hmapped
    exact readV6_mapped hmapped (noDigitAhead_ten hends.noDigitAhead)
  split
  · rename_i hgap
    exact readV6_gap hgap (take_zeroRun_drop (groups bits)) hends hcolon
  · exact readV6_full hends

end IpAddress

/-! ## Socket addresses -/

namespace SocketAddress

theorem readPort_decimalDigits (port : UInt16) :
    readPort (':' :: decimalDigits port.toNat) = some (port, []) := by
  have hread : portForm.read (decimalDigits port.toNat ++ []) = some (port.toNat, []) :=
    NumberForm.read_toDigits (portForm_admits port) fun _ hchar => nomatch hchar
  rw [List.append_nil] at hread
  simp [readPort, hread]

/-- A socket address is what its own text denotes. -/
theorem ofChars?_chars (address : SocketAddress) : ofChars? address.chars = some address := by
  obtain ⟨ip, port⟩ := address
  cases ip with
  | v4 bits =>
      have hread : readV4 (chars ⟨.v4 bits, port⟩) = some (⟨.v4 bits, port⟩, []) := by
        have hends : NoDigitAhead 10 (':' :: decimalDigits port.toNat) :=
          IpAddress.noDigitAhead_ten (IpAddress.endsGroup_colon _).noDigitAhead
        simp [readV4, chars, IpAddress.readQuad_quadChars bits hends, readPort_decimalDigits]
      simp [ofChars?, hread]
  | v6 bits =>
      have hnone : readV4 (chars ⟨.v6 bits, port⟩) = none := by
        have hquad : IpAddress.readQuad (chars ⟨.v6 bits, port⟩) = none :=
          IpAddress.readQuad_eq_none (by rintro _ ⟨⟩; decide)
        simp [readV4, hquad]
      have hread : readV6 (chars ⟨.v6 bits, port⟩) = some (⟨.v6 bits, port⟩, []) := by
        have hbits : IpAddress.readV6 (IpAddress.v6Chars bits ++ ']' :: ':' ::
            decimalDigits port.toNat) = some (bits, ']' :: ':' :: decimalDigits port.toNat) :=
          IpAddress.readV6_v6Chars bits (by rintro _ ⟨⟩; decide) (by rintro _ ⟨⟩; decide)
        have hscope : ∀ later, skipScope (']' :: later) = ']' :: later := fun _ => rfl
        simp [readV6, chars, hbits, hscope, readPort_decimalDigits]
      simp [ofChars?, hnone, hread]

end SocketAddress

end Peering
