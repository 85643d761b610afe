import Peering.Proofs.Payload.Sound

/-!
# Which bytes are a varint

The reader of a varint takes the bytes that announce another one and the first that
does not, ten at most, and gives the number that they denote as far as 64 bits hold
it. Seventy bits fit into ten bytes: the number is lost in part only if there are ten
of them and the last carries more than its lowest bit.
-/

namespace Peering

namespace Payload

variable {form bytes rest : Bytes} {room shift start : Nat} {value : UInt64} {next : UInt8}

/-- The number that bytes denote: seven bits of each, the lowest first. -/
def varintNumber : Bytes → Nat
  | [] => 0
  | byte :: rest => byte.toNat % 0x80 + varintNumber rest * 0x80

/-- A whole varint of at most so many bytes: all but the last have the top bit set. -/
def IsWhole (room : Nat) (form : Bytes) : Prop :=
  ∃ leading last, form = leading ++ [last] ∧ leading.length < room ∧
    (∀ byte ∈ leading, 0x80 ≤ byte.toNat) ∧ last.toNat < 0x80

/-! ## Whole varints -/

/-- That all bytes of a given form announce another one can be computed. -/
theorem continued_of_all (hall : bytes.all (fun byte => 0x80 ≤ byte.toNat) = true) :
    ∀ byte ∈ bytes, 0x80 ≤ byte.toNat := by
  simpa using hall

theorem not_isWhole_nil : ¬ IsWhole room [] := by
  rintro ⟨leading, last, hform, _⟩
  simp at hform

theorem isWhole_cons : IsWhole (room + 1) (next :: form) ↔
    (next.toNat < 0x80 ∧ form = []) ∨ (0x80 ≤ next.toNat ∧ IsWhole room form) := by
  constructor
  · rintro ⟨leading, last, hform, hroom, hleading, hlast⟩
    cases leading with
    | nil =>
        obtain ⟨rfl, rfl⟩ := List.cons.inj hform
        exact Or.inl ⟨hlast, rfl⟩
    | cons first others =>
        obtain ⟨rfl, rfl⟩ := List.cons.inj hform
        refine Or.inr ⟨hleading _ List.mem_cons_self, others, last, rfl,
          Nat.lt_of_succ_lt_succ hroom, ?_, hlast⟩
        exact fun byte hmem => hleading byte (List.mem_cons_of_mem _ hmem)
  · rintro (⟨hlast, rfl⟩ | ⟨hnext, leading, last, rfl, hroom, hleading, hlast⟩)
    · exact ⟨[], next, rfl, Nat.succ_pos room, nofun, hlast⟩
    · refine ⟨next :: leading, last, rfl, Nat.succ_lt_succ hroom, ?_, hlast⟩
      exact List.forall_mem_cons.mpr ⟨hnext, hleading⟩

/-! ## What is read, and what stops the reading -/

theorem varintFrom_of_last (hlast : next.toNat < 0x80) :
    varintFrom (room + 1) shift start (next :: rest) =
      .ok (UInt64.ofNat (start + (next.toNat % 0x80) <<< shift), rest) := by
  rw [varintFrom, if_pos hlast]

theorem varintFrom_of_continued (hnext : 0x80 ≤ next.toNat) :
    varintFrom (room + 1) shift start (next :: rest) =
      varintFrom room (shift + 7) (start + (next.toNat % 0x80) <<< shift) rest := by
  rw [varintFrom, if_neg (Nat.not_lt.mpr hnext)]

/-- The seven bits of the next byte, and those of the bytes after it above them. -/
theorem add_varintNumber_cons (start shift : Nat) (next : UInt8) (form : Bytes) :
    start + (next.toNat % 0x80) <<< shift + varintNumber form <<< (shift + 7) =
      start + varintNumber (next :: form) <<< shift := by
  simp only [varintNumber, Nat.shiftLeft_eq, Nat.pow_add]
  grind

theorem varintFrom_eq_ok_iff : varintFrom room shift start bytes = .ok (value, rest) ↔
    ∃ form, bytes = form ++ rest ∧ IsWhole room form ∧
      value = UInt64.ofNat (start + varintNumber form <<< shift) := by
  induction room generalizing shift start bytes with
  | zero =>
      constructor
      · intro hread
        cases hread
      · rintro ⟨_, _, ⟨_, _, _, hroom, _⟩, _⟩
        exact absurd hroom (Nat.not_lt_zero _)
  | succ room ih =>
      cases bytes with
      | nil =>
          constructor
          · intro hread
            cases hread
          · rintro ⟨form, hbytes, hwhole, _⟩
            obtain ⟨rfl, _⟩ := List.append_eq_nil_iff.mp hbytes.symm
            exact absurd hwhole not_isWhole_nil
      | cons next tail =>
          by_cases hlast : next.toNat < 0x80
          · rw [varintFrom_of_last hlast]
            constructor
            · intro hread
              cases hread
              exact ⟨[next], rfl, isWhole_cons.mpr (Or.inl ⟨hlast, rfl⟩), by simp [varintNumber]⟩
            · rintro ⟨form, hbytes, hwhole, rfl⟩
              cases form with
              | nil => exact absurd hwhole not_isWhole_nil
              | cons first others =>
                  obtain ⟨rfl, rfl⟩ := List.cons.inj hbytes
                  rcases isWhole_cons.mp hwhole with ⟨_, rfl⟩ | ⟨hnext, _⟩
                  · simp [varintNumber]
                  · exact absurd hlast (Nat.not_lt.mpr hnext)
          · have hnext := Nat.le_of_not_lt hlast
            rw [varintFrom_of_continued hnext, ih]
            constructor
            · rintro ⟨form, rfl, hwhole, rfl⟩
              exact ⟨next :: form, rfl, isWhole_cons.mpr (Or.inr ⟨hnext, hwhole⟩),
                by rw [add_varintNumber_cons]⟩
            · rintro ⟨form, hbytes, hwhole, rfl⟩
              cases form with
              | nil => exact absurd hwhole not_isWhole_nil
              | cons first others =>
                  obtain ⟨rfl, rfl⟩ := List.cons.inj hbytes
                  rcases isWhole_cons.mp hwhole with ⟨hsmall, _⟩ | ⟨_, hwhole⟩
                  · exact absurd hsmall hlast
                  · exact ⟨others, rfl, hwhole, by rw [add_varintNumber_cons]⟩

/-- Reading fails where no byte within the room ends the varint. -/
theorem varintFrom_eq_error_iff {error : PayloadError} :
    varintFrom room shift start bytes = .error error ↔
      (∀ byte ∈ bytes.take room, 0x80 ≤ byte.toNat) ∧
        error = if bytes.length < room then .truncated "varint" else .varintOverflow := by
  induction room generalizing shift start bytes with
  | zero =>
      simp only [varintFrom, List.take_zero, Nat.not_lt_zero, if_false]
      constructor
      · intro hread
        cases hread
        exact ⟨List.forall_mem_nil _, rfl⟩
      · rintro ⟨_, rfl⟩
        rfl
  | succ room ih =>
      cases bytes with
      | nil =>
          simp only [varintFrom, List.take_nil, List.length_nil, Nat.succ_pos, if_true]
          constructor
          · intro hread
            cases hread
            exact ⟨List.forall_mem_nil _, rfl⟩
          · rintro ⟨_, rfl⟩
            rfl
      | cons next tail =>
          rw [List.take_succ_cons, List.forall_mem_cons, List.length_cons]
          by_cases hlast : next.toNat < 0x80
          · rw [varintFrom_of_last hlast]
            constructor
            · intro hread
              cases hread
            · rintro ⟨⟨hnext, _⟩, _⟩
              exact absurd hlast (Nat.not_lt.mpr hnext)
          · have hnext := Nat.le_of_not_lt hlast
            rw [varintFrom_of_continued hnext, ih]
            simp only [hnext, true_and, Nat.add_lt_add_iff_right]

/-! ## Seventy bits, and the sixty-four of them that are kept -/

theorem varintNumber_append_last (leading : Bytes) (last : UInt8) :
    varintNumber (leading ++ [last]) =
      varintNumber leading + (last.toNat % 0x80) <<< (7 * leading.length) := by
  induction leading with
  | nil => simp [varintNumber]
  | cons first others ih =>
      simp only [List.cons_append, varintNumber, ih, List.length_cons, Nat.shiftLeft_eq,
        Nat.mul_succ, Nat.pow_add]
      grind

theorem varintNumber_lt (form : Bytes) : varintNumber form < 1 <<< (7 * form.length) := by
  induction form with
  | nil => exact Nat.one_pos
  | cons first others ih =>
      have hfirst : first.toNat % 0x80 < 0x80 := Nat.mod_lt _ (by decide)
      simp only [varintNumber, List.length_cons, Nat.shiftLeft_eq, Nat.one_mul, Nat.mul_succ,
        Nat.pow_add] at ih ⊢
      omega

/-- Ten bytes denote more than 64 bits only by more than the lowest bit of the last. -/
theorem varintNumber_lt_size_iff {leading : Bytes} {last : UInt8}
    (hroom : leading.length < varintRoom) (hlast : last.toNat < 0x80) :
    varintNumber (leading ++ [last]) < UInt64.size ↔
      leading.length + 1 < varintRoom ∨ last.toNat ≤ 1 := by
  have hleading := varintNumber_lt leading
  rw [varintNumber_append_last, Nat.mod_eq_of_lt hlast]
  by_cases hshort : leading.length + 1 < varintRoom
  · have hmore : (1 : Nat) <<< (7 * leading.length) ≤ 1 <<< 56 := by
      rw [Nat.shiftLeft_eq, Nat.shiftLeft_eq, Nat.one_mul, Nat.one_mul]
      have hlength : 7 * leading.length ≤ 56 := by
        simp only [varintRoom] at hshort
        omega
      exact Nat.pow_le_pow_right (by decide) hlength
    have hhigh : last.toNat <<< (7 * leading.length) ≤ 127 * 1 <<< (7 * leading.length) := by
      rw [Nat.shiftLeft_eq, Nat.shiftLeft_eq, Nat.one_mul]
      exact Nat.mul_le_mul_right _ (by omega)
    refine iff_of_true ?_ (Or.inl hshort)
    simp only [UInt64.size]
    have hbound : (1 : Nat) <<< 56 = 72057594037927936 := rfl
    omega
  · have hlength : leading.length = 9 := by
      simp only [varintRoom] at hroom hshort
      omega
    rw [hlength] at hleading ⊢
    have hbound : (1 : Nat) <<< (7 * 9) = 9223372036854775808 := rfl
    have hshift : last.toNat <<< (7 * 9) = last.toNat * 9223372036854775808 := Nat.shiftLeft_eq _ _
    rw [hbound] at hleading
    rw [hshift]
    simp only [UInt64.size, varintRoom]
    omega

end Payload

end Peering
