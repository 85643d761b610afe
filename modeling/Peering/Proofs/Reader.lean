import Peering.Bytes

/-!
# Readers one after the other

A reader takes what it reads off the front of the bytes and leaves the rest to
the reader that comes after it; the first one that fails ends the reading.
-/

namespace Peering

namespace Reader

variable {ε α β : Type} {bytes rest : Bytes} {value : α}

/-- What a reader gives is handed on with the bytes that it leaves. -/
theorem bind_ok {reader : StateT Bytes (Except ε) α} {next : α → StateT Bytes (Except ε) β}
    (hread : reader bytes = .ok (value, rest)) : (reader >>= next) bytes = next value rest := by
  show (reader bytes >>= fun read => next read.1 read.2) = _
  rw [hread]
  rfl

theorem bind_error {reader : StateT Bytes (Except ε) α} {next : α → StateT Bytes (Except ε) β}
    {error : ε} (hread : reader bytes = .error error) :
    (reader >>= next) bytes = .error error := by
  show (reader bytes >>= fun read => next read.1 read.2) = _
  rw [hread]
  rfl

theorem bind_eq_ok_iff {reader : StateT Bytes (Except ε) α}
    {next : α → StateT Bytes (Except ε) β} {value : β} :
    (reader >>= next) bytes = .ok (value, rest) ↔
      ∃ first middle, reader bytes = .ok (first, middle) ∧ next first middle = .ok (value, rest) := by
  cases hread : reader bytes with
  | error error => simp [bind_error hread]
  | ok read =>
      rw [bind_ok hread]
      constructor
      · exact fun hnext => ⟨read.1, read.2, rfl, hnext⟩
      · rintro ⟨_, _, hsame, hnext⟩
        cases hsame
        exact hnext

theorem bind_eq_error_iff {reader : StateT Bytes (Except ε) α}
    {next : α → StateT Bytes (Except ε) β} {error : ε} :
    (reader >>= next) bytes = .error error ↔
      reader bytes = .error error ∨
        ∃ first middle, reader bytes = .ok (first, middle) ∧ next first middle = .error error := by
  cases hread : reader bytes with
  | error found => simp [bind_error hread]
  | ok read =>
      rw [bind_ok hread]
      constructor
      · exact fun hnext => Or.inr ⟨read.1, read.2, rfl, hnext⟩
      · rintro (hsame | ⟨_, _, hsame, hnext⟩)
        · cases hsame
        · cases hsame
          exact hnext

theorem pure_eq_ok_iff {first : α} :
    (pure first : StateT Bytes (Except ε) α) bytes = .ok (value, rest) ↔
      first = value ∧ bytes = rest := by
  show Except.ok (first, bytes) = _ ↔ _
  simp

theorem map_eq_ok_iff {reader : StateT Bytes (Except ε) α} {f : α → β} {value : β} :
    (f <$> reader) bytes = .ok (value, rest) ↔
      ∃ first, reader bytes = .ok (first, rest) ∧ f first = value := by
  rw [← bind_pure_comp, bind_eq_ok_iff]
  constructor
  · rintro ⟨first, middle, hfirst, hvalue⟩
    obtain ⟨rfl, rfl⟩ := pure_eq_ok_iff.mp hvalue
    exact ⟨first, hfirst, rfl⟩
  · rintro ⟨first, hfirst, rfl⟩
    exact ⟨first, rest, hfirst, rfl⟩

/-- What a reader gives, with the bytes that it leaves forgotten. -/
theorem map_fst_eq_ok_iff {reader : StateT Bytes (Except ε) α} :
    (·.1) <$> reader bytes = .ok value ↔ ∃ rest, reader bytes = .ok (value, rest) := by
  cases hread : reader bytes with
  | error error =>
      show Except.error error = _ ↔ _
      simp
  | ok read =>
      show Except.ok read.1 = _ ↔ _
      constructor
      · intro hvalue
        cases hvalue
        exact ⟨read.2, rfl⟩
      · rintro ⟨_, hsame⟩
        cases hsame
        rfl

end Reader

end Peering
