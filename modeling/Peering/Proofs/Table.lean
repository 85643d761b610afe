import Peering.Table

/-!
# Laws of keyed tables

What each operation does to the entries, to the keys and to what is found under
a key. A table whose keys are pairwise different holds exactly what is found in it.
-/

namespace Peering

namespace Table

variable {κ α : Type} {table : Table κ α} {key other : κ} {value : α}

/-! ## Looking for values -/

theorem mem_keys_of_mem (hmem : (key, value) ∈ table) : key ∈ keys table :=
  List.mem_map.mpr ⟨_, hmem, rfl⟩

theorem keyWhere?_isSome_iff (test : α → Bool) :
    (keyWhere? table test).isSome = true ↔ ∃ key value, (key, value) ∈ table ∧ test value := by
  induction table with
  | nil => simp [keyWhere?]
  | cons entry rest ih =>
      obtain ⟨first, known⟩ := entry
      by_cases htest : test known
      · simp only [keyWhere?, htest, if_true, Option.isSome_some, true_iff]
        exact ⟨first, known, List.mem_cons_self, htest⟩
      · simp only [keyWhere?, htest, Bool.false_eq_true, if_false, ih, List.mem_cons]
        constructor
        · rintro ⟨key, value, hmem, hvalue⟩
          exact ⟨key, value, Or.inr hmem, hvalue⟩
        · rintro ⟨key, value, heq | hmem, hvalue⟩
          · cases heq
            exact absurd hvalue htest
          · exact ⟨key, value, hmem, hvalue⟩

theorem mem_of_keyWhere? {test : α → Bool} (hfound : keyWhere? table test = some key) :
    ∃ value, (key, value) ∈ table ∧ test value = true := by
  induction table with
  | nil => cases hfound
  | cons entry rest ih =>
      obtain ⟨first, known⟩ := entry
      unfold keyWhere? at hfound
      split at hfound
      · rename_i htest
        cases hfound
        exact ⟨known, List.mem_cons_self, htest⟩
      · obtain ⟨value, hmem, hvalue⟩ := ih hfound
        exact ⟨value, List.mem_cons_of_mem _ hmem, hvalue⟩

theorem mem_select (test : α → Bool) :
    (key, value) ∈ select table test ↔ (key, value) ∈ table ∧ test value = true := by
  simp [select]

/-- The keys of the entries that pass a test. -/
theorem mem_keys_select (test : α → Bool) :
    key ∈ keys (select table test) ↔ ∃ value, (key, value) ∈ table ∧ test value = true := by
  constructor
  · intro hmem
    obtain ⟨⟨found, value⟩, hvalue, rfl⟩ := List.mem_map.mp hmem
    exact ⟨value, (mem_select test).mp hvalue⟩
  · rintro ⟨value, hmem, htest⟩
    exact mem_keys_of_mem ((mem_select test).mpr ⟨hmem, htest⟩)

/-- The entries that pass a test and those that do not make up the table. -/
theorem length_select_add (table : Table κ α) (test : α → Bool) :
    (keys (select table test)).length + (select table fun value => !test value).length =
      table.length := by
  have hperm : (select table test ++ select table fun value => !test value).Perm table :=
    List.filter_append_perm _ _
  rw [keys, List.length_map, ← List.length_append, hperm.length_eq]

/-! ## Looking up keys -/

variable [DecidableEq κ]

theorem mem_of_find? (hfind : find? table key = some value) : (key, value) ∈ table := by
  induction table with
  | nil => cases hfind
  | cons entry rest ih =>
      obtain ⟨first, known⟩ := entry
      unfold find? at hfind
      split at hfind
      · rename_i heq
        cases hfind
        subst heq
        exact List.mem_cons_self
      · exact List.mem_cons_of_mem _ (ih hfind)

theorem has_iff : has table key = true ↔ ∃ value, (key, value) ∈ table := by
  induction table with
  | nil => simp [has, find?]
  | cons entry rest ih =>
      obtain ⟨first, known⟩ := entry
      by_cases heq : first = key
      · simp [has, find?, heq]
      · have hne : ¬key = first := fun h => heq h.symm
        simpa [has, find?, heq, hne] using ih

theorem has_eq_false_iff : has table key = false ↔ ∀ value, (key, value) ∉ table := by
  rw [← Bool.not_eq_true, has_iff, not_exists]

theorem has_iff_mem_keys : has table key = true ↔ key ∈ keys table := by
  simp [has_iff, keys]

/-- With different keys, an entry is what is found under its key. -/
theorem find?_of_mem (hkeys : (keys table).Nodup) (hmem : (key, value) ∈ table) :
    find? table key = some value := by
  induction table with
  | nil => cases hmem
  | cons entry rest ih =>
      obtain ⟨first, known⟩ := entry
      simp only [keys, List.map_cons, List.nodup_cons] at hkeys
      rcases List.mem_cons.mp hmem with heq | hrest
      · cases heq
        simp [find?]
      · have hne : first ≠ key := fun h => hkeys.1 (h ▸ mem_keys_of_mem hrest)
        simpa [find?, hne] using ih hkeys.2 hrest

theorem eq_of_mem_of_mem {first second : α} (hkeys : (keys table).Nodup)
    (hfirst : (key, first) ∈ table) (hsecond : (key, second) ∈ table) : first = second := by
  have h := find?_of_mem hkeys hfirst
  rw [find?_of_mem hkeys hsecond] at h
  exact (Option.some.inj h).symm

/-- What is found and passes the test is found among the entries that pass it. -/
theorem find?_select {test : α → Bool} (hfind : find? table key = some value)
    (htest : test value = true) : find? (select table test) key = some value := by
  induction table with
  | nil => cases hfind
  | cons entry rest ih =>
      obtain ⟨first, known⟩ := entry
      unfold find? at hfind
      split at hfind
      · rename_i heq
        cases hfind
        simp [select, htest, find?, heq]
      · rename_i hne
        have hrest := ih hfind
        unfold select at hrest ⊢
        by_cases hknown : test known = true
        · rw [List.filter_cons_of_pos (by simpa using hknown), find?, if_neg hne, hrest]
        · rw [List.filter_cons_of_neg (by simpa using hknown), hrest]

/-- With different keys, what is found among the entries that pass a test is what passes it. -/
theorem find?_select_of_nodup (hkeys : (keys table).Nodup) (test : α → Bool) (key : κ) :
    find? (select table test) key = (find? table key).filter test := by
  cases hfind : find? table key with
  | some value =>
      by_cases htest : test value = true
      · rw [find?_select hfind htest, Option.filter_some_pos htest]
      · rw [Option.filter_some_neg (Bool.eq_false_iff.mpr htest)]
        refine Option.eq_none_iff_forall_ne_some.mpr fun other hother => ?_
        obtain ⟨hmem, hpassed⟩ := (mem_select test).mp (mem_of_find? hother)
        rw [find?_of_mem hkeys hmem] at hfind
        cases hfind
        exact htest hpassed
  | none =>
      refine Option.eq_none_iff_forall_ne_some.mpr fun other hother => ?_
      rw [find?_of_mem hkeys ((mem_select test).mp (mem_of_find? hother)).1] at hfind
      cases hfind

/-! ## Entries after an operation -/

theorem mem_erase : (key, value) ∈ erase table other ↔ key ≠ other ∧ (key, value) ∈ table := by
  simp [erase, and_comm]

/-- What a change does to the value of a key is erased with the key. -/
theorem erase_modify (table : Table κ α) (key : κ) (change : α → α) :
    erase (modify table key change) key = erase table key := by
  induction table with
  | nil => rfl
  | cons entry rest ih =>
      obtain ⟨first, value⟩ := entry
      by_cases hkey : first = key
      · simpa [modify, erase, hkey] using ih
      · simpa [modify, erase, hkey] using ih

theorem mem_modify (change : α → α) :
    (key, value) ∈ modify table other change ↔
      (key ≠ other ∧ (key, value) ∈ table) ∨
        (key = other ∧ ∃ old, (key, old) ∈ table ∧ value = change old) := by
  simp only [modify, List.mem_map, Prod.exists]
  constructor
  · rintro ⟨first, old, hmem, heq⟩
    split at heq
    · cases heq
      rename_i h
      exact Or.inr ⟨h, old, hmem, rfl⟩
    · cases heq
      rename_i h
      exact Or.inl ⟨h, hmem⟩
  · rintro (⟨hne, hmem⟩ | ⟨heq, old, hmem, hvalue⟩)
    · exact ⟨key, value, hmem, by simp [hne]⟩
    · exact ⟨key, old, hmem, by simp [heq, hvalue]⟩

theorem mem_insert {new : α} :
    (key, value) ∈ insert table other new ↔
      (key ≠ other ∧ (key, value) ∈ table) ∨ (key = other ∧ value = new) := by
  unfold insert
  by_cases hhas : has table other = true
  · obtain ⟨old, hold⟩ := has_iff.mp hhas
    rw [if_pos hhas, mem_modify]
    constructor
    · rintro (h | ⟨heq, _, _, hvalue⟩)
      · exact Or.inl h
      · exact Or.inr ⟨heq, hvalue⟩
    · rintro (h | ⟨heq, hvalue⟩)
      · exact Or.inl h
      · exact Or.inr ⟨heq, old, heq ▸ hold, hvalue⟩
  · have hfree := has_eq_false_iff.mp (Bool.not_eq_true _ ▸ hhas)
    rw [if_neg hhas, List.mem_append, List.mem_singleton, Prod.mk.injEq]
    constructor
    · rintro (hmem | h)
      · exact Or.inl ⟨fun heq => hfree value (heq ▸ hmem), hmem⟩
      · exact Or.inr h
    · rintro (⟨_, hmem⟩ | h)
      · exact Or.inl hmem
      · exact Or.inr h

theorem erase_sublist (table : Table κ α) (key : κ) : (erase table key).Sublist table :=
  List.filter_sublist

theorem erase_eq_self (hfree : has table key = false) : erase table key = table := by
  rw [erase, List.filter_eq_self]
  intro entry hmem
  have hother : entry.1 ≠ key := fun heq => has_eq_false_iff.mp hfree entry.2 (heq ▸ hmem)
  simpa using hother

/-- With different keys, erasing a key takes one entry. -/
theorem perm_cons_erase (hkeys : (keys table).Nodup) (hmem : (key, value) ∈ table) :
    table.Perm ((key, value) :: erase table key) := by
  induction table with
  | nil => cases hmem
  | cons entry rest ih =>
      rw [keys, List.map_cons, List.nodup_cons] at hkeys
      rcases List.mem_cons.mp hmem with rfl | hrest
      · have hfree : has rest key = false := by
          rw [← Bool.not_eq_true, has_iff_mem_keys]
          exact hkeys.1
        rw [erase, List.filter_cons_of_neg (by simp), ← erase, erase_eq_self hfree]
      · have hother : entry.1 ≠ key := fun heq => hkeys.1 (heq ▸ mem_keys_of_mem hrest)
        rw [erase, List.filter_cons_of_pos (by simpa using hother), ← erase]
        exact ((ih hkeys.2 hrest).cons entry).trans (List.Perm.swap _ _ _)

theorem insert_of_free (hfree : has table key = false) :
    insert table key value = table ++ [(key, value)] := by
  simp [insert, hfree]

/-! ## Sizes after an operation -/

theorem length_erase_lt (hmem : (key, value) ∈ table) : (erase table key).length < table.length :=
  List.length_filter_lt_length_iff_exists.mpr ⟨(key, value), hmem, by simp⟩

theorem length_insert_le (table : Table κ α) (key : κ) (value : α) :
    (insert table key value).length ≤ table.length + 1 := by
  unfold insert
  split
  · simp [modify]
  · simp

/-! ## Keys after an operation -/

theorem modify_eq_self (hfree : has table key = false) (change : α → α) :
    modify table key change = table := by
  refine (List.map_congr_left fun entry hmem => if_neg fun hkey => ?_).trans (List.map_id table)
  exact has_eq_false_iff.mp hfree entry.2 (hkey ▸ hmem)

theorem keys_modify (change : α → α) : keys (modify table key change) = keys table := by
  simp only [keys, modify, List.map_map]
  apply List.map_congr_left
  intro entry _
  simp only [Function.comp]
  split <;> rfl

theorem nodup_keys_modify (change : α → α) (hkeys : (keys table).Nodup) :
    (keys (modify table key change)).Nodup := by
  rwa [keys_modify]

theorem mem_keys_insert :
    other ∈ keys (insert table key value) ↔ other = key ∨ other ∈ keys table := by
  by_cases hhas : has table key = true
  · rw [insert, if_pos hhas, keys_modify]
    have hmem := has_iff_mem_keys.mp hhas
    exact ⟨Or.inr, fun h => h.elim (fun heq => heq ▸ hmem) id⟩
  · rw [insert, if_neg hhas]
    simp [keys, or_comm]

theorem nodup_keys_insert (hkeys : (keys table).Nodup) :
    (keys (insert table key value)).Nodup := by
  unfold insert
  split
  · exact nodup_keys_modify _ hkeys
  · rename_i hhas
    rw [has_iff_mem_keys] at hhas
    rw [keys, List.map_append, List.nodup_append]
    refine ⟨hkeys, by simp, ?_⟩
    intro first hfirst second hsecond heq
    simp only [List.map_cons, List.map_nil, List.mem_singleton] at hsecond
    exact hhas (hsecond ▸ heq ▸ hfirst)

/-! ## What is found after an operation -/

theorem find?_erase (table : Table κ α) (key other : κ) :
    find? (erase table other) key = if key = other then none else find? table key := by
  induction table with
  | nil => simp [erase, find?]
  | cons entry rest ih =>
      obtain ⟨first, known⟩ := entry
      unfold erase at ih ⊢
      by_cases hfirst : first = other
      · rw [List.filter_cons_of_neg (by simp [hfirst]), ih]
        by_cases hkey : key = other
        · simp [hkey]
        · have hne : first ≠ key := fun h => hkey (h ▸ hfirst)
          simp [find?, hkey, hne]
      · rw [List.filter_cons_of_pos (by simp [hfirst])]
        by_cases hkey : first = key
        · simp [find?, hkey, hkey ▸ hfirst]
        · rw [find?, if_neg hkey, ih, find?, if_neg hkey]

theorem find?_modify (table : Table κ α) (key other : κ) (change : α → α) :
    find? (modify table other change) key =
      if key = other then (find? table key).map change else find? table key := by
  induction table with
  | nil => simp [modify, find?]
  | cons entry rest ih =>
      obtain ⟨first, known⟩ := entry
      simp only [modify, List.map_cons] at ih ⊢
      by_cases hfirst : first = other
      · by_cases hkey : first = key
        · simp [find?, ← hfirst, hkey]
        · simp [find?, hfirst, hfirst ▸ hkey, ih]
      · by_cases hkey : first = key
        · simp [find?, hkey, hkey ▸ hfirst]
        · simp [find?, hfirst, hkey, ih]

theorem find?_append_single (table : Table κ α) (key other : κ) (value : α) :
    find? (table ++ [(other, value)]) key =
      (find? table key).or (if key = other then some value else none) := by
  induction table with
  | nil => simp [find?, eq_comm]
  | cons entry rest ih =>
      obtain ⟨first, known⟩ := entry
      by_cases hkey : first = key
      · simp [find?, hkey]
      · simp [find?, hkey, ih]

theorem find?_insert (table : Table κ α) (key other : κ) (value : α) :
    find? (insert table other value) key = if key = other then some value else find? table key := by
  unfold insert
  by_cases hhas : has table other = true
  · rw [if_pos hhas, find?_modify]
    by_cases hkey : key = other
    · obtain ⟨old, hold⟩ := Option.isSome_iff_exists.mp hhas
      simp [hkey, hold]
    · simp [hkey]
  · have hnone : find? table other = none := by simpa [has] using hhas
    rw [if_neg hhas, find?_append_single]
    by_cases hkey : key = other
    · simp [hkey, hnone]
    · simp [hkey]

end Table

end Peering
