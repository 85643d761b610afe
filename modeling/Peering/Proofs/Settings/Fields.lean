import Mathlib.Data.List.Pairwise
import Peering.Proofs.Settings.Codec

/-!
# The fields of the settings

The fields are independent: each has a name of its own, and setting one of them changes
what that one gives and nothing else. Together they are all of the settings.
-/

namespace Peering

namespace Settings

variable {s t : Settings} {field other : Field}

theorem names_nodup : (fields.map (·.name)).Nodup := by
  decide +kernel

theorem get_set : ∀ field ∈ fields, ∀ value s, field.get (field.set value s) = value := by
  simp [fields]

/-- Setting a field leaves the other one as it is. -/
def Apart (field other : Field) : Prop :=
  (∀ value s, other.get (field.set value s) = other.get s) ∧
    ∀ value s, field.get (other.set value s) = field.get s

theorem fields_apart : fields.Pairwise Apart := by
  unfold fields
  repeat' first
    | exact ⟨fun _ _ => rfl, fun _ _ => rfl⟩
    | exact List.forall_mem_nil _
    | refine List.forall_mem_cons.mpr ⟨?_, ?_⟩
    | exact List.Pairwise.nil
    | refine List.Pairwise.cons ?_ ?_

theorem ext_fields (hsame : ∀ field ∈ fields, field.get s = field.get t) : s = t := by
  cases s
  cases t
  simpa [fields] using hsame

/-! ## Values that a node can run with -/

theorem refuseZero_eq_ok_iff (reason : String) (named : List (String × UInt64)) :
    refuseZero reason named = .ok () ↔ ∀ entry ∈ named, entry.2 ≠ 0 := by
  induction named with
  | nil => simp [refuseZero]
  | cons entry rest ih =>
      obtain ⟨name, value⟩ := entry
      by_cases hzero : value = 0
      · simp [refuseZero, hzero]
      · simp [refuseZero, hzero, ih]

theorem validate_eq_ok_iff : s.validate = .ok () ↔
    (∀ entry ∈ s.sizes, entry.2 ≠ 0) ∧ (∀ entry ∈ s.intervals, entry.2 ≠ 0) ∧
      s.maxFrameBody.toNat < UInt32.size ∧
      (s.nodeId.utf8ByteSize = 0 ∨ s.nodeId.utf8ByteSize = NodeId.byteLength) ∧
      s.revision.utf8ByteSize ≤ Payload.maxRevision := by
  rw [← refuseZero_eq_ok_iff "must be greater than zero",
    ← refuseZero_eq_ok_iff "interval must be greater than zero", validate]
  cases refuseZero "must be greater than zero" s.sizes with
  | error fault => simp [bind, Except.bind]
  | ok _ =>
      cases refuseZero "interval must be greater than zero" s.intervals with
      | error fault => simp [bind, Except.bind]
      | ok _ =>
          simp only [bind, Except.bind, true_and]
          by_cases hbody : UInt32.size ≤ s.maxFrameBody.toNat
          · simp [hbody, Nat.not_lt.mpr hbody]
          rw [if_neg hbody]
          by_cases hlength : s.nodeId.utf8ByteSize ≠ 0 ∧ s.nodeId.utf8ByteSize ≠ NodeId.byteLength
          · simp [hlength]
          rw [if_neg hlength]
          by_cases hrevision : Payload.maxRevision < s.revision.utf8ByteSize
          · simp [hrevision, Nat.not_le.mpr hrevision]
          · rw [not_and_or, not_not, not_not] at hlength
            simp only [hrevision, if_false, Nat.not_lt.mp hrevision, Nat.not_le.mp hbody, hlength,
              and_self]
            exact iff_of_true rfl trivial

/-- What holds of one value and of another one holds of a value that is one of the two. -/
theorem of_mixed {α : Type} {first second value : α} {P : α → Prop}
    (hmixed : value = first ∨ value = second) (hfirst : P first) (hsecond : P second) : P value := by
  rcases hmixed with rfl | rfl
  · exact hfirst
  · exact hsecond

/-- Settings whose fields are all taken from two that a node can run with are such settings. -/
theorem validate_of_mixed {u : Settings} (hs : s.validate = .ok ()) (ht : t.validate = .ok ())
    (hmixed : ∀ field ∈ fields, field.get u = field.get s ∨ field.get u = field.get t) :
    u.validate = .ok () := by
  rw [validate_eq_ok_iff] at hs ht ⊢
  simp only [fields, List.forall_mem_cons] at hmixed
  simp only [sizes, intervals, List.forall_mem_cons] at hs ht ⊢
  have hzero : ∀ {a b c : UInt64}, a = b ∨ a = c → b ≠ 0 → c ≠ 0 → a ≠ 0 :=
    of_mixed (P := (· ≠ 0))
  casesm* _ ∧ _
  refine ⟨?sizes, ?intervals, ?body, ?length, ?revision⟩
  case sizes =>
    refine ⟨?_, ?_, ?_, ?_, ?_, ?_, ?_, ?_, ?_, List.forall_mem_nil _⟩ <;>
      exact hzero (by assumption) (by assumption) (by assumption)
  case intervals =>
    refine ⟨?_, ?_, ?_, ?_, ?_, ?_, List.forall_mem_nil _⟩ <;>
      exact hzero (by assumption) (by assumption) (by assumption)
  case body =>
    exact of_mixed (P := fun body : UInt64 => body.toNat < UInt32.size) (by assumption) (by assumption)
      (by assumption)
  case length =>
    exact of_mixed (P := fun id : String => id.utf8ByteSize = 0 ∨ id.utf8ByteSize = NodeId.byteLength)
      (by assumption) (by assumption) (by assumption)
  case revision =>
    exact of_mixed (P := fun revision : String => revision.utf8ByteSize ≤ Payload.maxRevision)
      (by assumption) (by assumption) (by assumption)

theorem validate_default : Settings.default.validate = .ok () :=
  validate_eq_ok_iff.mpr (by decide +kernel)

/-! ## Some fields from other settings -/

/-- Settings after some of their fields have been set to what other settings have there. -/
def copy (source : Settings) (kept : List Field) (onto : Settings) : Settings :=
  kept.foldl (fun onto field => field.set (field.get source) onto) onto

theorem get_set_of_ne (hfield : field ∈ fields) (hother : other ∈ fields) (hne : field ≠ other)
    (value : field.Value) (s : Settings) : other.get (field.set value s) = other.get s := by
  have hsymm : Std.Symm Apart := ⟨fun _ _ hapart => ⟨hapart.2, hapart.1⟩⟩
  exact (fields_apart.forall hfield hother hne).1 value s

theorem get_copy_of_notMem {kept : List Field} (hkept : ∀ field ∈ kept, field ∈ fields)
    (hfield : field ∈ fields) (hnot : field ∉ kept) (s t : Settings) :
    field.get (copy s kept t) = field.get t := by
  induction kept generalizing t with
  | nil => rfl
  | cons first rest ih =>
      obtain ⟨hfirst, hrest⟩ := List.forall_mem_cons.mp hkept
      have hne : first ≠ field := fun heq => hnot (heq ▸ List.mem_cons_self)
      exact (ih hrest (fun hmem => hnot (List.mem_cons_of_mem _ hmem)) _).trans
        (get_set_of_ne hfirst hfield hne _ t)

theorem get_copy_of_mem {kept : List Field} (hkept : ∀ field ∈ kept, field ∈ fields)
    (hmem : field ∈ kept) (s t : Settings) : field.get (copy s kept t) = field.get s := by
  induction kept generalizing t with
  | nil => cases hmem
  | cons first rest ih =>
      obtain ⟨hfirst, hrest⟩ := List.forall_mem_cons.mp hkept
      by_cases hagain : field ∈ rest
      · exact ih hrest hagain _
      · obtain rfl : field = first := (List.mem_cons.mp hmem).resolve_right hagain
        exact (get_copy_of_notMem hrest hfirst hagain s _).trans (get_set field hfirst _ t)

/-- All fields of some settings are those settings. -/
theorem copy_fields (s t : Settings) : copy s fields t = s :=
  ext_fields fun _ hfield => get_copy_of_mem (fun _ hmem => hmem) hfield s t

theorem validate_copy {kept : List Field} (hkept : ∀ field ∈ kept, field ∈ fields)
    (hs : s.validate = .ok ()) (ht : t.validate = .ok ()) : (copy s kept t).validate = .ok () := by
  refine validate_of_mixed hs ht fun field hfield => ?_
  by_cases hmem : field ∈ kept
  · exact Or.inl (get_copy_of_mem hkept hmem s t)
  · exact Or.inr (get_copy_of_notMem hkept hfield hmem s t)

end Settings

end Peering
