import Peering.Settings.Document
import Peering.Proofs.Json.Skip
import Peering.Proofs.Settings.Fields

/-!
# Saved settings are loaded again

A document may have been edited since it was saved: members were taken out, brought into
another order, and members of other names were put between them. Each member that is left
sets its field to what was saved, the others change nothing, and what is missing has its
default. Main statement: `parse_edited`.
-/

namespace Peering

namespace Settings

variable {s : Settings} {draft : Draft} {field : Field} {chars rest : List Char}

/-! ## Edited documents -/

/-- A member of an edited document. -/
inductive Entry where
  /-- A field as it was saved. -/
  | kept (field : Field)
  /-- A member that nobody asks for. -/
  | foreign (name : String) (value : Json.Tree)

namespace Entry

def write (s : Settings) : Entry → List Char
  | .kept field => writeField .compact s field
  | .foreign name value => Json.Quoted.write name ++ ':' :: value.write

def field? : Entry → Option Field
  | .kept field => some field
  | .foreign _ _ => none

theorem write_eq_cons (s : Settings) (entry : Entry) : ∃ later, entry.write s = '"' :: later := by
  cases entry with
  | kept field => exact ⟨_, rfl⟩
  | foreign name value => exact ⟨_, rfl⟩

end Entry

/-- The document that consists of these members. -/
def edited (s : Settings) (entries : List Entry) : String :=
  String.ofList (Codec.enclose .compact 0 '{' '}' (entries.map (Entry.write s)))

/-- The fields that are left in a document. -/
def keptFields (entries : List Entry) : List Field :=
  entries.filterMap Entry.field?

/-- What may be left of a saved document: fields of it in any order, with foreign names between. -/
structure IsEdit (entries : List Entry) : Prop where
  kept : (keptFields entries).Subperm fields
  foreign : ∀ name value, Entry.foreign name value ∈ entries → ∀ field ∈ fields, field.name ≠ name

theorem text_eq_edited (s : Settings) : s.text .compact = edited s (fields.map .kept) := by
  rw [text, Settings.write, edited, List.map_map]
  rfl

theorem keptFields_map (kept : List Field) : keptFields (kept.map .kept) = kept := by
  rw [keptFields, List.filterMap_map]
  exact List.filterMap_some

theorem isEdit_fields : IsEdit (fields.map .kept) where
  kept := by
    rw [keptFields_map]
  foreign := by
    intro name value hmem
    obtain ⟨_, _, heq⟩ := List.mem_map.mp hmem
    cases heq

/-! ## Members -/

theorem fieldNamed?_name (hfield : field ∈ fields) : fieldNamed? field.name = some field := by
  cases hfound : fieldNamed? field.name with
  | none =>
      have hother := List.find?_eq_none.mp hfound field hfield
      simp at hother
  | some found =>
      have hname : found.name = field.name := by simpa using List.find?_some hfound
      rw [List.inj_on_of_nodup_map names_nodup (List.mem_of_find?_eq_some hfound) hfield hname]

theorem fieldNamed?_eq_none {name : String} (hname : ∀ field ∈ fields, field.name ≠ name) :
    fieldNamed? name = none :=
  List.find?_eq_none.mpr fun field hfield => by simpa using hname field hfield

theorem readMember_kept (hfield : field ∈ fields) (hfresh : field.name ∉ draft.given)
    (hends : Json.EndsValue rest) :
    readMember draft ((Entry.kept field).write s ++ rest) =
      .ok (⟨field.set (field.get s) draft.settings, field.name :: draft.given⟩, rest) := by
  have hchars : (Entry.kept field).write s ++ rest = Json.Quoted.write field.name ++
      (':' :: (field.codec.write .compact (field.get s) ++ rest)) := by
    simp [Entry.write, writeField]
  have hcolon : Json.expectMark ':' (':' :: (field.codec.write .compact (field.get s) ++ rest)) =
      .ok (field.codec.write .compact (field.get s) ++ rest) :=
    Json.expectMark_self (by decide)
  rw [hchars, readMember, Json.readText_write]
  simp only [bind, Except.bind, fieldNamed?_name hfield]
  rw [readField, if_neg (by simpa using hfresh), hcolon]
  show (field.codec.read _ >>= _) = _
  rw [fields_readBack field hfield _ rest hends]
  rfl

theorem readMember_foreign {name : String} (value : Json.Tree)
    (hname : ∀ field ∈ fields, field.name ≠ name) (hends : Json.EndsValue rest) :
    readMember draft ((Entry.foreign name value).write s ++ rest) = .ok (draft, rest) := by
  have hchars : (Entry.foreign name value).write s ++ rest =
      Json.Quoted.write name ++ (':' :: (value.write ++ rest)) := by
    simp [Entry.write]
  have hcolon : Json.expectMark ':' (':' :: (value.write ++ rest)) = .ok (value.write ++ rest) :=
    Json.expectMark_self (by decide)
  rw [hchars, readMember, Json.readText_write]
  simp only [bind, Except.bind, fieldNamed?_eq_none hname, hcolon, Json.skipValue_write value hends]
  rfl

/-! ## Objects -/

theorem readMembers_of_close {isFirst : Bool}
    (hnext : nextMember isFirst chars = .ok (.close rest)) :
    readMembers isFirst draft chars = .ok (draft.settings, rest) := by
  rw [readMembers]
  split <;> simp_all

theorem readMembers_of_member {isFirst : Bool} {others : List Char} {found : Draft}
    (hnext : nextMember isFirst chars = .ok (.member others))
    (hmember : readMember draft others = .ok (found, rest)) :
    readMembers isFirst draft chars = readMembers false found rest := by
  rw [readMembers]
  split
  · simp_all
  · simp_all
  · rename_i left hleft
    obtain rfl : left = others := by simp_all
    split <;> simp_all

theorem nextMember_entry (isFirst : Bool) (s : Settings) (entry : Entry)
    (later : List (List Char)) (rest : List Char) :
    nextMember isFirst (Json.ahead isFirst (entry.write s :: later) ++ rest) =
      .ok (.member (entry.write s ++ (Json.ahead false later ++ rest))) := by
  obtain ⟨chars, heq⟩ := entry.write_eq_cons s
  rw [heq]
  cases isFirst with
  | true => rw [Json.ahead, List.append_assoc]; rfl
  | false => rw [Json.ahead, List.cons_append, List.append_assoc]; rfl

/-- Each field that is left is set to what was saved, and nothing else is. -/
theorem readMembers_written (entries : List Entry) (isFirst : Bool) (draft : Draft)
    (hkept : ∀ field ∈ keptFields entries, field ∈ fields)
    (hnames : ((keptFields entries).map (·.name)).Nodup)
    (hfresh : ∀ field ∈ keptFields entries, field.name ∉ draft.given)
    (hforeign : ∀ name value, Entry.foreign name value ∈ entries →
      ∀ field ∈ fields, field.name ≠ name) (rest : List Char) :
    readMembers isFirst draft (Json.ahead isFirst (entries.map (Entry.write s)) ++ '}' :: rest) =
      .ok (copy s (keptFields entries) draft.settings, rest) := by
  induction entries generalizing isFirst draft with
  | nil =>
      refine readMembers_of_close ?_
      rw [List.map_nil, Json.ahead]
      rfl
  | cons entry later ih =>
      have hends : Json.EndsValue (Json.ahead false (later.map (Entry.write s)) ++ '}' :: rest) :=
        Json.endsValue_ahead _ (Json.endsValue_cons (Or.inr (Or.inr rfl)))
      have hlater : ∀ name value, Entry.foreign name value ∈ later →
          ∀ field ∈ fields, field.name ≠ name :=
        fun name value hmem => hforeign name value (List.mem_cons_of_mem _ hmem)
      rw [List.map_cons]
      cases entry with
      | foreign name value =>
          have hname := hforeign name value List.mem_cons_self
          rw [readMembers_of_member (nextMember_entry isFirst s _ _ _)
            (readMember_foreign value hname hends)]
          exact ih false draft hkept hnames hfresh hlater
      | kept field =>
          have hcons : keptFields (.kept field :: later) = field :: keptFields later := rfl
          rw [hcons] at hkept hnames hfresh ⊢
          obtain ⟨hfield, hkept⟩ := List.forall_mem_cons.mp hkept
          obtain ⟨hnew, hfresh⟩ := List.forall_mem_cons.mp hfresh
          rw [List.map_cons, List.nodup_cons] at hnames
          rw [readMembers_of_member (nextMember_entry isFirst s _ _ _)
            (readMember_kept hfield hnew hends)]
          refine ih false _ hkept hnames.2 (fun other hother hmem => ?_) hlater
          rcases List.mem_cons.mp hmem with hsame | hgiven
          · exact hnames.1 (List.mem_map.mpr ⟨other, hother, hsame⟩)
          · exact hfresh other hother hgiven

theorem parse_eq_ok {document : String} (hread : readDocument document.toList = .ok s)
    (hvalid : s.validate = .ok ()) : parse document = .ok s := by
  rw [parse, hread]
  show (s.validate >>= _) = _
  rw [hvalid]
  rfl

/-- An edited document gives the saved values where they are left, and the defaults elsewhere. -/
theorem parse_edited_eq (hvalid : s.validate = .ok ()) {entries : List Entry}
    (hedit : IsEdit entries) :
    parse (edited s entries) = .ok (copy s (keptFields entries) default) := by
  have hkept : ∀ field ∈ keptFields entries, field ∈ fields :=
    fun _ hmem => hedit.kept.subset hmem
  have hnames : ((keptFields entries).map (·.name)).Nodup := by
    obtain ⟨kept, hperm, hsub⟩ := hedit.kept
    exact (hperm.map _).nodup_iff.mp ((hsub.map _).nodup names_nodup)
  refine parse_eq_ok ?_ (validate_copy hkept hvalid validate_default)
  have hread := readMembers_written (s := s) entries true ⟨default, []⟩ hkept hnames
    (fun _ _ => List.not_mem_nil) hedit.foreign []
  rw [edited, String.toList_ofList, Codec.enclose_compact, readDocument,
    Json.skipSpaces_cons (by decide)]
  show (readMembers true _ _ >>= _) = _
  rw [hread]
  rfl

/--
Settings that a node can run with are what their saved text says. Whatever members are
taken out of it, in whatever order the others stand, and whatever members of other names
are put in: the text still says settings that a node can run with. The fields that are
left are as saved, and the others have their defaults.
-/
theorem parse_edited (s : Settings) (hvalid : s.validate = .ok ()) :
    parse (s.text .compact) = .ok s ∧
    s.text .compact = edited s (fields.map .kept) ∧
    ∀ entries, IsEdit entries → ∃ loaded, parse (edited s entries) = .ok loaded ∧
      (∀ field ∈ keptFields entries, field.get loaded = field.get s) ∧
      ∀ field ∈ fields, field ∉ keptFields entries → field.get loaded = field.get default := by
  refine ⟨?_, text_eq_edited s, fun entries hedit => ?_⟩
  · have hall := parse_edited_eq hvalid isEdit_fields
    rwa [keptFields_map, copy_fields, ← text_eq_edited] at hall
  · have hkept : ∀ field ∈ keptFields entries, field ∈ fields :=
      fun _ hmem => hedit.kept.subset hmem
    exact ⟨_, parse_edited_eq hvalid hedit, fun _ hmem => get_copy_of_mem hkept hmem s default,
      fun _ hfield hnot => get_copy_of_notMem hkept hfield hnot s default⟩

/-- Settings whose texts need escapes, with an IPv4 address in disguise and a greatest integer. -/
def unusual : Settings :=
  { default with
    nodeId := String.ofList (List.replicate 18 'é')
    ip := .v6 0xffff0a000001
    bootNodes := ["", "\"\\\x01\n"]
    banDurationMs := 0xffffffffffffffff }

/-- All but the first three fields, the last one first, between members of one foreign name. -/
def turned : List Entry :=
  .foreign "note" (.object [("a", .list [.null, .number ⟨true, 1, [5], some (-7)⟩])]) ::
    ((fields.drop 3).reverse.map .kept ++ [.foreign "note" (.text "\x1f")])

theorem parse_edited_turned :
    unusual.validate = .ok () ∧ IsEdit turned ∧ parse (unusual.text .compact) = .ok unusual ∧
      ∃ loaded, parse (edited unusual turned) = .ok loaded ∧
        loaded.bootNodes = unusual.bootNodes ∧ loaded.banDurationMs = 0xffffffffffffffff ∧
        loaded.nodeId = "" ∧ loaded.ip = .v4 0 := by
  have hvalid : unusual.validate = .ok () := by decide +kernel
  have hkept : keptFields turned = (fields.drop 3).reverse := rfl
  have hedit : IsEdit turned := by
    refine ⟨?_, ?_⟩
    · rw [hkept]
      exact ⟨_, (List.reverse_perm _).symm, List.drop_sublist _ _⟩
    · have hnames : ∀ field ∈ fields, field.name ≠ "note" := by decide +kernel
      intro name value hmem
      have hname : name = "note" := by
        simp only [turned, List.mem_cons, List.mem_append, List.mem_map, reduceCtorEq, and_false,
          exists_false, Entry.foreign.injEq, List.not_mem_nil, false_or, or_false] at hmem
        exact hmem.elim And.left And.left
      exact hname ▸ hnames
  obtain ⟨hsaved, _, hedited⟩ := parse_edited unusual hvalid
  obtain ⟨loaded, hload, hleft, hmissing⟩ := hedited turned hedit
  rw [hkept] at hleft hmissing
  have hsame : ∀ i (hi : i < (fields.drop 3).length),
      (fields.drop 3)[i].get loaded = (fields.drop 3)[i].get unusual :=
    fun i hi => hleft _ (List.mem_reverse.mpr (List.getElem_mem hi))
  have hdefault : ∀ field ∈ fields, field.name ∉ (fields.drop 3).reverse.map (·.name) →
      field.get loaded = field.get default :=
    fun field hfield hname => hmissing field hfield fun hmem => hname (List.mem_map_of_mem hmem)
  exact ⟨hvalid, hedit, hsaved, loaded, hload, hsame 1 (by decide), hsame 23 (by decide),
    hdefault fields[1] (List.getElem_mem _) (by decide +kernel),
    hdefault fields[2] (List.getElem_mem _) (by decide +kernel)⟩

end Settings

end Peering
