import Peering.Json.Skip
import Peering.Settings.Field

/-!
# Settings documents

A settings document is a JSON object. Fields that it does not have keep their
defaults, fields of other names are passed over, and a field given twice is
refused. A JSON list of the values in the order of the fields does as well, and
may leave out values at its end.
-/

namespace Peering

namespace Settings

/-! ## Writing -/

/-- One field of an object. -/
def writeField (layout : Layout) (settings : Settings) (field : Field) : List Char :=
  Json.Quoted.write field.name ++ ':' ::
    (if layout = .lines then [' '] else []) ++ field.codec.write layout (field.get settings)

/-- All fields, in the order of the table. -/
def write (layout : Layout) (settings : Settings) : List Char :=
  Codec.enclose layout 0 '{' '}' (fields.map (writeField layout settings))

def text (layout : Layout) (settings : Settings) : String :=
  String.ofList (settings.write layout)

/-! ## Reading objects -/

/-- The settings read so far, and the names of the fields that gave them. -/
structure Draft where
  settings : Settings
  given : List String

def fieldNamed? (name : String) : Option Field :=
  fields.find? (·.name == name)

/-- Where the next member of an object stands, or what follows the object. -/
inductive Member where
  | member (chars : List Char)
  | close (rest : List Char)

/-- Looks for the next member, which starts with a quote; all but the first stand after a comma. -/
def nextMember (isFirst : Bool) (chars : List Char) : Except Json.Fault Member :=
  match Json.skipSpaces chars with
  | [] => .error .ended
  | '}' :: rest => .ok (.close rest)
  | '"' :: rest => if isFirst then .ok (.member ('"' :: rest)) else .error .malformed
  | ',' :: rest =>
      if isFirst then .error .malformed
      else match Json.skipSpaces rest with
        | [] => .error .ended
        | '"' :: rest => .ok (.member ('"' :: rest))
        | _ => .error .malformed
  | _ => .error .malformed

/-- Reads the value of a field that has not been given before. -/
def readField (draft : Draft) (field : Field) (chars : List Char) :
    Except Json.Fault (Draft × List Char) := do
  if draft.given.contains field.name then
    throw .mismatched
  else
    let (value, rest) ← field.codec.read (← Json.expectMark ':' chars)
    return (⟨field.set value draft.settings, field.name :: draft.given⟩, rest)

/-- Reads a name and the value that belongs to it. -/
def readMember (draft : Draft) (chars : List Char) : Except Json.Fault (Draft × List Char) := do
  let (name, rest) ← Json.readText chars
  match fieldNamed? name with
  | some field => readField draft field rest
  | none => return (draft, ← Json.skipValue (← Json.expectMark ':' rest))

theorem length_nextMember_le {isFirst : Bool} {chars others : List Char}
    (h : nextMember isFirst chars = .ok (.member others)) : others.length ≤ chars.length := by
  have hspaces := Json.length_skipSpaces_le chars
  unfold nextMember at h
  split at h
  · cases h
  · cases h
  · next heq =>
      rw [heq] at hspaces
      split at h
      · cases h
        exact hspaces
      · cases h
  · next rest heq =>
      have hrest := Json.length_skipSpaces_le rest
      rw [heq] at hspaces
      split at h
      · cases h
      · split at h
        · cases h
        · next hquote =>
            cases h
            rw [hquote] at hrest
            exact Nat.le_of_lt (Nat.lt_of_le_of_lt hrest hspaces)
        · cases h
  · cases h

theorem length_readField_lt {draft found : Draft} {field : Field} {chars rest : List Char}
    (h : readField draft field chars = .ok (found, rest)) : rest.length < chars.length := by
  unfold readField at h
  split at h
  · cases h
  · obtain ⟨afterColon, hcolon, h⟩ := Json.bind_eq_ok h
    obtain ⟨⟨value, afterValue⟩, hvalue, h⟩ := Json.bind_eq_ok h
    cases h
    have := Json.length_expectMark_lt hcolon
    have := field.codec.length_read_lt _ _ _ hvalue
    omega

theorem length_readMember_lt {draft found : Draft} {chars rest : List Char}
    (h : readMember draft chars = .ok (found, rest)) : rest.length < chars.length := by
  obtain ⟨⟨name, afterName⟩, hname, h⟩ := Json.bind_eq_ok h
  have := Json.length_readText_lt hname
  dsimp only at h
  split at h
  · have := length_readField_lt h
    omega
  · obtain ⟨afterColon, hcolon, h⟩ := Json.bind_eq_ok h
    obtain ⟨afterValue, hvalue, h⟩ := Json.bind_eq_ok h
    cases h
    have := Json.length_expectMark_lt hcolon
    have := Json.length_skipValue_lt hvalue
    omega

/-- The members of an object up to its closing bracket. -/
def readMembers (isFirst : Bool) (draft : Draft) (chars : List Char) :
    Except Json.Fault (Settings × List Char) :=
  match _ : nextMember isFirst chars with
  | .error fault => .error fault
  | .ok (.close rest) => .ok (draft.settings, rest)
  | .ok (.member others) =>
      match _ : readMember draft others with
      | .error fault => .error fault
      | .ok (draft, rest) => readMembers false draft rest
termination_by chars.length
decreasing_by
  exact Nat.lt_of_lt_of_le (length_readMember_lt (by assumption))
    (length_nextMember_le (by assumption))

/-! ## Reading lists -/

/-- The values of the remaining fields, as far as the list goes. -/
def readElements (isFirst : Bool) (settings : Settings) :
    List Field → List Char → Except Json.Fault (Settings × List Char)
  | [], chars => do return (settings, ← Json.expectMark ']' chars)
  | field :: others, chars => do
      match ← Json.nextElement isFirst chars with
      | .close rest => return (settings, rest)
      | .element chars =>
          let (value, rest) ← field.codec.read chars
          readElements false (field.set value settings) others rest

/-! ## Reading documents -/

/-- The settings that a document gives, whether a node can run with them or not. -/
def readDocument (chars : List Char) : Except Json.Fault Settings := do
  let (settings, rest) ← match Json.skipSpaces chars with
    | '{' :: rest => readMembers true ⟨default, []⟩ rest
    | '[' :: rest => readElements true default fields rest
    | others => throw (Json.mismatch others)
  Json.expectEnd rest
  return settings

/-- The settings that a document gives, if a node can run with them. -/
def parse (document : String) : Except SettingsError Settings := do
  let settings ← (readDocument document.toList).mapError .unreadable
  settings.validate
  return settings

end Settings

end Peering
