/-!
# Keyed tables

A table is a list of key-value pairs in the order in which the keys came. The
operations keep at most one pair for a key.
-/

namespace Peering

abbrev Table (κ α : Type) := List (κ × α)

namespace Table

variable {κ α : Type} [DecidableEq κ]

def find? (table : Table κ α) (key : κ) : Option α :=
  match table with
  | [] => none
  | (first, value) :: rest => if first = key then some value else find? rest key

def has (table : Table κ α) (key : κ) : Bool :=
  (find? table key).isSome

/-- The table without a key. -/
def erase (table : Table κ α) (key : κ) : Table κ α :=
  table.filter fun entry => entry.1 ≠ key

/-- Changes the value of a key, if it is there. -/
def modify (table : Table κ α) (key : κ) (change : α → α) : Table κ α :=
  table.map fun entry => if entry.1 = key then (entry.1, change entry.2) else entry

/-- Sets the value of a key, in its place or at the end. -/
def insert (table : Table κ α) (key : κ) (value : α) : Table κ α :=
  if has table key then modify table key fun _ => value else table ++ [(key, value)]

/-- The pairs whose value passes a test. -/
def select (table : Table κ α) (test : α → Bool) : Table κ α :=
  List.filter (fun entry => test entry.2) table

/-- The first key whose value passes a test. -/
def keyWhere? (table : Table κ α) (test : α → Bool) : Option κ :=
  match table with
  | [] => none
  | (first, value) :: rest => if test value then some first else keyWhere? rest test

def keys (table : Table κ α) : List κ :=
  table.map (·.1)

def values (table : Table κ α) : List α :=
  table.map (·.2)

end Table

end Peering
