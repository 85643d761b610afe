import Peering.Registry.Moves

/-!
# Violation counts

A peer that breaks the protocol too often is banned. Counts are kept for a
bounded number of peers; when room is needed, the peer whose last violation is
the longest ago is forgotten.
-/

namespace Peering

structure Violations where
  /-- Most violations that do not lead to a ban. -/
  tolerance : Nat
  /-- Most peers remembered. -/
  capacity : Nat
  /-- Counts, the latest violation first. -/
  recent : List (IdHash × Nat)

namespace Violations

/-- No counts yet. At least one peer can be remembered. -/
def create (tolerance capacity : Nat) : Violations where
  tolerance := tolerance
  capacity := max capacity 1
  recent := []

def count (violations : Violations) (peer : IdHash) : Nat :=
  ((violations.recent.find? (·.1 == peer)).map (·.2)).getD 0

def size (violations : Violations) : Nat :=
  violations.recent.length

/-- The counts of the other peers, with room for this one. -/
def others (violations : Violations) (peer : IdHash) : List (IdHash × Nat) :=
  (violations.recent.filter (·.1 ≠ peer)).take (violations.capacity - 1)

/-- Counts one violation; tells whether the tolerance is crossed, which also clears the count. -/
def record (violations : Violations) (peer : IdHash) : Violations × Bool :=
  let count := violations.count peer + 1
  let others := violations.others peer
  if violations.tolerance < count then
    ({ violations with recent := others }, true)
  else
    ({ violations with recent := (peer, count) :: others }, false)

/--
Counts one violation, and bans and drops the peer when the tolerance is crossed.
The three parts are atomic each, the whole is not.
-/
def check (violations : Violations) (registry : Registry) (now : Nat) (peer : IdHash) :
    Violations × Registry × Bool :=
  let (violations, crossed) := violations.record peer
  if crossed then
    (violations, ((registry.ban now peer).dropActive peer).1, true)
  else
    (violations, registry, false)

end Violations

end Peering
