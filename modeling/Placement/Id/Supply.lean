/-
Where new identifiers come from. A supply lists the identifiers it will give, and counts how many it
has given; instances, agents and offers share one list.
-/
import Placement.Id.Generated
import Placement.Id.Uuid
import Placement.Timestamp

namespace Placement

structure IdSupply where
  /-- The `n`-th generated identifier, from 1. -/
  ulidAt : Nat → Ulid
  /-- The `n`-th UUID, from 1. -/
  uuidAt : Nat → Uuid
  ulidsGiven : Nat
  uuidsGiven : Nat

namespace IdSupply

/-- The next generated identifier. -/
def nextUlid (s : IdSupply) : Ulid × IdSupply :=
  (s.ulidAt (s.ulidsGiven + 1), { s with ulidsGiven := s.ulidsGiven + 1 })

def nextUuid (s : IdSupply) : Uuid × IdSupply :=
  (s.uuidAt (s.uuidsGiven + 1), { s with uuidsGiven := s.uuidsGiven + 1 })

def nextId {kind : IdKind} (s : IdSupply) : GeneratedId kind × IdSupply :=
  let (u, s) := s.nextUlid
  (⟨u⟩, s)

/-! ## Numbered supplies -/

/-- 48 bits of milliseconds since 1970, 16 zero bits, and 64 bits of a number. -/
def numberedUlid (now : Timestamp) (n : Nat) : Ulid :=
  .ofNat (now.millisSince1970 % 0x1000000000000 * 0x100000000000000000000
    + n % 0x10000000000000000)

/-- A random-style UUID whose last 48 bits are a number. -/
def numberedUuid (n : Nat) : Uuid := .ofNat (0x40008000 * 0x1000000000000 + n % 0x1000000000000)

/-- A supply of numbered identifiers that has given none. -/
def numbered (now : Timestamp) : IdSupply := ⟨numberedUlid now, numberedUuid, 0, 0⟩

/-- The supply at another time: it counts on. -/
def atTime (s : IdSupply) (now : Timestamp) : IdSupply := { s with ulidAt := numberedUlid now }

end IdSupply

end Placement
