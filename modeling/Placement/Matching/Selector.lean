/-
Selectors: which resources of an offer may be used, by role and by reservation.
-/
import Placement.Resource
import Placement.RunSpec

namespace Placement

/-- Which reservations a resource may have. -/
inductive ReservationFilter where
  /-- None. -/
  | unreserved
  /-- One with at least these labels. -/
  | reservedWith (labels : Labels)
  /-- None, or one with at least these labels, which are then used first. -/
  | preferReserved (labels : Labels)
  deriving DecidableEq, Repr

structure Selector where
  roles : Roles
  reservation : ReservationFilter
  deriving DecidableEq, Repr

/-- Every label of `wanted` is in `have_` with the same text. -/
def Labels.includes (have_ wanted : Labels) : Bool :=
  wanted.entries.all fun e => have_.find? e.1 == some e.2

namespace Selector

variable {α : Type}

/-- The resource is reserved with at least the given labels. -/
def labelled (labels : Labels) (r : Resource α) : Bool :=
  match r.reservationLabels with
  | some have_ => Labels.includes have_ labels
  | none => false

/-- The selector admits a resource. -/
def accepts (s : Selector) (r : Resource α) : Bool :=
  s.roles.contains r.role &&
    match s.reservation with
    | .unreserved => !r.isReserved
    | .reservedWith labels => labelled labels r
    | .preferReserved labels => !r.isReserved || labelled labels r

end Selector

end Placement
