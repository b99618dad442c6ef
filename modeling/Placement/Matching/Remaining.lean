/-
What remains of an offer once parts of its resources have been used. A part is taken from the
resources of its kind: those with its name, role, reservation and disk information.
-/
import Placement.Offer

namespace Placement

variable {α : Type} [Amount α]

namespace Resource

/-- Takes an amount from the scalar resources of a kind, in order. -/
def subtractAmount (kind : Resource α) (missing : α) : List (Resource α) → List (Resource α)
  | [] => []
  | r :: rest =>
    if missing ≤ Amount.tolerance then r :: rest
    else
      match sameKind r kind, r.value with
      | true, .scalar amount =>
        let take := Amount.least amount missing
        r.withValue (.scalar (amount - take)) :: subtractAmount kind (missing - take) rest
      | _, _ => r :: subtractAmount kind missing rest

/-- Takes ports from all resources of a kind. -/
def subtractPorts (kind : Resource α) (used : List PortRange) (rs : List (Resource α)) :
    List (Resource α) :=
  rs.map fun r =>
    match sameKind r kind, r.value with
    | true, .ranges ranges =>
      r.withValue (.ranges (PortRange.ofPorts
        ((PortRange.allPorts ranges).filter fun p => !PortRange.anyContains used p)))
    | _, _ => r

/-- Takes one used part from a list of resources. -/
def subtract (rs : List (Resource α)) (used : Resource α) : List (Resource α) :=
  match used.value with
  | .scalar amount => subtractAmount used amount rs
  | .ranges ranges => subtractPorts used ranges rs

/-- Something is left: more than the tolerance, or a port. -/
def isLeft (r : Resource α) : Bool :=
  match r.value with
  | .scalar amount => Amount.tolerance < amount
  | .ranges ranges => !ranges.isEmpty

end Resource

/-- The offer without the parts that have been used. -/
def Offer.without (o : Offer α) (used : List (Resource α)) : Offer α :=
  { o with resources := (used.foldl Resource.subtract o.resources).filter Resource.isLeft }

end Placement
