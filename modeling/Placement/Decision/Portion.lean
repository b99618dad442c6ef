/-
Portions: the parts of a match, handed out to the executor and the containers of a task group one
after another. What one has taken is not there for the next.
-/
import Placement.RunSpec

namespace Placement.Portion

variable {α : Type} [Amount α]

/-- Takes up to `missing` of a scalar resource: what was taken, and the parts after that. Pieces
within the tolerance of zero are left. -/
def takeScalar (name : ResourceName) (missing : α) :
    List (Resource α) → List (Resource α) × List (Resource α)
  | [] => ([], [])
  | r :: rest =>
    if missing ≤ Amount.tolerance then ([], r :: rest)
    else
      match r.name == name, r.value with
      | true, .scalar amount =>
        let take := Amount.least amount missing
        if take ≤ Amount.tolerance then
          let (taken, rest') := takeScalar name missing rest
          (taken, r :: rest')
        else
          let (taken, rest') := takeScalar name (missing - take) rest
          (r.withValue (.scalar take) :: taken, r.withValue (.scalar (amount - take)) :: rest')
      | _, _ =>
        let (taken, rest') := takeScalar name missing rest
        (taken, r :: rest')

/-- Takes several scalar resources one after another. -/
def takeScalars (required : Requirements α) :
    List ResourceName → List (Resource α) → List (Resource α) × List (Resource α)
  | [], parts => ([], parts)
  | name :: rest, parts =>
    let (taken, parts) := takeScalar name (required.of name) parts
    let (more, parts) := takeScalars required rest parts
    (taken ++ more, parts)

/-- Takes all scalars of a requirement. -/
def take (required : Requirements α) (parts : List (Resource α)) :
    List (Resource α) × List (Resource α) :=
  takeScalars required [.cpus, .mem, .disk, .gpus] parts

/-- The bound ports, each as a resource of the first part that holds it. -/
def ports (hostPorts : List (Option Port)) (parts : List (Resource α)) : List (Resource α) :=
  (hostPorts.filterMap id).filterMap fun p =>
    (parts.find? fun r => PortRange.anyContains r.portRanges p).map fun r =>
      r.withValue (.ranges [.single p])

end Placement.Portion
