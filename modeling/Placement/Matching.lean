/-
Matches: whether an offer has what an instance of a run spec needs, and which parts of its resources
the instance would use.

A match fails with all reasons that hold, each once: volumes first, then cpus, mem, disk and gpus,
then ports.
-/
import Placement.Matching.HostPorts
import Placement.Matching.Reason

namespace Placement

/-- Whether agents with GPUs may run workloads that need none. -/
inductive GpuPolicy where
  | restricted
  | unrestricted
  deriving DecidableEq, Repr

/-- Reads a policy in any mixture of small and capital letters; the error is the text in small. -/
def GpuPolicy.parse (s : String) : Except String GpuPolicy :=
  let lower := String.ofList (s.toList.map Char.toLower)
  if lower = "restricted" then .ok .restricted
  else if lower = "unrestricted" then .ok .unrestricted
  else .error lower

/-- The volumes that a match has to provide. -/
inductive VolumeRequest (α : Type) where
  | none
  /-- New ones, carved from unreserved disks. -/
  | create (volumes : List (PersistentVolume α))
  /-- Ones that are on the offer. -/
  | existing (ids : List VolumeId)
  deriving DecidableEq, Repr

/-- What an instance would use of an offer. -/
structure ResourceMatch (α : Type) where
  /-- All parts that are used, those for volumes included. -/
  resources : List (Resource α)
  /-- The host port that each requested port is bound to. -/
  hostPorts : List (Option Port)
  /-- The new volumes with the disk that each is carved from. -/
  newVolumes : List (PersistentVolume α × Resource α)
  deriving DecidableEq, Repr

/-- The host ports that are bound. -/
def ResourceMatch.assignedPorts {α : Type} (m : ResourceMatch α) : List Port :=
  m.hostPorts.filterMap id

namespace Matching

variable {α : Type} [Amount α]

/-- The scalar resources, in the order in which they are matched. -/
def scalarNames : List ResourceName := [.cpus, .mem, .disk, .gpus]

/-- Volumes taken from a pool: existing disks, new volumes, reasons that this failed, and the pool. -/
structure VolumesTaken (α : Type) where
  existing : List (Resource α)
  created : List (PersistentVolume α × Resource α)
  reasons : List MismatchReason
  pool : Pool α

/-- Takes the volumes of a request. -/
def takeVolumes (s : Selector) (p : Pool α) : VolumeRequest α → VolumesTaken α
  | .none => ⟨[], [], [], p⟩
  | .create volumes =>
    let (created, all, p) := p.takeVolumes s volumes
    ⟨[], created, if all then [] else [.insufficientDisk], p⟩
  | .existing ids =>
    match p.takeExisting? ids with
    | some (rs, p) => ⟨rs, [], [], p⟩
    | none => ⟨[], [], [.noCorrespondingReservationFound], p⟩

/-- Adds a reason that is not yet among the reasons. -/
def addReason (reasons : List MismatchReason) (r : MismatchReason) : List MismatchReason :=
  if reasons.contains r then reasons else reasons ++ [r]

/-- Takes scalar amounts, skipping those within the tolerance of zero: the parts taken, the reasons
so far, and the pool. -/
def takeScalars (s : Selector) (required : Requirements α) (reasons : List MismatchReason) :
    List ResourceName → Pool α → List (Resource α) × List MismatchReason × Pool α
  | [], p => ([], reasons, p)
  | name :: rest, p =>
    if required.of name ≤ Amount.tolerance then takeScalars s required reasons rest p
    else
      match p.takeScalar? s name (required.of name) with
      | some (parts, p) =>
        let (more, reasons, p) := takeScalars s required reasons rest p
        (parts ++ more, reasons, p)
      | none => takeScalars s required (addReason reasons (.ofResource name)) rest p

/-- The offer is kept for workloads that need its GPUs. -/
def declinesForGpus (policy : GpuPolicy) (offer : Offer α) (runSpec : RunSpec α) : Bool :=
  policy == .restricted && runSpec.totalResources.gpus ≤ Amount.tolerance && offer.hasGpus

/-- Matches an instance of a run spec with an offer, given the volumes it has to get. Ports that
active tasks hold on the agent are not used. -/
def match? (policy : GpuPolicy) (offer : Offer α) (runSpec : RunSpec α) (known : List Instance)
    (s : Selector) (volumes : VolumeRequest α) :
    Except (List MismatchReason) (ResourceMatch α) :=
  if declinesForGpus policy offer runSpec then .error [.declinedScarceResources]
  else if !offer.resources.any s.accepts then .error [.unfulfilledRole]
  else
    let taken := takeVolumes s (Pool.ofResources offer.resources) volumes
    let (parts, reasons, pool) :=
      takeScalars s runSpec.totalResources taken.reasons scalarNames taken.pool
    match HostPorts.assign? s (HostPorts.inUse offer.agentId known) runSpec.portRequests pool with
    | none => .error (reasons ++ [.insufficientPorts])
    | some (hostPorts, pool) =>
      if reasons.isEmpty then
        .ok {
          resources :=
            taken.existing ++ parts ++ taken.created.map (·.2) ++ pool.consumedPorts
          hostPorts := hostPorts
          newVolumes := taken.created }
      else .error reasons

end Matching

end Placement
