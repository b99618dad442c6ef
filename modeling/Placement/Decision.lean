/-
Decisions: what to do with an offer for one run spec.

Nothing is done when enough instances are placed or no launch is asked for. A run spec without
volumes is launched on unreserved resources. A resident one is launched on a reservation of its own
that the offer carries; without one, a new reservation is founded and its volumes are created, unless
every missing instance holds a reservation already.
-/
import Placement.Decision.Portion
import Placement.Decision.TaskInfo
import Placement.Id.Supply
import Placement.Launch.Operation
import Placement.Matching

namespace Placement

/-- How launches and reservations are made. -/
structure LaunchPolicy where
  frameworkId : String
  /-- The role that new reservations are made for. -/
  reservationRole : String
  /-- The role that is accepted where a run spec names none. -/
  defaultRole : String
  /-- How long a new reservation may wait for its launch, in milliseconds. -/
  reservationTimeoutMs : Int
  deriving DecidableEq, Repr

def LaunchPolicy.usual : LaunchPolicy := ⟨"keel", "keel", anyRole, 300000⟩

/-- What to do with an offer. -/
inductive Decision (α : Type) where
  | op (op : InstanceOp α)
  | fullyPlaced
  | mismatch (reasons : List MismatchReason)
  deriving DecidableEq, Repr

/-- Why no decision is reached. -/
inductive DecisionFault where
  | badOp (error : InstanceOpError)
  /-- The deadline of a new reservation lies outside the calendar. -/
  | deadlineOutOfRange
  deriving DecidableEq, Repr

namespace Decision

variable {α : Type} [Amount α]

/-- The operation of a decision, if it is one. -/
def op? : Decision α → Option (InstanceOp α)
  | op o => some o
  | fullyPlaced => none
  | mismatch _ => none

/-- A decision, or why there is none, with the identifiers that are left. -/
abbrev Result (α : Type) := Except DecisionFault (Decision α) × IdSupply

/-- The decision for an operation that may be malformed. -/
def ofOp : Except InstanceOpError (InstanceOp α) → Except DecisionFault (Decision α)
  | .ok o => .ok (.op o)
  | .error e => .error (.badOp e)

/-! ## Labels of reservations -/

def frameworkLabel : String := "keel_framework_id"

def taskLabel : String := "keel_task_id"

/-- The labels of the reservation of a task; tasks of different ids have different labels. -/
def reservationLabels (policy : LaunchPolicy) (id : TaskId) : Labels :=
  OrderedMap.ofList [(frameworkLabel, policy.frameworkId), (taskLabel, id.text)]

/-- A resource after it has been reserved. -/
def reserved (policy : LaunchPolicy) (info : ReservationInfo) (r : Resource α) : Resource α :=
  (r.withRole policy.reservationRole).withReservation info

/-! ## Ephemeral run specs -/

/-- The members of a task group, container by container: payloads and state ops. Each takes its
requirements from what the ones before it have left, and the host ports of its own endpoints. -/
def groupMembers (runSpec : RunSpec α) (offer : Offer α) (instanceId : InstanceId)
    (now : Timestamp) : List (ContainerSpec α) → List (Option Port) → List (Resource α) →
    Except IdError (List (TaskInfo α) × List StateOp)
  | [], _, _ => .ok ([], [])
  | c :: rest, hostPorts, parts =>
    match TaskId.forContainer runSpec.id instanceId c.name with
    | .error e => .error e
    | .ok id =>
      let own := hostPorts.take c.endpoints.length
      let (scalars, parts) := Portion.take c.resources parts
      let info := taskInfo runSpec offer id (some c) (scalars ++ Portion.ports own parts) own
      let task := newTask id runSpec offer (.fresh .created now) (own.filterMap (·))
      match groupMembers runSpec offer instanceId now rest (hostPorts.drop c.endpoints.length)
          parts with
      | .error e => .error e
      | .ok (infos, ops) => .ok (info :: infos, .launchEphemeral task :: ops)

/-- The launch of a task group; the executor takes its part first. -/
def launchGroup (runSpec : RunSpec α) (offer : Offer α) (m : ResourceMatch α)
    (instanceId : InstanceId) (now : Timestamp) : Except InstanceOpError (InstanceOp α) :=
  let (executor, parts) := Portion.take Requirements.executor m.resources
  match groupMembers runSpec offer instanceId now runSpec.containers m.hostPorts parts with
  | .error e => .error (.badId e)
  | .ok (infos, ops) =>
    InstanceOp.ofGroup ⟨⟨"executor." ++ instanceId.text, executor⟩, infos⟩ ops

/-- The launch of the only task of an instance. -/
def launchTask (runSpec : RunSpec α) (offer : Offer α) (m : ResourceMatch α)
    (instanceId : InstanceId) (now : Timestamp) : Except InstanceOpError (InstanceOp α) :=
  let id := TaskId.forInstance runSpec.id instanceId
  InstanceOp.ofTask (taskInfo runSpec offer id none m.resources m.hostPorts)
    (.launchEphemeral (newTask id runSpec offer (.fresh .created now) m.assignedPorts))

/-- The decision for a run spec without volumes. -/
def ephemeral (policy : LaunchPolicy) (gpus : GpuPolicy) (runSpec : RunSpec α) (offer : Offer α)
    (known : List Instance) (now : Timestamp) (ids : IdSupply) : Result α :=
  let selector : Selector := ⟨runSpec.roles policy.defaultRole, .unreserved⟩
  match Matching.match? gpus offer runSpec known selector .none with
  | .error reasons => (.ok (.mismatch reasons), ids)
  | .ok m =>
    let (instanceId, ids) := ids.nextId
    let op := if runSpec.isPod then launchGroup runSpec offer m instanceId now
      else launchTask runSpec offer m instanceId now
    (ofOp op, ids)

/-! ## Resident run specs -/

/-- A task that waits on this agent for a launch, all of whose volumes are on the offer. -/
def waitsOn (offer : Offer α) (t : Task) : Bool :=
  t.isReserved && t.agent.agentId == offer.agentId && !t.volumeIds.isEmpty
    && t.volumeIds.all fun v => offer.resources.any (·.carriesVolume v)

/-- The launch of a waiting task on its reservation. -/
def launchOnReservation (policy : LaunchPolicy) (gpus : GpuPolicy) (runSpec : RunSpec α)
    (offer : Offer α) (known : List Instance) (task : Task) (now : Timestamp) :
    Except DecisionFault (Decision α) :=
  let roles := (runSpec.roles policy.defaultRole).insert policy.reservationRole ()
  let selector : Selector := ⟨roles, .preferReserved (reservationLabels policy task.id)⟩
  match Matching.match? gpus offer runSpec known selector (.existing task.volumeIds) with
  | .error reasons => .ok (.mismatch reasons)
  | .ok m =>
    ofOp (InstanceOp.ofTask (taskInfo runSpec offer task.id none m.resources m.hostPorts)
      (.launchOnReservation task.id runSpec.version (.fresh .created now) m.assignedPorts))

/-- Names new volumes and puts them on the disks they are carved from. -/
def createVolumes (policy : LaunchPolicy) (info : ReservationInfo) (runSpecId : RunSpecId) :
    List (PersistentVolume α × Resource α) → IdSupply →
    Except IdError (List (VolumeId × Resource α)) × IdSupply
  | [], ids => (.ok [], ids)
  | (v, part) :: rest, ids =>
    match VolumeId.forPath runSpecId v.containerPath ids.nextUuid.1 with
    | .error e => (.error e, ids)
    | .ok id =>
      let disk := { reserved policy info part with
        disk := some ⟨part.diskSource, some ⟨id, v.containerPath⟩⟩ }
      match createVolumes policy info runSpecId rest ids.nextUuid.2 with
      | (.error e, ids) => (.error e, ids)
      | (.ok more, ids) => (.ok ((id, disk) :: more), ids)

/-- A new reservation for a task that is not launched yet, with its volumes. -/
def foundReservation (policy : LaunchPolicy) (gpus : GpuPolicy) (runSpec : RunSpec α)
    (offer : Offer α) (known : List Instance) (now : Timestamp) (ids : IdSupply) : Result α :=
  let selector : Selector := ⟨runSpec.roles policy.defaultRole, .unreserved⟩
  match Matching.match? gpus offer runSpec known selector (.create runSpec.volumes) with
  | .error reasons => (.ok (.mismatch reasons), ids)
  | .ok m =>
    let (instanceId, ids) := ids.nextId
    let id := TaskId.forInstance runSpec.id instanceId
    let info : ReservationInfo := ⟨some policy.frameworkId, reservationLabels policy id⟩
    match createVolumes policy info runSpec.id m.newVolumes ids with
    | (.error e, ids) => (.error (.badOp (.badId e)), ids)
    | (.ok volumes, ids) =>
      match now.addMillis? policy.reservationTimeoutMs with
      | none => (.error .deadlineOutOfRange, ids)
      | some deadline =>
        let task := { newTask id runSpec offer (.fresh .reserved now) [] with
          reservation := some ⟨volumes.map (·.1), .new (some ⟨now, deadline⟩)⟩ }
        (.ok (.op (.reserveAndCreate m.resources (m.resources.map (reserved policy info))
          (volumes.map (·.2)) (.reserve task))), ids)

/-- The decision for a run spec with volumes. -/
def resident (policy : LaunchPolicy) (gpus : GpuPolicy) (runSpec : RunSpec α) (offer : Offer α)
    (known own : List Instance) (placed : Nat) (now : Timestamp) (ids : IdSupply) : Result α :=
  let reservedOnes := own.filter (·.hasReservedTask)
  if runSpec.isPod || reservedOnes.any (·.tasks.size != 1) then
    (.error (.badOp (.residentGroup runSpec.id)), ids)
  else
    match (reservedOnes.flatMap (·.tasks.values)).find? (waitsOn offer) with
    | some task => (launchOnReservation policy gpus runSpec offer known task now, ids)
    | none =>
      if runSpec.instances ≤ placed + reservedOnes.length then
        (.ok (.mismatch [.noCorrespondingReservationFound]), ids)
      else foundReservation policy gpus runSpec offer known now ids

/-! ## All run specs -/

/-- What to do with an offer for a run spec of which `additional` more launches are asked for, given
all instances that are known. -/
def evaluate (policy : LaunchPolicy) (gpus : GpuPolicy) (runSpec : RunSpec α) (offer : Offer α)
    (known : List Instance) (additional : Nat) (now : Timestamp) (ids : IdSupply) : Result α :=
  let own := known.filter fun i => i.runSpecId == runSpec.id
  let placed := (own.filter (·.isPlaced)).length
  if additional = 0 || runSpec.instances ≤ placed then (.ok .fullyPlaced, ids)
  else if runSpec.isResident then
    resident policy gpus runSpec offer known own placed now ids
  else ephemeral policy gpus runSpec offer known now ids

end Decision

end Placement
