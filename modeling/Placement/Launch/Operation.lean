/-
Instance operations: what to do with an offer for one instance, together with the state ops that
record it. The payload of a launch and its state op name the same task.
-/
import Placement.Launch.Payload
import Placement.StateOp

namespace Placement

inductive InstanceOp (α : Type) where
  | launchTask (info : TaskInfo α) (stateOp : StateOp)
  | launchGroup (group : TaskGroupInfo α) (stateOps : List StateOp)
  /-- Reserve parts of the offer, then create volumes on them. `consumed` are the parts as they were
  offered. -/
  | reserveAndCreate (consumed reserve create : List (Resource α)) (stateOp : StateOp)
  deriving DecidableEq, Repr

/-- Why an instance operation cannot be made. -/
inductive InstanceOpError where
  /-- A resident run spec with several tasks to an instance. -/
  | residentGroup (runSpecId : RunSpecId)
  | otherTask (payload stateOp : TaskId)
  | otherTaskCount (payload stateOps : Nat)
  | badId (error : IdError)
  deriving DecidableEq, Repr

def InstanceOpError.message : InstanceOpError → String
  | residentGroup id => "resident run spec " ++ id.path ++ " has more than one task per instance"
  | otherTask payload stateOp =>
    "launch payload is for task " ++ payload.text ++ " but the state op is for task " ++ stateOp.text
  | otherTaskCount payload stateOps =>
    s!"task group launches {payload} tasks but records {stateOps}"
  | badId error => "invalid identifier: " ++ error.message

namespace InstanceOp

variable {α : Type}

/-- The first pair of a payload and a state op that name different tasks. -/
def differentTask? : List (TaskInfo α) → List StateOp → Option InstanceOpError
  | info :: infos, op :: ops =>
    if info.taskId = op.taskId then differentTask? infos ops
    else some (.otherTask info.taskId op.taskId)
  | _, _ => none

/-- The launch of one task. -/
def ofTask (info : TaskInfo α) (op : StateOp) : Except InstanceOpError (InstanceOp α) :=
  match differentTask? [info] [op] with
  | some e => .error e
  | none => .ok (.launchTask info op)

/-- The launch of a task group; payloads and state ops belong together in order. -/
def ofGroup (group : TaskGroupInfo α) (ops : List StateOp) :
    Except InstanceOpError (InstanceOp α) :=
  if group.tasks.length ≠ ops.length then .error (.otherTaskCount group.tasks.length ops.length)
  else match differentTask? group.tasks ops with
    | some e => .error e
    | none => .ok (.launchGroup group ops)

/-- What is sent when the offer is accepted. -/
def wireOperations : InstanceOp α → List (WireOperation α)
  | launchTask info _ => [.launch [info]]
  | launchGroup group _ => [.launchGroup group]
  | reserveAndCreate _ reserve create _ => [.reserve reserve, .createVolumes create]

/-- What is recorded before that. -/
def stateOps : InstanceOp α → List StateOp
  | launchTask _ op => [op]
  | launchGroup _ ops => ops
  | reserveAndCreate _ _ _ op => [op]

/-- The parts of the offer that the operation uses up. -/
def consumed : InstanceOp α → List (Resource α)
  | launchTask info _ => info.resources
  | launchGroup group _ => group.executor.resources ++ group.tasks.flatMap (·.resources)
  | reserveAndCreate consumed _ _ _ => consumed

/-- The operation launches an instance. -/
def isLaunch : InstanceOp α → Bool
  | launchTask _ _ => true
  | launchGroup _ _ => true
  | reserveAndCreate _ _ _ _ => false

def kindName : InstanceOp α → String
  | launchTask _ _ => "launch_task"
  | launchGroup _ _ => "launch_task_group"
  | reserveAndCreate _ _ _ _ => "reserve_and_create_volumes"

end InstanceOp

end Placement
