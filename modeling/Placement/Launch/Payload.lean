/-
What is sent to the resource manager when an offer is accepted.
-/
import Placement.Resource
import Placement.Task

namespace Placement

/-- What a task runs, with its environment. -/
structure CommandInfo where
  /-- A shell command; without one the entry point of the image runs. -/
  value : Option String
  arguments : List String
  uris : List String
  environment : Labels
  deriving DecidableEq, Repr

structure ContainerInfo where
  image : String
  deriving DecidableEq, Repr

/-- A health check that the agent makes. -/
structure HealthCheckInfo where
  protocol : HealthCheckProtocol
  path : Option String
  command : Option String
  port : Option Port
  gracePeriod : Span
  interval : Span
  timeout : Span
  maxConsecutiveFailures : Nat
  deriving DecidableEq, Repr

structure DiscoveryPort where
  number : Port
  name : Option String
  protocol : Protocol
  labels : Labels
  deriving DecidableEq, Repr

/-- How others find a task. -/
structure DiscoveryInfo where
  name : String
  ports : List DiscoveryPort
  deriving DecidableEq, Repr

/-- The launch of one task. -/
structure TaskInfo (α : Type) where
  taskId : TaskId
  name : String
  agentId : AgentId
  resources : List (Resource α)
  command : CommandInfo
  container : Option ContainerInfo
  healthCheck : Option HealthCheckInfo
  discovery : DiscoveryInfo
  labels : Labels
  deriving DecidableEq, Repr

structure ExecutorInfo (α : Type) where
  executorId : String
  resources : List (Resource α)
  deriving DecidableEq, Repr

/-- The launch of tasks that share one executor. -/
structure TaskGroupInfo (α : Type) where
  executor : ExecutorInfo α
  tasks : List (TaskInfo α)
  deriving DecidableEq, Repr

/-- One operation on the resources of an accepted offer. -/
inductive WireOperation (α : Type) where
  | launch (tasks : List (TaskInfo α))
  | launchGroup (group : TaskGroupInfo α)
  | reserve (resources : List (Resource α))
  | createVolumes (volumes : List (Resource α))
  deriving DecidableEq, Repr

/-- The name of an operation on the wire. -/
def WireOperation.type {α : Type} : WireOperation α → String
  | launch _ => "LAUNCH"
  | launchGroup _ => "LAUNCH_GROUP"
  | reserve _ => "RESERVE"
  | createVolumes _ => "CREATE_VOLUMES"

end Placement
