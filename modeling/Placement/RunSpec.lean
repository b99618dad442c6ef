/-
Declared workloads. A run spec asks for a number of instances; each is one task, or one task for
each of its containers. A run spec with volumes is resident: its tasks hold reservations.
-/
import Placement.Amount
import Placement.Resource
import Placement.Span
import Placement.Timestamp

namespace Placement

/-- Scalar amounts asked for. -/
structure Requirements (α : Type) where
  cpus : α
  mem : α
  disk : α
  gpus : α
  deriving DecidableEq, Repr

namespace Requirements

variable {α : Type} [Amount α]

/-- Processors and memory alone. -/
def ofCpusMem (cpus mem : α) : Requirements α := ⟨cpus, mem, 0, 0⟩

def add (a b : Requirements α) : Requirements α :=
  ⟨a.cpus + b.cpus, a.mem + b.mem, a.disk + b.disk, a.gpus + b.gpus⟩

/-- The amount asked of one scalar resource. -/
def of (r : Requirements α) : ResourceName → α
  | .cpus => r.cpus
  | .mem => r.mem
  | .disk => r.disk
  | .gpus => r.gpus
  | .ports => 0

/-- What the executor of a task group needs for itself. -/
def executor : Requirements α := ⟨Amount.ratio 1 10, Amount.ratio 32 1, Amount.ratio 10 1, 0⟩

end Requirements

/-- What a port of a task is bound to on its host. -/
inductive HostPort where
  | fixed (port : Port)
  /-- Any port that is free. -/
  | dynamic
  /-- No port of the host. -/
  | none
  deriving DecidableEq, Repr

inductive Protocol where
  | tcp
  | udp
  deriving DecidableEq, Repr

def Protocol.text : Protocol → String
  | .tcp => "tcp"
  | .udp => "udp"

structure PortDefinition where
  name : Option String
  hostPort : HostPort
  containerPort : Option Port
  protocol : Protocol
  labels : Labels
  deriving DecidableEq, Repr

namespace PortDefinition

def ofHostPort (p : HostPort) : PortDefinition := ⟨none, p, none, .tcp, ∅⟩

def named (d : PortDefinition) (name : String) : PortDefinition := { d with name := some name }

end PortDefinition

/-- A volume that outlives the tasks that use it. -/
structure PersistentVolume (α : Type) where
  containerPath : String
  size : α
  diskType : DiskType
  deriving DecidableEq, Repr

/-- What a task runs. -/
structure ExecutorSpec where
  command : Option String
  args : List String
  image : Option String
  uris : List String
  deriving DecidableEq, Repr

def ExecutorSpec.none : ExecutorSpec := ⟨.none, [], .none, []⟩

/-- One container of a task group. -/
structure ContainerSpec (α : Type) where
  name : String
  resources : Requirements α
  endpoints : List PortDefinition
  exec : ExecutorSpec
  env : Labels
  deriving DecidableEq, Repr

inductive HealthCheckProtocol where
  | http
  | tcp
  | agentHttp
  | agentTcp
  | command
  deriving DecidableEq, Repr

/-- A health check is made by the agent, not by the scheduler. -/
def HealthCheckProtocol.isWireLevel : HealthCheckProtocol → Bool
  | .agentHttp | .agentTcp | .command => true
  | .http | .tcp => false

structure HealthCheck where
  protocol : HealthCheckProtocol
  path : Option String
  command : Option String
  portIndex : Option Nat
  gracePeriod : Span
  interval : Span
  timeout : Span
  maxConsecutiveFailures : Nat
  deriving DecidableEq, Repr

/-- A health check with the usual times and three failures allowed. -/
def HealthCheck.ofProtocol (protocol : HealthCheckProtocol) : HealthCheck :=
  ⟨protocol, none, none, none, .ofSeconds 300, .ofSeconds 60, .ofSeconds 20, 3⟩

/-- When an unreachable task becomes inactive, and when it is given up. -/
structure UnreachableStrategy where
  inactiveAfter : Span
  expungeAfter : Span
  deriving DecidableEq, Repr

def UnreachableStrategy.usual : UnreachableStrategy := ⟨.ofSeconds 300, .ofSeconds 600⟩

/-- A set of roles. -/
abbrev Roles := OrderedMap String Unit

def Roles.ofList (roles : List String) : Roles := OrderedMap.ofList (roles.map (·, ()))

structure RunSpec (α : Type) where
  id : RunSpecId
  instances : Nat
  resources : Requirements α
  ports : List PortDefinition
  acceptedRoles : Roles
  volumes : List (PersistentVolume α)
  executor : ExecutorSpec
  containers : List (ContainerSpec α)
  env : Labels
  labels : Labels
  healthChecks : List HealthCheck
  unreachableStrategy : UnreachableStrategy
  version : Timestamp
  deriving DecidableEq, Repr

namespace RunSpec

variable {α : Type}

/-- A run spec that asks for nothing. -/
def ofId [Amount α] (id : RunSpecId) (instances : Nat) (version : Timestamp) : RunSpec α where
  id := id
  instances := instances
  resources := ⟨0, 0, 0, 0⟩
  ports := []
  acceptedRoles := ∅
  volumes := []
  executor := .none
  containers := []
  env := ∅
  labels := ∅
  healthChecks := []
  unreachableStrategy := .usual
  version := version

/-- Tasks of the run spec hold reservations with volumes. -/
def isResident (s : RunSpec α) : Bool := !s.volumes.isEmpty

/-- Instances are task groups. -/
def isPod (s : RunSpec α) : Bool := !s.containers.isEmpty

/-- What one instance needs, with the executor of a task group. -/
def totalResources [Amount α] (s : RunSpec α) : Requirements α :=
  if s.isPod then (s.containers.map (·.resources)).foldl Requirements.add Requirements.executor
  else s.resources

/-- The ports of one instance, container by container. -/
def portDefinitions (s : RunSpec α) : List PortDefinition :=
  if s.isPod then s.containers.flatMap (·.endpoints) else s.ports

def portRequests (s : RunSpec α) : List HostPort := s.portDefinitions.map (·.hostPort)

/-- The roles whose resources may be used, `default` if none are declared. -/
def roles (s : RunSpec α) (default : String) : Roles :=
  if s.acceptedRoles.isEmpty then Roles.ofList [default] else s.acceptedRoles

end RunSpec

end Placement
