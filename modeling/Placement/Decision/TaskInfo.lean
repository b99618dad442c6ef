/-
The launch payload of one task: its environment, its place in discovery and its health check.

User variables stand over those that are made here, and those of a container over those of its run
spec.
-/
import Placement.Launch.Payload
import Placement.Timestamp.Writer

namespace Placement.Decision

variable {α : Type}

/-! ## Environment -/

/-- A name within the name of a variable: capital letters and digits, underscores for the rest. -/
def variableName (name : String) : String :=
  String.ofList (name.toList.map fun c => if c.isAlphanum then c.toUpper else '_')

def portText (p : Port) : String := toString p.val

/-- Ports that have a number: the place of the definition, the definition, and the host port, or
without one the container port. -/
def numberedPorts : Nat → List PortDefinition → List (Option Port) →
    List (Nat × PortDefinition × Port)
  | _, [], _ => []
  | i, d :: ds, hosts =>
    let rest := numberedPorts (i + 1) ds (hosts.drop 1)
    match (hosts.head?.bind id).or d.containerPort with
    | some p => (i, d, p) :: rest
    | none => rest

/-- The variables that tell a task its ports. -/
def portVariables (ports : List (Nat × PortDefinition × Port)) : List (String × String) :=
  (match ports with
    | [] => []
    | (_, _, first) :: _ =>
      [("PORT", portText first), ("PORTS", ",".intercalate (ports.map fun p => portText p.2.2))])
    ++ ports.flatMap fun (i, d, p) =>
      (s!"PORT{i}", portText p) ::
        match d.name with
        | some name => [("PORT_" ++ variableName name, portText p)]
        | none => []

/-- The environment of a task before the variables of the user. -/
def taskVariables [Amount α] (runSpec : RunSpec α) (id : TaskId) (host : String)
    (ports : List PortDefinition) (hostPorts : List (Option Port)) (required : Requirements α) :
    Labels :=
  OrderedMap.ofList
    ([("KEEL_RUN_SPEC_ID", runSpec.id.path),
      ("KEEL_RUN_SPEC_VERSION", runSpec.version.render .offset),
      ("KEEL_TASK_ID", id.text),
      ("HOST", host),
      ("KEEL_RESOURCE_CPUS", Amount.text required.cpus),
      ("KEEL_RESOURCE_MEM", Amount.text required.mem),
      ("KEEL_RESOURCE_DISK", Amount.text required.disk),
      ("KEEL_RESOURCE_GPUS", Amount.text required.gpus)]
      ++ portVariables (numberedPorts 0 ports hostPorts))

/-! ## Payload -/

/-- The first health check that the agent makes; only one travels with a task. -/
def agentHealthCheck? (runSpec : RunSpec α) (hostPorts : List (Option Port)) :
    Option HealthCheckInfo :=
  (runSpec.healthChecks.find? fun h => h.protocol.isWireLevel).map fun h =>
    ⟨h.protocol, h.path, h.command, h.portIndex.bind fun i => (hostPorts[i]?).bind id,
      h.gracePeriod, h.interval, h.timeout, h.maxConsecutiveFailures⟩

/-- The ports under which others find a task: those that are bound to a host port. -/
def discoveryPorts (ports : List PortDefinition) (hostPorts : List (Option Port)) :
    List DiscoveryPort :=
  (ports.zip hostPorts).filterMap fun (d, p) =>
    p.map fun number => ⟨number, d.name, d.protocol, d.labels⟩

/-- The payload of the only task of an instance, or of one container of a task group. -/
def taskInfo [Amount α] (runSpec : RunSpec α) (offer : Offer α) (id : TaskId)
    (container : Option (ContainerSpec α)) (resources : List (Resource α))
    (hostPorts : List (Option Port)) : TaskInfo α :=
  let ports := (container.map (·.endpoints)).getD runSpec.ports
  let exec := (container.map (·.exec)).getD runSpec.executor
  let required := (container.map (·.resources)).getD runSpec.resources
  let env := (taskVariables runSpec id offer.hostname ports hostPorts required).union
    runSpec.env
  { taskId := id
    name := (container.map (·.name)).getD runSpec.id.safePath
    agentId := offer.agentId
    resources := resources
    command := ⟨exec.command, exec.args, exec.uris,
      (container.map fun c => env.union c.env).getD env⟩
    container := exec.image.map (⟨·⟩)
    healthCheck := if container.isNone then agentHealthCheck? runSpec hostPorts else none
    discovery := ⟨runSpec.id.safePath, discoveryPorts ports hostPorts⟩
    labels := runSpec.labels }

/-- A task that comes into being on the agent of an offer. -/
def newTask (id : TaskId) (runSpec : RunSpec α) (offer : Offer α) (status : TaskStatus)
    (hostPorts : List Port) : Task where
  id := id
  agent := offer.agent
  runSpecVersion := runSpec.version
  status := status
  hostPorts := hostPorts
  reservation := none
  unreachableStrategy := runSpec.unreachableStrategy

end Placement.Decision
