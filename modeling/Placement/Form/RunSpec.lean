/-
JSON forms of run specs.
-/
import Placement.Form.Resource
import Placement.RunSpec

namespace Placement

variable {α : Type}

instance [JsonForm α] : JsonForm (Requirements α) where
  toJson r := .obj [("cpus", toJson r.cpus), ("disk", toJson r.disk), ("gpus", toJson r.gpus),
    ("mem", toJson r.mem)]
  ofJson? j := do
    let fields ← j.record? ["cpus", "mem", "disk", "gpus"]
    some ⟨← fields.required "cpus", ← fields.required "mem", ← fields.required "disk",
      ← fields.required "gpus"⟩

instance : JsonForm HostPort where
  toJson
    | .fixed p => .obj [("fixed", toJson p)]
    | .dynamic => .str "dynamic"
    | .none => .str "none"
  ofJson?
    | .obj [("fixed", j)] => (ofJson? j).map .fixed
    | j =>
      match j.name? with
      | some "dynamic" => some .dynamic
      | some "none" => some .none
      | _ => .none

instance : JsonForm Protocol where
  toJson p := .str p.text
  ofJson? := Json.named? [.tcp, .udp] Protocol.text

instance : JsonForm PortDefinition where
  toJson d := .obj [("container_port", toJson d.containerPort), ("host_port", toJson d.hostPort),
    ("labels", toJson d.labels), ("name", toJson d.name), ("protocol", toJson d.protocol)]
  ofJson? j := do
    let fields ← j.record? ["name", "host_port", "container_port", "protocol", "labels"]
    some ⟨← fields.optional "name", ← fields.required "host_port",
      ← fields.optional "container_port", ← fields.required "protocol", ← fields.required "labels"⟩

instance [JsonForm α] : JsonForm (PersistentVolume α) where
  toJson v := .obj [("container_path", .str v.containerPath), ("disk_type", toJson v.diskType),
    ("size_mb", toJson v.size)]
  ofJson? j := do
    let fields ← j.record? ["container_path", "size_mb", "disk_type"]
    some ⟨← fields.required "container_path", ← fields.required "size_mb",
      ← fields.required "disk_type"⟩

instance : JsonForm ExecutorSpec where
  toJson e := .obj [("args", toJson e.args), ("command", toJson e.command),
    ("image", toJson e.image), ("uris", toJson e.uris)]
  ofJson? j := do
    let fields ← j.record? ["command", "args", "image", "uris"]
    some ⟨← fields.optional "command", ← fields.required "args", ← fields.optional "image",
      ← fields.required "uris"⟩

instance [JsonForm α] : JsonForm (ContainerSpec α) where
  toJson c := .obj [("endpoints", toJson c.endpoints), ("env", toJson c.env),
    ("exec", toJson c.exec), ("name", .str c.name), ("resources", toJson c.resources)]
  ofJson? j := do
    let fields ← j.record? ["name", "resources", "endpoints", "exec", "env"]
    some ⟨← fields.required "name", ← fields.required "resources", ← fields.required "endpoints",
      ← fields.required "exec", ← fields.required "env"⟩

namespace HealthCheckProtocol

def all : List HealthCheckProtocol := [.http, .tcp, .agentHttp, .agentTcp, .command]

def text : HealthCheckProtocol → String
  | .http => "http"
  | .tcp => "tcp"
  | .agentHttp => "mesos_http"
  | .agentTcp => "mesos_tcp"
  | .command => "command"

end HealthCheckProtocol

instance : JsonForm HealthCheckProtocol where
  toJson p := .str p.text
  ofJson? := Json.named? HealthCheckProtocol.all HealthCheckProtocol.text

instance : JsonForm HealthCheck where
  toJson h := .obj [("command", toJson h.command), ("grace_period", toJson h.gracePeriod),
    ("interval", toJson h.interval), ("max_consecutive_failures", .ofNat h.maxConsecutiveFailures),
    ("path", toJson h.path), ("port_index", (h.portIndex.map Json.ofNat).getD .null),
    ("protocol", toJson h.protocol), ("timeout", toJson h.timeout)]
  ofJson? j := do
    let fields ← j.record? ["protocol", "path", "command", "port_index", "grace_period", "interval",
      "timeout", "max_consecutive_failures"]
    some ⟨← fields.required "protocol", ← fields.optional "path", ← fields.optional "command",
      ← fields.optionalNat "port_index" UInt64.size, ← fields.required "grace_period",
      ← fields.required "interval", ← fields.required "timeout",
      ← fields.nat "max_consecutive_failures" UInt32.size⟩

instance : JsonForm UnreachableStrategy where
  toJson u := .obj [("expunge_after", toJson u.expungeAfter),
    ("inactive_after", toJson u.inactiveAfter)]
  ofJson? j := do
    let fields ← j.record? ["inactive_after", "expunge_after"]
    some ⟨← fields.required "inactive_after", ← fields.required "expunge_after"⟩

/-- Roles are listed in ascending order, and read in any. -/
instance : JsonForm Roles where
  toJson r := toJson r.keys
  ofJson? j := (ofJson? j).map Roles.ofList

instance [JsonForm α] : JsonForm (RunSpec α) where
  toJson s := .obj [("accepted_resource_roles", toJson s.acceptedRoles),
    ("containers", toJson s.containers), ("env", toJson s.env), ("executor", toJson s.executor),
    ("health_checks", toJson s.healthChecks), ("id", toJson s.id),
    ("instances", .ofNat s.instances), ("labels", toJson s.labels), ("ports", toJson s.ports),
    ("resources", toJson s.resources), ("unreachable_strategy", toJson s.unreachableStrategy),
    ("version", toJson s.version), ("volumes", toJson s.volumes)]
  ofJson? j := do
    let fields ← j.record? ["id", "instances", "resources", "ports", "accepted_resource_roles",
      "volumes", "executor", "containers", "env", "labels", "health_checks",
      "unreachable_strategy", "version"]
    some ⟨← fields.required "id", ← fields.nat "instances" UInt32.size, ← fields.required "resources",
      ← fields.required "ports", ← fields.required "accepted_resource_roles",
      ← fields.required "volumes", ← fields.required "executor", ← fields.required "containers",
      ← fields.required "env", ← fields.required "labels", ← fields.required "health_checks",
      ← fields.required "unreachable_strategy", ← fields.required "version"⟩

end Placement
