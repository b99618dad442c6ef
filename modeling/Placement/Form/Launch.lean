/-
JSON forms of launch payloads and of the operations that are sent to the resource manager.
-/
import Placement.Form.Task
import Placement.Launch.Payload

namespace Placement

variable {α : Type}

instance : JsonForm CommandInfo where
  toJson c := .obj [("arguments", toJson c.arguments), ("environment", toJson c.environment),
    ("uris", toJson c.uris), ("value", toJson c.value)]
  ofJson? j := do
    let fields ← j.record? ["value", "arguments", "uris", "environment"]
    some ⟨← fields.optional "value", ← fields.required "arguments", ← fields.required "uris",
      ← fields.required "environment"⟩

instance : JsonForm ContainerInfo where
  toJson c := .obj [("image", .str c.image)]
  ofJson? j := do
    let fields ← j.record? ["image"]
    some ⟨← fields.required "image"⟩

instance : JsonForm HealthCheckInfo where
  toJson h := .obj [("command", toJson h.command), ("grace_period", toJson h.gracePeriod),
    ("interval", toJson h.interval), ("max_consecutive_failures", .ofNat h.maxConsecutiveFailures),
    ("path", toJson h.path), ("port", toJson h.port), ("protocol", toJson h.protocol),
    ("timeout", toJson h.timeout)]
  ofJson? j := do
    let fields ← j.record? ["protocol", "path", "command", "port", "grace_period", "interval",
      "timeout", "max_consecutive_failures"]
    some ⟨← fields.required "protocol", ← fields.optional "path", ← fields.optional "command",
      ← fields.optional "port", ← fields.required "grace_period", ← fields.required "interval",
      ← fields.required "timeout", ← fields.nat "max_consecutive_failures" UInt32.size⟩

instance : JsonForm DiscoveryPort where
  toJson p := .obj [("labels", toJson p.labels), ("name", toJson p.name),
    ("number", toJson p.number), ("protocol", toJson p.protocol)]
  ofJson? j := do
    let fields ← j.record? ["number", "name", "protocol", "labels"]
    some ⟨← fields.required "number", ← fields.optional "name", ← fields.required "protocol",
      ← fields.required "labels"⟩

instance : JsonForm DiscoveryInfo where
  toJson d := .obj [("name", .str d.name), ("ports", toJson d.ports)]
  ofJson? j := do
    let fields ← j.record? ["name", "ports"]
    some ⟨← fields.required "name", ← fields.required "ports"⟩

instance [JsonForm α] : JsonForm (TaskInfo α) where
  toJson t := .obj [("agent_id", toJson t.agentId), ("command", toJson t.command),
    ("container", toJson t.container), ("discovery", toJson t.discovery),
    ("health_check", toJson t.healthCheck), ("labels", toJson t.labels), ("name", .str t.name),
    ("resources", toJson t.resources), ("task_id", toJson t.taskId)]
  ofJson? j := do
    let fields ← j.record? ["task_id", "name", "agent_id", "resources", "command", "container",
      "health_check", "discovery", "labels"]
    some ⟨← fields.required "task_id", ← fields.required "name", ← fields.required "agent_id",
      ← fields.required "resources", ← fields.required "command", ← fields.optional "container",
      ← fields.optional "health_check", ← fields.required "discovery", ← fields.required "labels"⟩

instance [JsonForm α] : JsonForm (ExecutorInfo α) where
  toJson e := .obj [("executor_id", .str e.executorId), ("resources", toJson e.resources)]
  ofJson? j := do
    let fields ← j.record? ["executor_id", "resources"]
    some ⟨← fields.required "executor_id", ← fields.required "resources"⟩

instance [JsonForm α] : JsonForm (TaskGroupInfo α) where
  toJson g := .obj [("executor", toJson g.executor), ("tasks", toJson g.tasks)]
  ofJson? j := do
    let fields ← j.record? ["executor", "tasks"]
    some ⟨← fields.required "executor", ← fields.required "tasks"⟩

instance [JsonForm α] : JsonForm (WireOperation α) where
  toJson op :=
    match op with
    | .launch tasks => .obj [("tasks", toJson tasks), ("type", .str op.type)]
    | .launchGroup group => .obj [("group", toJson group), ("type", .str op.type)]
    | .reserve resources => .obj [("resources", toJson resources), ("type", .str op.type)]
    | .createVolumes volumes => .obj [("type", .str op.type), ("volumes", toJson volumes)]
  ofJson? j := do
    let (type, content) ← j.tagged? "type"
    match type with
    | "LAUNCH" => some (.launch (← (← content.record? ["tasks"]).required "tasks"))
    | "LAUNCH_GROUP" => some (.launchGroup (← (← content.record? ["group"]).required "group"))
    | "RESERVE" => some (.reserve (← (← content.record? ["resources"]).required "resources"))
    | "CREATE_VOLUMES" =>
      some (.createVolumes (← (← content.record? ["volumes"]).required "volumes"))
    | _ => none

end Placement
