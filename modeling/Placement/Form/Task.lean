/-
JSON forms of tasks and instances, as they are stored. A stored task may lack the times for
unreachable tasks; the usual ones count then.
-/
import Placement.Form.RunSpec
import Placement.Instance

namespace Placement

instance : JsonForm Condition where
  toJson c := .str c.name
  ofJson? := Json.named? Condition.all Condition.name

instance : JsonForm ReportedState where
  toJson s := .str s.name
  ofJson? := Json.named? ReportedState.all ReportedState.name

instance : JsonForm StatusReport where
  toJson r := .obj [("healthy", toJson r.healthy), ("message", toJson r.message),
    ("state", toJson r.state), ("timestamp", toJson r.timestamp)]
  ofJson? j := do
    let fields ← j.record? ["state", "healthy", "message", "timestamp"]
    some ⟨← fields.required "state", ← fields.optional "healthy", ← fields.optional "message",
      ← fields.required "timestamp"⟩

instance : JsonForm TaskStatus where
  toJson s := .obj [("condition", toJson s.condition),
    ("resource_manager_status", toJson s.report), ("since", toJson s.since),
    ("staged_at", toJson s.stagedAt), ("started_at", toJson s.startedAt)]
  ofJson? j := do
    let fields ← j.record? ["staged_at", "started_at", "condition", "since",
      "resource_manager_status"]
    some ⟨← fields.required "staged_at", ← fields.optional "started_at",
      ← fields.required "condition", ← fields.required "since",
      ← fields.optional "resource_manager_status"⟩

instance : JsonForm ReservationTimeout where
  toJson t := .obj [("deadline", toJson t.deadline), ("initiated", toJson t.initiated)]
  ofJson? j := do
    let fields ← j.record? ["initiated", "deadline"]
    some ⟨← fields.required "initiated", ← fields.required "deadline"⟩

instance : JsonForm ReservationState where
  toJson
    | .new t => .obj [("state", .str "new"), ("timeout", toJson t)]
    | .launched => .obj [("state", .str "launched")]
    | .suspended t => .obj [("state", .str "suspended"), ("timeout", toJson t)]
  ofJson? j := do
    let (state, content) ← j.tagged? "state"
    match state with
    | "new" => some (.new (← (← content.record? ["timeout"]).optional "timeout"))
    | "launched" =>
      match content with
      | .arr (_ :: _) => none
      | _ => some .launched
    | "suspended" => some (.suspended (← (← content.record? ["timeout"]).optional "timeout"))
    | _ => none

instance : JsonForm Reservation where
  toJson r := .obj [("state", toJson r.state), ("volume_ids", toJson r.volumeIds)]
  ofJson? j := do
    let fields ← j.record? ["volume_ids", "state"]
    some ⟨← fields.required "volume_ids", ← fields.required "state"⟩

/-- Names of the fields of a task in order; the last may be missing. -/
def taskFields : List String :=
  ["id", "agent", "run_spec_version", "status", "host_ports", "reservation", "unreachable_strategy"]

instance : JsonForm Task where
  toJson t := .obj [("agent", toJson t.agent), ("host_ports", toJson t.hostPorts),
    ("id", toJson t.id), ("reservation", toJson t.reservation),
    ("run_spec_version", toJson t.runSpecVersion), ("status", toJson t.status),
    ("unreachable_strategy", toJson t.unreachableStrategy)]
  ofJson? j := do
    let fields ← (j.record? taskFields).or (j.record? taskFields.dropLast)
    some ⟨← fields.required "id", ← fields.required "agent", ← fields.required "run_spec_version",
      ← fields.required "status", ← fields.required "host_ports", ← fields.optional "reservation",
      ← match fields.find? "unreachable_strategy" with
        | some j => ofJson? j
        | none => some .usual⟩

instance : JsonForm InstanceState where
  toJson s := .obj [("condition", toJson s.condition), ("healthy", toJson s.healthy),
    ("since", toJson s.since)]
  ofJson? j := do
    let fields ← j.record? ["condition", "since", "healthy"]
    some ⟨← fields.required "condition", ← fields.required "since", ← fields.optional "healthy"⟩

/-- Tasks by the texts of their ids. -/
instance : JsonForm (OrderedMap TaskId Task) where
  toJson m := .ofFields (m.entries.map fun e => (e.1.text, toJson e.2))
  ofJson?
    | .obj fields => do
      let entries ← fields.mapM fun f => do some (← (TaskId.parse f.1).toOption, ← ofJson? f.2)
      some (OrderedMap.ofList entries)
    | _ => none

instance : JsonForm Instance where
  toJson i := .obj [("agent", toJson i.agent), ("id", toJson i.id),
    ("run_spec_id", toJson i.runSpecId), ("run_spec_version", toJson i.runSpecVersion),
    ("state", toJson i.state), ("tasks", toJson i.tasks)]
  ofJson? j := do
    let fields ← j.record? ["id", "run_spec_id", "agent", "run_spec_version", "state", "tasks"]
    some ⟨← fields.required "id", ← fields.required "run_spec_id", ← fields.required "agent",
      ← fields.required "run_spec_version", ← fields.required "state", ← fields.required "tasks"⟩

end Placement
