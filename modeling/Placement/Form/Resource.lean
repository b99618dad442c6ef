/-
JSON forms of resources and offers. Amounts are read from JSON numbers and written as decimal texts,
so that no reader of them has to round.
-/
import Placement.Form.Id
import Placement.Offer

namespace Placement

/-- A zero is written without its sign. -/
instance : JsonForm Float where
  toJson x := .str (Decimal.text (if x == 0 then 0 else x))
  ofJson?
    | .int n => some (Float.ofInt n)
    | .float x => some x
    | _ => none

instance : JsonForm ResourceName where
  toJson n := .str n.text
  ofJson? := Json.named? ResourceName.all ResourceName.text

instance : JsonForm PortRange where
  toJson r := .obj [("begin", toJson r.low), ("end", toJson r.high)]
  ofJson? j := do
    let fields ← j.record? ["begin", "end"]
    some ⟨← fields.required "begin", ← fields.required "end"⟩

instance {α : Type} [JsonForm α] : JsonForm (ResourceValue α) where
  toJson
    | .scalar a => .obj [("scalar", toJson a)]
    | .ranges rs => .obj [("ranges", toJson rs)]
  ofJson?
    | .obj [("scalar", j)] => (ofJson? j).map .scalar
    | .obj [("ranges", j)] => (ofJson? j).map .ranges
    | _ => none

instance : JsonForm ReservationInfo where
  toJson r := .obj [("labels", toJson r.labels), ("principal", toJson r.principal)]
  ofJson? j := do
    let fields ← j.record? ["principal", "labels"]
    some ⟨← fields.optional "principal", ← fields.required "labels"⟩

instance : JsonForm DiskSource where
  toJson
    | .root => .obj [("type", .str "root")]
    | .path root => .obj [("root", .str root), ("type", .str "path")]
    | .mount root => .obj [("root", .str root), ("type", .str "mount")]
  ofJson? j := do
    let (type, content) ← j.tagged? "type"
    match type with
    | "root" =>
      match content with
      | .arr (_ :: _) => none
      | _ => some .root
    | "path" => some (.path (← (← content.record? ["root"]).required "root"))
    | "mount" => some (.mount (← (← content.record? ["root"]).required "root"))
    | _ => none

def DiskType.all : List DiskType := [.root, .path, .mount]

def DiskType.text : DiskType → String
  | .root => "root"
  | .path => "path"
  | .mount => "mount"

instance : JsonForm DiskType where
  toJson t := .str t.text
  ofJson? := Json.named? DiskType.all DiskType.text

instance : JsonForm Persistence where
  toJson p := .obj [("container_path", .str p.containerPath), ("volume_id", toJson p.volumeId)]
  ofJson? j := do
    let fields ← j.record? ["volume_id", "container_path"]
    some ⟨← fields.required "volume_id", ← fields.required "container_path"⟩

instance : JsonForm DiskInfo where
  toJson d := .obj [("persistence", toJson d.persistence), ("source", toJson d.source)]
  ofJson? j := do
    let fields ← j.record? ["source", "persistence"]
    some ⟨← fields.required "source", ← fields.optional "persistence"⟩

instance {α : Type} [JsonForm α] : JsonForm (Resource α) where
  toJson r := .obj [("disk", toJson r.disk), ("name", toJson r.name),
    ("reservation", toJson r.reservation), ("role", .str r.role), ("value", toJson r.value)]
  ofJson? j := do
    let fields ← j.record? ["name", "value", "role", "reservation", "disk"]
    some ⟨← fields.required "name", ← fields.required "value", ← fields.required "role",
      ← fields.optional "reservation", ← fields.optional "disk"⟩

instance : JsonForm AgentInfo where
  toJson a := .obj [("agent_id", toJson a.agentId), ("attributes", toJson a.attributes),
    ("host", .str a.host)]
  ofJson? j := do
    let fields ← j.record? ["agent_id", "host", "attributes"]
    some ⟨← fields.required "agent_id", ← fields.required "host", ← fields.required "attributes"⟩

instance {α : Type} [JsonForm α] : JsonForm (Offer α) where
  toJson o := .obj [("agent_id", toJson o.agentId), ("attributes", toJson o.attributes),
    ("hostname", .str o.hostname), ("id", toJson o.id), ("resources", toJson o.resources)]
  ofJson? j := do
    let fields ← j.record? ["id", "agent_id", "hostname", "attributes", "resources"]
    some ⟨← fields.required "id", ← fields.required "agent_id", ← fields.required "hostname",
      ← fields.required "attributes", ← fields.required "resources"⟩

end Placement
