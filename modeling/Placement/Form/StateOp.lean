/-
JSON forms of state ops, of changes and of instance operations.
-/
import Placement.Change
import Placement.Form.Launch
import Placement.Launch.Operation
import Placement.Matching.Reason
import Placement.Matching.Selector

namespace Placement

instance : JsonForm StateOp where
  toJson op :=
    let type := ("type", Json.str op.kind.name)
    match op with
    | .launchEphemeral t => .obj [("task", toJson t), type]
    | .reserve t => .obj [("task", toJson t), type]
    | .launchOnReservation id version status hostPorts =>
      .obj [("host_ports", toJson hostPorts), ("run_spec_version", toJson version),
        ("status", toJson status), ("task_id", toJson id), type]
    | .report id report now =>
      .obj [("now", toJson now), ("status", toJson report), ("task_id", toJson id), type]
    | .reservationTimeout id => .obj [("task_id", toJson id), type]
    | .forceExpunge id => .obj [("task_id", toJson id), type]
    | .markUnreachableInactive id => .obj [("task_id", toJson id), type]
  ofJson?
    | .obj fields => do
      let type : String ← Json.Fields.required fields "type"
      match type with
      | "launch_ephemeral" => some (.launchEphemeral (← Json.Fields.required fields "task"))
      | "reserve" => some (.reserve (← Json.Fields.required fields "task"))
      | "launch_on_reservation" =>
        some (.launchOnReservation (← Json.Fields.required fields "task_id")
          (← Json.Fields.required fields "run_spec_version")
          (← Json.Fields.required fields "status") (← Json.Fields.required fields "host_ports"))
      | "mesos_update" =>
        some (.report (← Json.Fields.required fields "task_id")
          (← Json.Fields.required fields "status") (← Json.Fields.required fields "now"))
      | "reservation_timeout" =>
        some (.reservationTimeout (← Json.Fields.required fields "task_id"))
      | "force_expunge" => some (.forceExpunge (← Json.Fields.required fields "task_id"))
      | "mark_unreachable_inactive" =>
        some (.markUnreachableInactive (← Json.Fields.required fields "task_id"))
      | _ => none
    | _ => none

/-- The name of an error of a change. -/
def ChangeError.name : ChangeError → String
  | unknownTask _ _ => "UnknownTask"
  | terminalTask _ _ _ => "TerminalTask"
  | alreadyExists _ => "AlreadyExists"
  | invalidTransition _ _ _ => "InvalidTransition"
  | tracker _ _ => "Tracker"
  | persist _ _ => "Persist"
  | unverified _ _ _ => "Unverified"
  | deadlineExceeded _ => "DeadlineExceeded"
  | unavailable => "Unavailable"

/-- A failure is read without its error. -/
instance : JsonForm Change where
  toJson
    | .update new old =>
      .obj [("kind", .str "update"), ("new", toJson new), ("old", toJson old)]
    | .expunge t => .obj [("kind", .str "expunge"), ("task", toJson t)]
    | .noChange id => .obj [("kind", .str "no_change"), ("task_id", toJson id)]
    | .failure e =>
      .obj [("error", .str e.name), ("kind", .str "failure"), ("message", .str e.message)]
  ofJson?
    | .obj fields => do
      let kind : String ← Json.Fields.required fields "kind"
      match kind with
      | "update" =>
        some (.update (← Json.Fields.required fields "new") (← Json.Fields.optional fields "old"))
      | "expunge" => some (.expunge (← Json.Fields.required fields "task"))
      | "no_change" => some (.noChange (← Json.Fields.required fields "task_id"))
      | "failure" => some (.failure .unavailable)
      | _ => none
    | _ => none

/-- An instance operation is written with all that it sends, records and uses. -/
def InstanceOp.toJson {α : Type} [JsonForm α] (op : InstanceOp α) : Json :=
  .obj [("consumed", Placement.toJson op.consumed), ("kind", .str op.kindName),
    ("state_ops", Placement.toJson op.stateOps), ("wire", Placement.toJson op.wireOperations)]

instance : JsonForm MismatchReason where
  toJson r := .str r.name
  ofJson? := Json.named? MismatchReason.all MismatchReason.name

/-- A selector names its filter, and the labels if the filter has any. -/
def Selector.ofJson? : Json → Option Selector
  | .obj fields => do
    let roles : Roles ← Json.Fields.required fields "roles"
    let filter : String ← Json.Fields.required fields "reservation"
    match filter with
    | "unreserved" => some ⟨roles, .unreserved⟩
    | "reserved_with" => some ⟨roles, .reservedWith (← Json.Fields.required fields "labels")⟩
    | "prefer_reserved" => some ⟨roles, .preferReserved (← Json.Fields.required fields "labels")⟩
    | _ => none
  | _ => none

end Placement
