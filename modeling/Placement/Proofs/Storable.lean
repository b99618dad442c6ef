/-
Ops of decisions can be stored.

All that a decision puts into a task is read back from its stored form as it is, but for moments:
identifiers, agents and times for unreachable tasks always (`readsBack_agent`, `readsBack_volumeIds`,
`readsBack_strategy`). So `Decision.Reached.storable` asks for the moments alone: that of the
decision, the version of the run spec, and the deadline of a new reservation.
-/
import Placement.Proofs.OrderedMap
import Placement.Proofs.Reached
import Placement.Proofs.Stored

namespace Placement

/-! ## Identifiers and texts -/

theorem readsBack_string (s : String) : ReadsBack s := rfl

theorem readsBack_generatedId {kind : IdKind} (id : GeneratedId kind) : ReadsBack id := by
  have decoded : ∀ parse : String → Except IdError (GeneratedId kind),
      Json.parsed? parse (.str id.text) = (parse id.text).toOption := fun _ => rfl
  have read := decoded GeneratedId.parse
  rw [GeneratedId.parse, GeneratedId.text, String.toList_ofList, GeneratedId.parseChars_chars] at read
  exact read

theorem readsBack_volumeIds (ids : List VolumeId) : ReadsBack ids := by
  refine readsBack_list fun id _ => ?_
  have decoded : ∀ parse : String → Except IdError VolumeId,
      Json.parsed? parse (.str id.text) = (parse id.text).toOption := fun _ => rfl
  have read := decoded VolumeId.parse
  rw [VolumeId.parse_text] at read
  exact read

theorem readsBack_labels (m : Labels) : ReadsBack m := by
  have fields : ∀ l : List (String × String), (l.map fun e => (e.1, toJson e.2)).mapM
      (fun f => ((ofJson? f.2 : Option String)).map fun v => (f.1, v)) = some l := by
    intro l
    induction l with
    | nil => rfl
    | cons e rest ih =>
      rw [List.map_cons, List.mapM_cons, ih]
      rfl
  show ((m.entries.map fun e => (e.1, toJson e.2)).mapM
    (fun f => ((ofJson? f.2 : Option String)).map fun v => (f.1, v))).map OrderedMap.ofList = some m
  rw [fields, Option.map_some, OrderedMap.ofList_entries]

/-! ## Parts of a task -/

/-- A required field is read as what it holds. -/
theorem required_eq {β : Type} [JsonForm β] {fields : Json.Fields} {name : String} {b : β}
    (h : fields.find? name = some (toJson b)) (readsBack : ReadsBack b) :
    fields.required name = some b := by
  rw [Json.Fields.required, h]
  exact readsBack

theorem nat_eq {fields : Json.Fields} {name : String} {n limit : Nat}
    (h : fields.find? name = some (.ofNat n)) (small : n < limit) :
    fields.nat name limit = some n := by
  have bounds : (0 : Int) ≤ n ∧ (n : Int) < limit :=
    ⟨Int.natCast_nonneg n, Int.ofNat_lt.2 small⟩
  rw [Json.Fields.nat, h]
  show (if (0 : Int) ≤ n ∧ (n : Int) < limit then some (n : Int).toNat else none) = some n
  rw [if_pos bounds, Int.toNat_natCast]

theorem readsBack_agent (a : AgentInfo) : ReadsBack a := by
  let fields : Json.Fields := [("agent_id", toJson a.agentId),
    ("attributes", toJson a.attributes), ("host", toJson a.host)]
  have written : toJson a = .obj fields := rfl
  have read : ∀ fields : Json.Fields, (ofJson? (.obj fields) : Option AgentInfo) = (do
    some ⟨← fields.required "agent_id", ← fields.required "host",
      ← fields.required "attributes"⟩) := fun _ => rfl
  have id : fields.required "agent_id" = some a.agentId :=
    required_eq (by simp [fields, Json.Fields.find?_cons]) (readsBack_generatedId _)
  have host : fields.required "host" = some a.host :=
    required_eq (by simp [fields, Json.Fields.find?_cons]) (readsBack_string _)
  have attributes : fields.required "attributes" = some a.attributes :=
    required_eq (by simp [fields, Json.Fields.find?_cons]) (readsBack_labels _)
  rw [ReadsBack, written, read, id, host, attributes]
  rfl

theorem readsBack_span (s : Span) : ReadsBack s := by
  let fields : Json.Fields := [("nanos", .ofNat s.subNanos), ("secs", .ofNat s.seconds)]
  have written : toJson s = .obj fields := rfl
  have read : ∀ fields : Json.Fields, (ofJson? (.obj fields) : Option Span) = (do
    Span.ofParts? (← fields.nat "secs" UInt64.size) (← fields.nat "nanos" UInt32.size)) :=
      fun _ => rfl
  have seconds : fields.nat "secs" UInt64.size = some s.seconds := by
    refine nat_eq (by simp [fields, Json.Fields.find?_cons]) ?_
    have bounded := s.bounded
    rw [Span.seconds, UInt64.size]
    omega
  have nanos : fields.nat "nanos" UInt32.size = some s.subNanos := by
    refine nat_eq (by simp [fields, Json.Fields.find?_cons]) ?_
    rw [Span.subNanos, UInt32.size]
    omega
  rw [ReadsBack, written, read, seconds, nanos, Option.bind_eq_bind, Option.bind_some,
    Option.bind_some, Span.ofParts?_seconds_subNanos]

theorem readsBack_strategy (u : UnreachableStrategy) : ReadsBack u := by
  let fields : Json.Fields := [("expunge_after", toJson u.expungeAfter),
    ("inactive_after", toJson u.inactiveAfter)]
  have written : toJson u = .obj fields := rfl
  have read : ∀ fields : Json.Fields, (ofJson? (.obj fields) : Option UnreachableStrategy) = (do
    some ⟨← fields.required "inactive_after", ← fields.required "expunge_after"⟩) := fun _ => rfl
  have inactive : fields.required "inactive_after" = some u.inactiveAfter :=
    required_eq (by simp [fields, Json.Fields.find?_cons]) (readsBack_span _)
  have expunge : fields.required "expunge_after" = some u.expungeAfter :=
    required_eq (by simp [fields, Json.Fields.find?_cons]) (readsBack_span _)
  rw [ReadsBack, written, read, inactive, expunge]
  rfl

theorem readsBack_fresh {condition : Condition} {now : Timestamp} (h : ReadsBack now) :
    ReadsBack (TaskStatus.fresh condition now) :=
  (readsBack_status_iff _).2 ⟨h, readsBack_none, readsBack_condition _, h, readsBack_none⟩

theorem toJson_timeout (t : ReservationTimeout) :
    toJson t = .obj [("deadline", toJson t.deadline), ("initiated", toJson t.initiated)] := rfl

theorem readsBack_timeout {t : ReservationTimeout} (hinitiated : ReadsBack t.initiated)
    (hdeadline : ReadsBack t.deadline) : ReadsBack t := by
  let fields : Json.Fields := [("deadline", toJson t.deadline), ("initiated", toJson t.initiated)]
  have written : toJson t = .obj fields := rfl
  have read : ∀ fields : Json.Fields, (ofJson? (.obj fields) : Option ReservationTimeout) = (do
    some ⟨← fields.required "initiated", ← fields.required "deadline"⟩) := fun _ => rfl
  have initiated : fields.required "initiated" = some t.initiated :=
    required_eq (by simp [fields, Json.Fields.find?_cons]) hinitiated
  have deadline : fields.required "deadline" = some t.deadline :=
    required_eq (by simp [fields, Json.Fields.find?_cons]) hdeadline
  rw [ReadsBack, written, read, initiated, deadline]
  rfl

/-- The state of a reservation is read back if its time limit is. -/
theorem readsBack_state {s : ReservationState} (h : ReadsBack s.timeout) : ReadsBack s := by
  cases s with
  | new timeout =>
    have written : toJson (ReservationState.new timeout) =
      .obj [("state", .str "new"), ("timeout", toJson timeout)] := rfl
    have read : ofJson? (toJson timeout) = some timeout := h
    rw [ReadsBack, written, ofJson?, instJsonFormReservationState]
    simp [Json.tagged?, Json.Fields.find?_cons, Json.record?, Json.Fields.optional_eq, read]
  | launched => decide +kernel
  | suspended timeout =>
    have written : toJson (ReservationState.suspended timeout) =
      .obj [("state", .str "suspended"), ("timeout", toJson timeout)] := rfl
    have read : ofJson? (toJson timeout) = some timeout := h
    rw [ReadsBack, written, ofJson?, instJsonFormReservationState]
    simp [Json.tagged?, Json.Fields.find?_cons, Json.record?, Json.Fields.optional_eq, read]

/-- A new reservation with a deadline is read back if its moments are. -/
theorem readsBack_newReservation {ids : List VolumeId} {now deadline : Timestamp}
    (hnow : ReadsBack now) (hdeadline : ReadsBack deadline) :
    ReadsBack (some (⟨ids, .new (some ⟨now, deadline⟩)⟩ : Reservation)) := by
  have timeout : ReadsBack (some (⟨now, deadline⟩ : ReservationTimeout)) :=
    (readsBack_some (by simp [toJson_timeout])).2 (readsBack_timeout hnow hdeadline)
  exact (readsBack_some (by simp [toJson_reservation])).2
    ((readsBack_reservation_iff _).2 ⟨readsBack_volumeIds ids, readsBack_state timeout⟩)

/-! ## Ops of decisions -/

namespace Decision

variable {α : Type} [Amount α] {policy : LaunchPolicy} {gpus : GpuPolicy} {runSpec : RunSpec α}
  {o : Offer α} {known : List Instance} {now : Timestamp} {ids ids' : IdSupply}
  {op : InstanceOp α}

omit [Amount α] in
theorem readsBack_newTask {id : TaskId} {status : TaskStatus} {hostPorts : List Port}
    (version : ReadsBack runSpec.version) (hstatus : ReadsBack status) :
    ReadsBack (newTask id runSpec o status hostPorts) :=
  (readsBack_task_iff _).2 ⟨readsBack_agent _, version, hstatus, readsBack_ports _, readsBack_none,
    readsBack_strategy _⟩

/-- The moments that a decision writes down are read back. -/
structure Dated (policy : LaunchPolicy) (runSpec : RunSpec α) (now : Timestamp) : Prop where
  decided : ReadsBack now
  version : ReadsBack runSpec.version
  deadline : ∀ deadline, now.addMillis? policy.reservationTimeoutMs = some deadline →
    ReadsBack deadline

/-- What an operation records is read back from its stored form. -/
theorem Reached.storable (h : Reached policy gpus runSpec o known now ids op ids')
    (dated : Dated policy runSpec now) : ∀ s ∈ op.stateOps, s.Storable := by
  intro s hs
  cases h with
  | launched m ephemeral found made =>
    obtain ⟨tasks, launches⟩ := launches_of_made made
    obtain ⟨t, -, rfl, -, -, container, hostPorts, rfl⟩ := launches.stateOp hs
    exact readsBack_newTask dated.version (readsBack_fresh dated.decided)
  | relaunched i t m resident hi own alone waits found =>
    obtain rfl := List.mem_singleton.1 hs
    exact ⟨dated.version, readsBack_fresh dated.decided⟩
  | reserved m volumes deadline resident room found created timed =>
    obtain rfl := List.mem_singleton.1 hs
    exact (readsBack_task_iff _).2 ⟨readsBack_agent _, dated.version, readsBack_fresh dated.decided,
      readsBack_ports _, readsBack_newReservation dated.decided (dated.deadline deadline timed),
      readsBack_strategy _⟩

omit [Amount α] in
/-- The moments of the sample round are read back. -/
theorem dated_sample {runSpec : RunSpec α} (version : runSpec.version = ⟨0, 0⟩) :
    Dated .usual runSpec ⟨0, 0⟩ := by
  refine ⟨by decide +kernel, version ▸ by decide +kernel, fun deadline timed => ?_⟩
  have known : (⟨0, 0⟩ : Timestamp).addMillis? LaunchPolicy.usual.reservationTimeoutMs =
    some ⟨300, 0⟩ := by decide +kernel
  obtain rfl := Option.some.inj (known.symm.trans timed)
  decide +kernel

end Decision

end Placement
