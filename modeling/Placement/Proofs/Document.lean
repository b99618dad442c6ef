/-
Stored texts of tasks and instances.

* `Json.Shows`: a value that is the form of something but for the order of its fields. Its text is read as
  what it shows (`Json.Shows.readsBack`) if that is read back from its form.
* `Json.Canonical` says that a form has its fields in order and holds no floating-point numbers; so it shows what
  it is the form of. The forms of all parts of tasks and instances are canonical.
* `readsBack_tasks`: a map of tasks is read back through the texts of their ids.
* `documents_readBack` is the main result.
-/
import Placement.Proofs.Dated
import Placement.Proofs.Grammar
import Placement.Proofs.Relaunch
import Placement.Proofs.Rendering

namespace Placement

/-- A key has one value. -/
theorem OrderedMap.snd_eq_of_mem {κ α : Type} [Ord κ] [Std.TransOrd κ] [Std.LawfulEqOrd κ]
    {m : OrderedMap κ α} {e e' : κ × α} (he : e ∈ m.entries) (he' : e' ∈ m.entries) (key : e.1 = e'.1) :
    e.2 = e'.2 := by
  have found := (find?_eq_some_iff m e.1 e.2).2 he
  rw [key, (find?_eq_some_iff m e'.1 e'.2).2 he'] at found
  exact (Option.some.inj found).symm

/-! ## Fields in order -/

namespace Json

theorem insertField_eq (name : String) (x : Json) (fields : Fields) :
    insertField name x fields = OrderedMap.insertEntry name x fields := by
  induction fields with
  | nil => rfl
  | cons f rest ih =>
    cases h : compare name f.1 <;> simp [insertField, OrderedMap.insertEntry, h, ih]

/-- An object is a map of its fields. -/
theorem ofFields_eq (fields : Fields) : ofFields fields = .obj (OrderedMap.ofList fields).entries := by
  have same (m : OrderedMap String Json) :
      fields.foldl (fun acc f => insertField f.1 f.2 acc) m.entries =
        (fields.foldl (fun m f => m.insert f.1 f.2) m).entries := by
    induction fields generalizing m with
    | nil => rfl
    | cons f rest ih =>
      rw [List.foldl_cons, List.foldl_cons, insertField_eq, ← ih]
      rfl
  exact congrArg Json.obj (same ∅)

theorem ofFields_of_ascending {fields : Fields}
    (h : fields.Pairwise fun a b => compare a.1 b.1 = .lt) : ofFields fields = .obj fields := by
  rw [ofFields_eq, OrderedMap.ofList_entries ⟨fields, h⟩]

theorem normalItems_eq (items : List Json) : normalItems items = items.map normal := by
  induction items with
  | nil => rfl
  | cons x xs ih => rw [normalItems, ih, List.map_cons]

theorem normalFields_eq (fields : Fields) :
    normalFields fields = fields.map fun f => (f.1, f.2.normal) := by
  induction fields with
  | nil => rfl
  | cons f rest ih => rw [normalFields, ih, List.map_cons]

/-- The value has its fields in order, and its text is read as it. -/
structure Canonical (j : Json) : Prop where
  plain : j.Plain
  normal_eq : j.normal = j

namespace Canonical

theorem null : Canonical .null := ⟨.null, rfl⟩

theorem bool (b : Bool) : Canonical (.bool b) := ⟨.bool b, rfl⟩

theorem str (s : String) : Canonical (.str s) := ⟨.str s, rfl⟩

theorem nat {n : Nat} (h : n < 0x10000000000000000) : Canonical (.ofNat n) :=
  ⟨.int (by omega) (by omega), rfl⟩

theorem arr {items : List Json} (h : ∀ x ∈ items, x.Canonical) : Canonical (.arr items) := by
  refine ⟨.arr fun x hx => (h x hx).plain, ?_⟩
  rw [normal, normalItems_eq, List.map_congr_left fun x hx => (h x hx).normal_eq, List.map_id']

theorem obj {fields : Fields} (ascending : fields.Pairwise fun a b => compare a.1 b.1 = .lt)
    (h : ∀ f ∈ fields, f.2.Canonical) : Canonical (.obj fields) := by
  refine ⟨.obj fun f hf => (h f hf).plain, ?_⟩
  have same : fields.map (fun f => (f.1, f.2.normal)) = fields :=
    (List.map_congr_left fun f hf => by rw [(h f hf).normal_eq]).trans (List.map_id' fields)
  rw [normal, normalFields_eq, same, ofFields_of_ascending ascending]

/-- The names of a record decide whether its fields are in order. -/
theorem record {fields : Fields} (names : List String) (h : ∀ f ∈ fields, f.2.Canonical)
    (named : fields.map Prod.fst = names) (ascending : names.Pairwise fun a b => compare a b = .lt) :
    Canonical (.obj fields) := by
  subst named
  exact obj (List.pairwise_map.1 ascending) h

end Canonical

end Json

/-! ## Forms of parts -/

section

variable {α : Type} [JsonForm α]

theorem canonical_option {o : Option α} (h : ∀ a ∈ o, (toJson a).Canonical) : (toJson o).Canonical := by
  cases o with
  | none => exact .null
  | some a => exact h a rfl

theorem canonical_list {xs : List α} (h : ∀ x ∈ xs, (toJson x).Canonical) : (toJson xs).Canonical :=
  .arr (List.forall_mem_map.2 h)

end

theorem canonical_labels (m : Labels) : (toJson m).Canonical := by
  refine .obj (List.pairwise_map.2 m.ascending) ?_
  exact List.forall_mem_map.2 fun e _ => .str e.2

theorem canonical_agent (a : AgentInfo) : (toJson a).Canonical := by
  refine .record ["agent_id", "attributes", "host"] ?_ rfl (by decide)
  simp only [List.forall_mem_cons]
  exact ⟨.str _, canonical_labels _, .str _, nofun⟩

theorem canonical_report (r : StatusReport) : (toJson r).Canonical := by
  refine .record ["healthy", "message", "state", "timestamp"] ?_ rfl (by decide)
  simp only [List.forall_mem_cons]
  exact ⟨canonical_option fun b _ => .bool b, canonical_option fun m _ => .str m, .str _, .str _, nofun⟩

theorem canonical_status (s : TaskStatus) : (toJson s).Canonical := by
  refine .record ["condition", "resource_manager_status", "since", "staged_at", "started_at"] ?_ rfl
    (by decide)
  simp only [List.forall_mem_cons]
  exact ⟨.str _, canonical_option fun r _ => canonical_report r, .str _, .str _,
    canonical_option fun t _ => .str _, nofun⟩

theorem canonical_timeout (t : ReservationTimeout) : (toJson t).Canonical := by
  refine .record ["deadline", "initiated"] ?_ rfl (by decide)
  simp only [List.forall_mem_cons]
  exact ⟨.str _, .str _, nofun⟩

theorem canonical_reservationState (s : ReservationState) : (toJson s).Canonical := by
  cases s with
  | launched => exact .record ["state"] (List.forall_mem_singleton.2 (.str _)) rfl (by decide)
  | new timeout | suspended timeout =>
    refine .record ["state", "timeout"] ?_ rfl (by decide)
    simp only [List.forall_mem_cons]
    exact ⟨.str _, canonical_option fun t _ => canonical_timeout t, nofun⟩

theorem canonical_reservation (r : Reservation) : (toJson r).Canonical := by
  refine .record ["state", "volume_ids"] ?_ rfl (by decide)
  simp only [List.forall_mem_cons]
  exact ⟨canonical_reservationState _, canonical_list fun v _ => .str _, nofun⟩

theorem canonical_span (s : Span) : (toJson s).Canonical := by
  have bounded := s.bounded
  refine .record ["nanos", "secs"] ?_ rfl (by decide)
  simp only [List.forall_mem_cons]
  refine ⟨.nat ?_, .nat ?_, nofun⟩
  · rw [Span.subNanos]
    omega
  · rw [Span.seconds]
    omega

theorem canonical_strategy (u : UnreachableStrategy) : (toJson u).Canonical := by
  refine .record ["expunge_after", "inactive_after"] ?_ rfl (by decide)
  simp only [List.forall_mem_cons]
  exact ⟨canonical_span _, canonical_span _, nofun⟩

theorem canonical_port (p : Port) : (toJson p).Canonical := .nat (by have := p.isLt; omega)

theorem canonical_task (t : Task) : (toJson t).Canonical := by
  refine .record ["agent", "host_ports", "id", "reservation", "run_spec_version", "status",
    "unreachable_strategy"] ?_ rfl (by decide)
  simp only [List.forall_mem_cons]
  exact ⟨canonical_agent _, canonical_list fun p _ => canonical_port p, .str _,
    canonical_option fun r _ => canonical_reservation r, .str _, canonical_status _,
    canonical_strategy _, nofun⟩

/-! ## Instances -/

theorem canonical_instanceState (s : InstanceState) : (toJson s).Canonical := by
  refine .record ["condition", "healthy", "since"] ?_ rfl (by decide)
  simp only [List.forall_mem_cons]
  exact ⟨.str _, canonical_option fun b _ => .bool b, .str _, nofun⟩

/-- The fields of a map of tasks: the form of each under the text of its key. -/
def taskEntries (m : OrderedMap TaskId Task) : Json.Fields :=
  (OrderedMap.ofList (m.entries.map fun e => (e.1.text, toJson e.2))).entries

theorem toJson_tasks (m : OrderedMap TaskId Task) : toJson m = .obj (taskEntries m) :=
  Json.ofFields_eq _

/-- No two tasks stand under one text. -/
theorem mem_taskEntries {m : OrderedMap TaskId Task} {f : String × Json} :
    f ∈ taskEntries m ↔ ∃ e ∈ m.entries, f = (e.1.text, toJson e.2) := by
  have unique : ∀ f ∈ m.entries.map (fun e => (e.1.text, toJson e.2)),
      ∀ f' ∈ m.entries.map (fun e => (e.1.text, toJson e.2)), f.1 = f'.1 → f.2 = f'.2 := by
    intro f hf f' hf' same
    obtain ⟨e, he, rfl⟩ := List.mem_map.1 hf
    obtain ⟨e', he', rfl⟩ := List.mem_map.1 hf'
    exact congrArg toJson
      (OrderedMap.snd_eq_of_mem he he' (injective_of_readBack TaskId.parse_text same))
  rw [taskEntries, ← OrderedMap.find?_eq_some_iff, OrderedMap.find?_ofList_eq_some_iff unique,
    List.mem_map]
  exact exists_congr fun e => and_congr_right fun _ => eq_comm

theorem canonical_tasks (m : OrderedMap TaskId Task) : (toJson m).Canonical := by
  rw [toJson_tasks]
  refine .obj (OrderedMap.ascending _) fun f hf => ?_
  obtain ⟨e, -, rfl⟩ := mem_taskEntries.1 hf
  exact canonical_task e.2

theorem canonical_instance (i : Instance) : (toJson i).Canonical := by
  refine .record ["agent", "id", "run_spec_id", "run_spec_version", "state", "tasks"] ?_ rfl (by decide)
  simp only [List.forall_mem_cons]
  exact ⟨canonical_agent _, .str _, .str _, .str _, canonical_instanceState _, canonical_tasks _, nofun⟩

/-- An entry is read back from its key's text and its value's form. -/
def entryOf? (f : String × Json) : Option (TaskId × Task) := do
  some (← (TaskId.parse f.1).toOption, ← ofJson? f.2)

/-- Tasks are read back under the texts of their ids. -/
theorem readsBack_tasks {m : OrderedMap TaskId Task} (h : ∀ e ∈ m.entries, ReadsBack e.2) :
    ReadsBack m := by
  have entry : ∀ e ∈ m.entries, entryOf? (e.1.text, toJson e.2) = some e := by
    intro e he
    rw [entryOf?, TaskId.parse_text, h e he]
    rfl
  obtain ⟨entries, read⟩ : ∃ entries, (taskEntries m).mapM entryOf? = some entries := by
    refine Pool.exists_mapM fun f hf => ?_
    obtain ⟨e, he, rfl⟩ := mem_taskEntries.1 hf
    exact ⟨e, entry e he⟩
  have same (e : TaskId × Task) : e ∈ entries ↔ e ∈ m.entries := by
    rw [← Pool.filterMap_of_mapM read, List.mem_filterMap]
    constructor
    · rintro ⟨f, hf, he⟩
      obtain ⟨e', he', rfl⟩ := mem_taskEntries.1 hf
      rw [entry e' he', Option.some.injEq] at he
      rwa [← he]
    · intro he
      exact ⟨_, mem_taskEntries.2 ⟨e, he, rfl⟩, entry e he⟩
  have unique : ∀ e ∈ entries, ∀ e' ∈ entries, e.1 = e'.1 → e.2 = e'.2 := by
    intro e he e' he' key
    exact OrderedMap.snd_eq_of_mem ((same e).1 he) ((same e').1 he') key
  have rebuilt : OrderedMap.ofList entries = m := by
    refine OrderedMap.ext_find? fun k => Option.ext fun v => ?_
    rw [OrderedMap.find?_ofList_eq_some_iff unique, same, OrderedMap.find?_eq_some_iff]
  show ofJson? (toJson m) = some m
  rw [toJson_tasks]
  show ((taskEntries m).mapM entryOf?).bind (fun entries => some (OrderedMap.ofList entries)) = _
  rw [read, Option.bind_some, rebuilt]

theorem readsBack_runSpecId (id : RunSpecId) : ReadsBack id := by
  have decoded : ∀ parse : String → Except IdError RunSpecId,
      Json.parsed? parse (.str id.path) = (parse id.path).toOption := fun _ => rfl
  have read := decoded RunSpecId.parse
  rw [RunSpecId.parse_path] at read
  exact read

/-- The state of an instance is read back if its moment is. -/
theorem readsBack_instanceState {s : InstanceState} (h : ReadsBack s.since) : ReadsBack s := by
  let fields : Json.Fields := [("condition", toJson s.condition), ("healthy", toJson s.healthy),
    ("since", toJson s.since)]
  have written : toJson s = .obj fields := rfl
  have read : ∀ fields : Json.Fields, (ofJson? (.obj fields) : Option InstanceState) = (do
    some ⟨← fields.required "condition", ← fields.required "since", ← fields.optional "healthy"⟩) :=
      fun _ => rfl
  have condition : fields.required "condition" = some s.condition :=
    required_eq (by simp [fields, Json.Fields.find?_cons]) (readsBack_condition _)
  have since : fields.required "since" = some s.since :=
    required_eq (by simp [fields, Json.Fields.find?_cons]) h
  have healthy : fields.optional "healthy" = some s.healthy :=
    optional_eq_some (by simp [fields, Json.Fields.find?_cons]) (readsBack_health _)
  rw [ReadsBack, written, read, condition, since, healthy]
  rfl

/-- All moments that an instance carries. -/
def Instance.moments (i : Instance) : List Timestamp :=
  i.runSpecVersion :: i.state.since :: i.tasks.values.flatMap Task.moments

/-- An instance is read back from its stored form if its moments are on the calendar. -/
theorem Instance.readsBack_of_dated {i : Instance} (h : ∀ m ∈ i.moments, m.OnCalendar) :
    ReadsBack i := by
  obtain ⟨version, others⟩ := List.forall_mem_cons.1 h
  obtain ⟨since, others⟩ := List.forall_mem_cons.1 others
  have tasks : ReadsBack i.tasks := by
    refine readsBack_tasks fun e he => Task.readsBack_of_dated fun m hm => others m ?_
    exact List.mem_flatMap.2 ⟨e.2, List.mem_map.2 ⟨e, he, rfl⟩, hm⟩
  let fields : Json.Fields := [("agent", toJson i.agent), ("id", toJson i.id),
    ("run_spec_id", toJson i.runSpecId), ("run_spec_version", toJson i.runSpecVersion),
    ("state", toJson i.state), ("tasks", toJson i.tasks)]
  have written : toJson i = .obj fields := rfl
  have read : ∀ fields : Json.Fields, (ofJson? (.obj fields) : Option Instance) = (do
    some ⟨← fields.required "id", ← fields.required "run_spec_id", ← fields.required "agent",
      ← fields.required "run_spec_version", ← fields.required "state",
      ← fields.required "tasks"⟩) := fun _ => rfl
  have id : fields.required "id" = some i.id :=
    required_eq (by simp [fields, Json.Fields.find?_cons]) (readsBack_generatedId _)
  have runSpecId : fields.required "run_spec_id" = some i.runSpecId :=
    required_eq (by simp [fields, Json.Fields.find?_cons]) (readsBack_runSpecId _)
  have agent : fields.required "agent" = some i.agent :=
    required_eq (by simp [fields, Json.Fields.find?_cons]) (readsBack_agent _)
  have moment : fields.required "run_spec_version" = some i.runSpecVersion :=
    required_eq (by simp [fields, Json.Fields.find?_cons]) version.readsBack
  have state : fields.required "state" = some i.state :=
    required_eq (by simp [fields, Json.Fields.find?_cons]) (readsBack_instanceState since.readsBack)
  have held : fields.required "tasks" = some i.tasks :=
    required_eq (by simp [fields, Json.Fields.find?_cons]) tasks
  rw [ReadsBack, written, read, id, runSpecId, agent, moment, state, held]
  rfl

/-! ## Texts -/

/-- The value is the form of `a`, with the fields of its objects in any order. -/
structure Json.Shows {α : Type} [JsonForm α] (j : Json) (a : α) : Prop where
  plain : j.Plain
  normal_eq : j.normal = toJson a

theorem Json.Canonical.shows {α : Type} [JsonForm α] {a : α} (h : (toJson a).Canonical) :
    (toJson a).Shows a := ⟨h.plain, h.normal_eq⟩

/-- What is read back from its form is read back from each text of it. -/
theorem Json.Shows.readsBack {α : Type} [JsonForm α] {j : Json} {a : α} (h : j.Shows a)
    (readsBack : ReadsBack a) : ofDocument? j.render = some a := by
  rw [ofDocument?, Json.parse?_render h.plain, Option.bind_some, h.normal_eq]
  exact readsBack

/-- Moments of the years 0 to 9999, leap seconds apart, are on the calendar. -/
theorem Timestamp.onCalendar_of_year {t : Timestamp} (first : 0 ≤ t.date.year)
    (last : t.date.year ≤ 9999) (short : t.nanos < 1000000000) : t.OnCalendar := by
  have kept : firstYear ≤ t.date.year ∧ t.date.year ≤ lastYear := by
    rw [firstYear, lastYear]
    omega
  exact ⟨Bool.and_eq_true_iff.2 ⟨decide_eq_true kept.1, decide_eq_true kept.2⟩, by omega,
    fun leap => absurd short (Nat.not_lt.2 leap)⟩

/-- A task is read back from its document, and so is an instance with all its tasks, if the moments in
it are on the calendar. The order in which the fields are written does not matter. -/
theorem documents_readBack :
    (∀ t : Task, (∀ m ∈ t.moments, m.OnCalendar) →
      ofDocument? (document t) = some t ∧ ∀ j : Json, j.Shows t → ofDocument? j.render = some t) ∧
    (∀ i : Instance, (∀ m ∈ i.moments, m.OnCalendar) →
      ofDocument? (document i) = some i ∧ ∀ j : Json, j.Shows i → ofDocument? j.render = some i) := by
  constructor
  · intro t dated
    have readsBack := Task.readsBack_of_dated dated
    exact ⟨(canonical_task t).shows.readsBack readsBack, fun j shows => shows.readsBack readsBack⟩
  · intro i dated
    have readsBack := Instance.readsBack_of_dated dated
    exact ⟨(canonical_instance i).shows.readsBack readsBack, fun j shows => shows.readsBack readsBack⟩

/-- A task that holds a reservation for a while, with a fraction of a second in each of its moments. -/
def Sample.datedTask : Task :=
  { Sample.waitingTask with
    runSpecVersion := ⟨1717243200, 250000000⟩
    status := ⟨⟨1717243200, 1⟩, none, .running, ⟨1717243201, 120000⟩,
      some ⟨.running, some true, some "up \"and\" running\n", ⟨1717243201, 999999999⟩⟩⟩
    hostPorts := [8080, 31000]
    reservation := some ⟨[Sample.volume], .suspended (some ⟨⟨0, 0⟩, ⟨300, 500⟩⟩)⟩ }

/-- An instance of one task. -/
def Sample.datedInstance : Instance where
  id := ⟨.ofNat 1⟩
  runSpecId := Sample.waitingTask.id.runSpecId
  agent := Sample.waitingTask.agent
  runSpecVersion := ⟨1717243200, 250000000⟩
  state := ⟨.running, ⟨1717243201, 120000⟩, some true⟩
  tasks := .ofList [(Sample.datedTask.id, Sample.datedTask)]

/-- The task with the fields in another order. -/
def Sample.reordered : Json :=
  .obj [("id", toJson Sample.datedTask.id), ("agent", toJson Sample.datedTask.agent),
    ("run_spec_version", toJson Sample.datedTask.runSpecVersion),
    ("status", toJson Sample.datedTask.status), ("host_ports", toJson Sample.datedTask.hostPorts),
    ("reservation", toJson Sample.datedTask.reservation),
    ("unreachable_strategy", .obj [("inactive_after", .obj [("secs", .ofNat 300), ("nanos", .ofNat 0)]),
      ("expunge_after", .obj [("secs", .ofNat 600), ("nanos", .ofNat 0)])])]

theorem Sample.shows_reordered : Sample.reordered.Shows Sample.datedTask := by
  have span (seconds : Nat) (h : seconds < 1000) :
      Json.Plain (.obj [("secs", .ofNat seconds), ("nanos", .ofNat 0)]) := by
    refine .obj ?_
    simp only [List.forall_mem_cons]
    exact ⟨(Json.Canonical.nat (by omega)).plain, (Json.Canonical.nat (by decide)).plain, nofun⟩
  refine ⟨.obj ?_, rfl⟩
  simp only [List.forall_mem_cons]
  refine ⟨.str _, (canonical_agent _).plain, .str _, (canonical_status _).plain,
    (canonical_list fun p _ => canonical_port p).plain,
    (canonical_option fun r _ => canonical_reservation r).plain, .obj ?_, nofun⟩
  simp only [List.forall_mem_cons]
  exact ⟨span 300 (by decide), span 600 (by decide), nofun⟩

/-- The moments are of the years 0 to 9999, and the documents give the values back. -/
theorem documents_readBack_sample :
    (∀ m ∈ Sample.datedTask.moments, 0 ≤ m.date.year ∧ m.date.year ≤ 9999 ∧ m.nanos < 1000000000) ∧
    ofDocument? (document Sample.datedTask) = some Sample.datedTask ∧
    ofDocument? Sample.reordered.render = some Sample.datedTask ∧
    ofDocument? (document Sample.datedInstance) = some Sample.datedInstance := by
  have years : ∀ m ∈ Sample.datedTask.moments,
      0 ≤ m.date.year ∧ m.date.year ≤ 9999 ∧ m.nanos < 1000000000 := by decide
  have years' : ∀ m ∈ Sample.datedInstance.moments,
      0 ≤ m.date.year ∧ m.date.year ≤ 9999 ∧ m.nanos < 1000000000 := by decide
  have dated {moments : List Timestamp}
      (h : ∀ m ∈ moments, 0 ≤ m.date.year ∧ m.date.year ≤ 9999 ∧ m.nanos < 1000000000) :
      ∀ m ∈ moments, m.OnCalendar :=
    fun m hm => Timestamp.onCalendar_of_year (h m hm).1 (h m hm).2.1 (h m hm).2.2
  obtain ⟨task, reordered⟩ := documents_readBack.1 Sample.datedTask (dated years)
  exact ⟨years, task, reordered _ Sample.shows_reordered,
    (documents_readBack.2 Sample.datedInstance (dated years')).1⟩

end Placement
