/-
The stored form of a task, field by field.

A record is read back if its fields are. `readsBack_iff_fields` says so for tasks in both directions,
so that a task that comes of an op is read back as soon as the known task is and what the op brings
(`StateOp.Storable`); this is `StateOp.Storable.resolve`. The id needs no assumption
(`id_of_ofJson?_toJson`).
-/
import Placement.Form.Task
import Placement.Proofs.Identifier
import Placement.Proofs.Lifecycle

namespace Placement

/-- The value is read back from its JSON form. -/
def ReadsBack {α : Type} [JsonForm α] (a : α) : Prop := ofJson? (toJson a) = some a

instance {α : Type} [JsonForm α] [DecidableEq α] (a : α) : Decidable (ReadsBack a) :=
  inferInstanceAs (Decidable (ofJson? (toJson a) = some a))

section

variable {α : Type} [JsonForm α]

/-! ## Fields -/

theorem Json.Fields.find?_cons (fields : Json.Fields) (name name' : String) (j : Json) :
    Json.Fields.find? ((name', j) :: fields) name =
      if name' = name then some j else fields.find? name := by
  by_cases h : name' = name <;> simp [Json.Fields.find?, h]

/-- An optional field that is there is read as a value that may be null. -/
theorem Json.Fields.optional_eq (fields : Json.Fields) (name : String) :
    fields.optional name = (fields.find? name).elim (some none) (ofJson? : Json → Option (Option α)) := by
  rw [Json.Fields.optional]
  cases fields.find? name with
  | none => rfl
  | some j => cases j <;> rfl

theorem ReadsBack.ite {a b : α} (ha : ReadsBack a) (hb : ReadsBack b) (p : Prop) [Decidable p] :
    ReadsBack (if p then a else b) := by
  split
  · exact ha
  · exact hb

theorem readsBack_none : ReadsBack (none : Option α) := rfl

theorem readsBack_some {a : α} (h : toJson a ≠ .null) : ReadsBack (some a) ↔ ReadsBack a := by
  have hform : (ofJson? (toJson (some a)) : Option (Option α)) = (ofJson? (toJson a)).map some := by
    show (ofJson? (toJson a) : Option (Option α)) = _
    cases hj : toJson a with
    | null => exact absurd hj h
    | _ => rfl
  rw [ReadsBack, hform, ReadsBack]
  cases (ofJson? (toJson a) : Option α) <;> simp

theorem readsBack_list {xs : List α} (h : ∀ x ∈ xs, ReadsBack x) : ReadsBack xs := by
  show (xs.map toJson).mapM ofJson? = some xs
  induction xs with
  | nil => rfl
  | cons x rest ih =>
    have hx : ofJson? (toJson x) = some x := h x List.mem_cons_self
    rw [List.map_cons, List.mapM_cons, hx, ih fun y hy => h y (List.mem_cons_of_mem x hy)]
    rfl

end

theorem readsBack_fin {n : Nat} (x : Fin n) : ReadsBack x := by
  show (if h : (x.val : Int).toNat < n ∧ 0 ≤ (x.val : Int) then _ else _) = _
  simp

theorem readsBack_ports (ports : List Port) : ReadsBack ports :=
  readsBack_list fun p _ => readsBack_fin p

theorem readsBack_condition (c : Condition) : ReadsBack c := by
  cases c <;> decide +kernel

/-! ## Statuses and reservations -/

section Status

variable (s : TaskStatus)

theorem toJson_status : toJson s = .obj [("condition", toJson s.condition),
    ("resource_manager_status", toJson s.report), ("since", toJson s.since),
    ("staged_at", toJson s.stagedAt), ("started_at", toJson s.startedAt)] := rfl

theorem ofJson?_status (fields : Json.Fields) : (ofJson? (.obj fields) : Option TaskStatus) = (do
    some ⟨← fields.required "staged_at", ← fields.optional "started_at",
      ← fields.required "condition", ← fields.required "since",
      ← fields.optional "resource_manager_status"⟩) := rfl

theorem readsBack_status_iff : ReadsBack s ↔ ReadsBack s.stagedAt ∧ ReadsBack s.startedAt ∧
    ReadsBack s.condition ∧ ReadsBack s.since ∧ ReadsBack s.report := by
  unfold ReadsBack
  rw [toJson_status, ofJson?_status]
  simp only [Json.Fields.required, Json.Fields.optional_eq, Json.Fields.find?_cons, Option.bind_some,
    Option.bind_eq_bind, Option.bind_eq_some_iff, Option.elim_some, reduceIte, String.reduceEq]
  constructor
  · rintro ⟨_, h₁, _, h₂, _, h₃, _, h₄, _, h₅, h⟩
    obtain rfl := Option.some.inj h
    exact ⟨h₁, h₂, h₃, h₄, h₅⟩
  · rintro ⟨h₁, h₂, h₃, h₄, h₅⟩
    exact ⟨_, h₁, _, h₂, _, h₃, _, h₄, _, h₅, rfl⟩

end Status

section Reservation

variable (r : Reservation)

theorem toJson_reservation :
    toJson r = .obj [("state", toJson r.state), ("volume_ids", toJson r.volumeIds)] := rfl

theorem ofJson?_reservation (fields : Json.Fields) : (ofJson? (.obj fields) : Option Reservation) =
    (do some ⟨← fields.required "volume_ids", ← fields.required "state"⟩) := rfl

theorem readsBack_reservation_iff : ReadsBack r ↔ ReadsBack r.volumeIds ∧ ReadsBack r.state := by
  unfold ReadsBack
  rw [toJson_reservation, ofJson?_reservation]
  simp only [Json.Fields.required, Json.Fields.find?_cons, Option.bind_some, Option.bind_eq_bind,
    Option.bind_eq_some_iff, reduceIte, String.reduceEq]
  constructor
  · rintro ⟨_, h₁, _, h₂, h⟩
    obtain rfl := Option.some.inj h
    exact ⟨h₁, h₂⟩
  · rintro ⟨h₁, h₂⟩
    exact ⟨_, h₁, _, h₂, rfl⟩

/-- A reservation that is read back still is once its state is another one that is. -/
theorem readsBack_withState {o : Option Reservation} (h : ReadsBack o) {state : ReservationState}
    (hstate : ReadsBack state) : ReadsBack (o.map fun r => { r with state := state }) := by
  cases o with
  | none => exact readsBack_none
  | some r =>
    rw [readsBack_some (by simp [toJson_reservation]), readsBack_reservation_iff] at h
    exact (readsBack_some (by simp [toJson_reservation])).2
      ((readsBack_reservation_iff _).2 ⟨h.1, hstate⟩)

end Reservation

/-! ## Tasks -/

section Task

variable (t : Task)

theorem toJson_task : toJson t = .obj [("agent", toJson t.agent), ("host_ports", toJson t.hostPorts),
    ("id", toJson t.id), ("reservation", toJson t.reservation),
    ("run_spec_version", toJson t.runSpecVersion), ("status", toJson t.status),
    ("unreachable_strategy", toJson t.unreachableStrategy)] := rfl

theorem ofJson?_task (fields : Json.Fields) : (ofJson? (.obj fields) : Option Task) = (do
    some ⟨← fields.required "id", ← fields.required "agent", ← fields.required "run_spec_version",
      ← fields.required "status", ← fields.required "host_ports", ← fields.optional "reservation",
      ← match fields.find? "unreachable_strategy" with
        | some j => ofJson? j
        | none => some .usual⟩) := rfl

theorem readsBack_taskId (id : TaskId) : ReadsBack id := by
  have decoded : ∀ parse : String → Except IdError TaskId,
      Json.parsed? parse (.str id.text) = (parse id.text).toOption := fun _ => rfl
  have read := decoded TaskId.parse
  rw [TaskId.parse_text] at read
  exact read

/-- A stored task is decoded field by field. -/
theorem ofJson?_toJson_task : (ofJson? (toJson t) : Option Task) = (do
    some ⟨← ofJson? (toJson t.id), ← ofJson? (toJson t.agent), ← ofJson? (toJson t.runSpecVersion),
      ← ofJson? (toJson t.status), ← ofJson? (toJson t.hostPorts), ← ofJson? (toJson t.reservation),
      ← ofJson? (toJson t.unreachableStrategy)⟩) := by
  rw [toJson_task, ofJson?_task]
  simp only [Json.Fields.required, Json.Fields.optional_eq, Json.Fields.find?_cons, Option.bind_some,
    Option.elim_some, reduceIte, String.reduceEq]

/-- Whatever else is lost, a stored task is decoded under its own id. -/
theorem id_of_ofJson?_toJson {t u : Task} (h : ofJson? (toJson t) = some u) : u.id = t.id := by
  rw [ofJson?_toJson_task, readsBack_taskId t.id] at h
  simp only [Option.bind_eq_bind, Option.bind_some, Option.bind_eq_some_iff] at h
  obtain ⟨_, -, _, -, _, -, _, -, _, -, _, -, h⟩ := h
  rw [← Option.some.inj h]

theorem readsBack_task_iff : ReadsBack t ↔ ReadsBack t.agent ∧ ReadsBack t.runSpecVersion ∧
    ReadsBack t.status ∧ ReadsBack t.hostPorts ∧ ReadsBack t.reservation ∧
      ReadsBack t.unreachableStrategy := by
  unfold ReadsBack
  rw [ofJson?_toJson_task, readsBack_taskId t.id]
  simp only [Option.bind_eq_bind, Option.bind_some, Option.bind_eq_some_iff]
  constructor
  · rintro ⟨_, h₁, _, h₂, _, h₃, _, h₄, _, h₅, _, h₆, h⟩
    cases t
    simp only [Option.some.injEq, Task.mk.injEq] at h
    obtain ⟨-, rfl, rfl, rfl, rfl, rfl, rfl⟩ := h
    exact ⟨h₁, h₂, h₃, h₄, h₅, h₆⟩
  · rintro ⟨h₁, h₂, h₃, h₄, h₅, h₆⟩
    exact ⟨_, h₁, _, h₂, _, h₃, _, h₄, _, h₅, _, h₆, rfl⟩

end Task

/-! ## Tasks that come of ops -/

theorem toJson_timestamp (t : Timestamp) : toJson t = .str (t.render .letter) := rfl

theorem toJson_report (r : StatusReport) : toJson r = .obj [("healthy", toJson r.healthy),
    ("message", toJson r.message), ("state", toJson r.state), ("timestamp", toJson r.timestamp)] := rfl

theorem readsBack_some_timestamp {t : Timestamp} (h : ReadsBack t) : ReadsBack (some t) :=
  (readsBack_some (by simp [toJson_timestamp])).2 h

theorem readsBack_some_report {r : StatusReport} (h : ReadsBack r) : ReadsBack (some r) :=
  (readsBack_some (by simp [toJson_report])).2 h

/-- What the op brings of a task is read back from its stored form. -/
def StateOp.Storable : StateOp → Prop
  | launchEphemeral t => ReadsBack t
  | reserve t => ReadsBack t
  | launchOnReservation _ version status _ => ReadsBack version ∧ ReadsBack status
  | report _ r now => ReadsBack r ∧ ReadsBack now
  | reservationTimeout _ => True
  | forceExpunge _ => True
  | markUnreachableInactive _ => True

/-- A task that is read back still is after an op whose part of it is. -/
theorem Task.Step.readsBack {t u : Task} {op : StateOp} (h : t.Step op (some u))
    (storable : op.Storable) (ht : ReadsBack t) : ReadsBack u := by
  obtain ⟨agent, version, status, hostPorts, reservation, strategy⟩ := (readsBack_task_iff t).1 ht
  obtain ⟨stagedAt, startedAt, condition, since, report⟩ := (readsBack_status_iff _).1 status
  cases h with
  | kept => exact ht
  | launched id version' status' hostPorts' waits =>
    obtain ⟨hversion, hstatus⟩ := storable
    exact (readsBack_task_iff _).2 ⟨agent, hversion, hstatus, readsBack_ports _,
      readsBack_withState reservation (by decide +kernel), strategy⟩
  | suspended id r now held runs live holds ends =>
    obtain ⟨hreport, hnow⟩ := storable
    have suspends : ReadsBack (t.reservation.map fun r => { r with state := .suspended none }) :=
      readsBack_withState reservation (by decide +kernel)
    rw [holds] at suspends
    exact (readsBack_task_iff _).2 ⟨agent, version,
      (readsBack_status_iff _).2 ⟨stagedAt, startedAt, readsBack_condition _, hnow,
        readsBack_some_report hreport⟩,
      readsBack_ports _, suspends, strategy⟩
  | moved id r now runs live stays =>
    obtain ⟨hreport, hnow⟩ := storable
    exact (readsBack_task_iff _).2 ⟨agent, version,
      (readsBack_status_iff _).2 ⟨stagedAt, .ite (readsBack_some_timestamp hnow) startedAt _,
        readsBack_condition _, since.ite hnow _, readsBack_some_report hreport⟩,
      hostPorts, reservation, strategy⟩
  | inactive id unreachable =>
    exact (readsBack_task_iff _).2 ⟨agent, version,
      (readsBack_status_iff _).2 ⟨stagedAt, startedAt, readsBack_condition _, since, report⟩,
      hostPorts, reservation, strategy⟩

/-- Whatever an op leaves known is read back, if what was known and what the op brings is. -/
theorem StateOp.Storable.resolve {op : StateOp} (storable : op.Storable) {current : Option Task}
    (h : ∀ t, current = some t → ReadsBack t) {t : Task}
    (ht : (op.resolve current).follow current = some t) : ReadsBack t := by
  cases current with
  | none =>
    cases op with
    | launchEphemeral new => exact Option.some.inj ht ▸ storable
    | reserve new => exact Option.some.inj ht ▸ storable
    | _ => cases ht
  | some u =>
    have step := Task.step_resolve u op
    rw [ht] at step
    exact step.readsBack storable (h u rfl)

end Placement
