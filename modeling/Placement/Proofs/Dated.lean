/-
Whatever carries moments of the calendar is read back from its stored form.

All else that a task consists of is read back as it is, so the moments decide (`Task.readsBack_of_dated`). An op
whose moments are all on the calendar (`StateOp.Dated`) can therefore be stored (`StateOp.Dated.storable`), and
nothing more needs to be known of it.
-/
import Placement.Proofs.Moment
import Placement.Proofs.Storable

namespace Placement

/-! ## Moments -/

namespace Timestamp

instance (t : Timestamp) : Decidable t.OnCalendar :=
  decidable_of_iff
    (t.inRange = true ∧ t.nanos < 2000000000 ∧ (1000000000 ≤ t.nanos → t.seconds % 60 = 59))
    ⟨fun h => ⟨h.1, h.2.1, h.2.2⟩, fun h => ⟨h.inRange, h.short, h.leap⟩⟩

theorem OnCalendar.readsBack {t : Timestamp} (h : t.OnCalendar) : ReadsBack t :=
  parse?_render h .letter

end Timestamp

def TaskStatus.moments (s : TaskStatus) : List Timestamp :=
  s.stagedAt :: s.since :: (s.startedAt.toList ++ s.report.toList.map (·.timestamp))

def ReservationState.moments (s : ReservationState) : List Timestamp :=
  s.timeout.toList.flatMap fun t => [t.initiated, t.deadline]

/-- All moments that a task carries. -/
def Task.moments (t : Task) : List Timestamp :=
  t.runSpecVersion :: (t.status.moments ++ t.reservation.toList.flatMap (·.state.moments))

/-- All moments that an op carries. -/
def StateOp.moments : StateOp → List Timestamp
  | launchEphemeral t => t.moments
  | reserve t => t.moments
  | launchOnReservation _ version status _ => version :: status.moments
  | report _ r now => [r.timestamp, now]
  | _ => []

/-- The moments are those that the calendar has. -/
def StateOp.Dated (op : StateOp) : Prop := ∀ t ∈ op.moments, t.OnCalendar

instance (op : StateOp) : Decidable op.Dated :=
  inferInstanceAs (Decidable (∀ t ∈ op.moments, t.OnCalendar))

/-! ## Reading back -/

theorem readsBack_reportedState (s : ReportedState) : ReadsBack s := by
  cases s <;> decide +kernel

theorem readsBack_health (healthy : Option Bool) : ReadsBack healthy := by
  rcases healthy with _ | b
  · rfl
  · cases b <;> rfl

theorem readsBack_message (message : Option String) : ReadsBack message := by
  cases message <;> rfl

/-- An optional field is read as what it holds. -/
theorem optional_eq_some {β : Type} [JsonForm β] {fields : Json.Fields} {name : String}
    {o : Option β} (h : fields.find? name = some (toJson o)) (readsBack : ReadsBack o) :
    fields.optional name = some o := by
  rw [Json.Fields.optional_eq, h]
  exact readsBack

/-- A report is read back if its moment is. -/
theorem readsBack_report {r : StatusReport} (h : ReadsBack r.timestamp) : ReadsBack r := by
  let fields : Json.Fields := [("healthy", toJson r.healthy), ("message", toJson r.message),
    ("state", toJson r.state), ("timestamp", toJson r.timestamp)]
  have written : toJson r = .obj fields := rfl
  have read : ∀ fields : Json.Fields, (ofJson? (.obj fields) : Option StatusReport) = (do
    some ⟨← fields.required "state", ← fields.optional "healthy", ← fields.optional "message",
      ← fields.required "timestamp"⟩) := fun _ => rfl
  have state : fields.required "state" = some r.state :=
    required_eq (by simp [fields, Json.Fields.find?_cons]) (readsBack_reportedState _)
  have healthy : fields.optional "healthy" = some r.healthy :=
    optional_eq_some (by simp [fields, Json.Fields.find?_cons]) (readsBack_health _)
  have message : fields.optional "message" = some r.message :=
    optional_eq_some (by simp [fields, Json.Fields.find?_cons]) (readsBack_message _)
  have moment : fields.required "timestamp" = some r.timestamp :=
    required_eq (by simp [fields, Json.Fields.find?_cons]) h
  rw [ReadsBack, written, read, state, healthy, message, moment]
  rfl

theorem TaskStatus.readsBack_of_dated {s : TaskStatus} (h : ∀ t ∈ s.moments, t.OnCalendar) :
    ReadsBack s := by
  simp only [moments, List.mem_cons, List.mem_append, Option.mem_toList, List.mem_map,
    forall_eq_or_imp] at h
  obtain ⟨stagedAt, since, others⟩ := h
  refine (readsBack_status_iff s).2 ⟨stagedAt.readsBack, ?_, readsBack_condition _,
    since.readsBack, ?_⟩
  · cases hs : s.startedAt with
    | none => exact readsBack_none
    | some t => exact readsBack_some_timestamp (others t (.inl hs)).readsBack
  · cases hr : s.report with
    | none => exact readsBack_none
    | some r =>
      exact readsBack_some_report (readsBack_report (others _ (.inr ⟨r, hr, rfl⟩)).readsBack)

theorem ReservationState.readsBack_of_dated {s : ReservationState}
    (h : ∀ t ∈ s.moments, t.OnCalendar) : ReadsBack s := by
  refine readsBack_state ?_
  cases hs : s.timeout with
  | none => exact readsBack_none
  | some t =>
    have moments : s.moments = [t.initiated, t.deadline] := by simp [ReservationState.moments, hs]
    rw [moments] at h
    exact (readsBack_some (by simp [toJson_timeout])).2
      (readsBack_timeout (h _ (by simp)).readsBack (h _ (by simp)).readsBack)

/-- A task is read back from its stored form if its moments are on the calendar. -/
theorem Task.readsBack_of_dated {t : Task} (h : ∀ m ∈ t.moments, m.OnCalendar) : ReadsBack t := by
  obtain ⟨version, others⟩ := List.forall_mem_cons.1 h
  obtain ⟨status, held⟩ := List.forall_mem_append.1 others
  refine (readsBack_task_iff t).2 ⟨readsBack_agent _, version.readsBack,
    TaskStatus.readsBack_of_dated status, readsBack_ports _, ?_, readsBack_strategy _⟩
  cases hr : t.reservation with
  | none => exact readsBack_none
  | some r =>
    rw [hr] at held
    exact (readsBack_some (by simp [toJson_reservation])).2 ((readsBack_reservation_iff r).2
      ⟨readsBack_volumeIds _, ReservationState.readsBack_of_dated (by simpa using held)⟩)

/-- An op can be stored if its moments are on the calendar. -/
theorem StateOp.Dated.storable {op : StateOp} (h : op.Dated) : op.Storable := by
  cases op with
  | launchEphemeral t => exact Task.readsBack_of_dated h
  | reserve t => exact Task.readsBack_of_dated h
  | launchOnReservation id version status hostPorts =>
    obtain ⟨version, status⟩ := List.forall_mem_cons.1 h
    exact ⟨version.readsBack, TaskStatus.readsBack_of_dated status⟩
  | report id r now =>
    obtain ⟨moment, now⟩ := List.forall_mem_cons.1 h
    exact ⟨readsBack_report moment.readsBack, (now _ (List.mem_singleton.2 rfl)).readsBack⟩
  | _ => trivial

end Placement
