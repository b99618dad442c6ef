/-
Reservations outlast the scans of the monitor.

A task that holds a reservation is asked for nothing but to give it up, and for that only once its time is
over (`Monitor.not_due`). The test for an end and the test for being inactive would come in between, but such
a task neither comes to its end nor becomes reserved without a reservation that waits: that is
`Task.Phase`, which every task on the way from nothing has.

`Monitor.keeps_reservations` is the main result. What becomes of the ops on other tasks, and which faults
the store has, makes no difference.
-/
import Placement.Proofs.Housekeeping
import Placement.Proofs.Round

namespace Placement

namespace Monitor

variable {m : MonitorSettings} {now : Timestamp} {t : Task}

/-- A task that holds a reservation which is not over is due for nothing. -/
theorem not_due (phase : t.Phase) (resident : t.isResident = true)
    (kept : ¬(t.condition = .reserved ∧ t.IsOver now)) (op : StateOp) : ¬Due m now t op := by
  intro due
  cases due with
  | lapsed waits expired => exact kept ⟨waits, expired⟩
  | ended terminal past =>
    rw [phase.lawful.live resident] at terminal
    cases terminal
  | unreachable free condition past =>
    rw [resident] at free
    cases free
  | inactive free condition past =>
    rw [resident] at free
    cases free

/-- A suspended reservation without a deadline is never over. -/
theorem not_isOver_of_suspended {volumeIds : List VolumeId}
    (suspended : t.reservation = some ⟨volumeIds, .suspended none⟩) : ¬t.IsOver now := by
  rintro ⟨deadline, limited, -⟩
  simp [Task.reservationDeadline, suspended, ReservationState.timeout] at limited

variable {α : Type} {s after : Scheduler α} {id : TaskId}

/-- Scans one after another, each with settings and a time of its own, and each finding the instances in
some order. -/
inductive ScansAll : List (MonitorSettings × Timestamp) → Scheduler α → Scheduler α → Prop where
  | nil (s : Scheduler α) : ScansAll [] s s
  | cons {m : MonitorSettings} {now : Timestamp} {rest : List (MonitorSettings × Timestamp)}
      {s mid after : Scheduler α} {r : ScanReport}
      (first : Scans m now s r mid) (others : ScansAll rest mid after) :
      ScansAll ((m, now) :: rest) s after

/-- A suspended reservation without a deadline outlasts any number of scans. -/
theorem ScansAll.keeps_suspended {scans : List (MonitorSettings × Timestamp)}
    (h : ScansAll scans s after) (sound : s.books.Sound)
    (known : s.books.tracker.task? id = some t) (phase : t.Phase) {volumeIds : List VolumeId}
    (suspended : t.reservation = some ⟨volumeIds, .suspended none⟩) :
    after.books.tracker.task? id = some t := by
  induction h with
  | nil s => exact known
  | cons first others ih =>
    have resident : t.isResident = true := by rw [Task.isResident, suspended]; rfl
    have kept := first.frame sound known (not_due phase resident fun expired =>
      not_isOver_of_suspended suspended expired.2)
    exact ih (first.sound sound) kept.1

/-- Where each task has come of planned ops, a scan leaves every task that holds a reservation, in the
tracker and in the repository, unless it is reserved and the time of its reservation is over. So a suspended
reservation without a deadline outlasts all scans. Each scan may find the instances in an order of its own. -/
theorem keeps_reservations (sound : s.books.Sound)
    (reached : ∀ id t, s.books.tracker.task? id = some t →
      ∃ ops, (∀ op ∈ ops, op.taskId = id ∧ op.IsPlanned) ∧ StateOp.followAll ops none = some t) :
    (∀ m now r after id t, Scans m now s r after → s.books.tracker.task? id = some t →
      t.isResident = true → ¬(t.condition = .reserved ∧ t.IsOver now) →
      after.books.tracker.task? id = some t ∧
        after.books.repository.documents.find? id = s.books.repository.documents.find? id) ∧
    ∀ scans after id t volumeIds, ScansAll scans s after → s.books.tracker.task? id = some t →
      t.reservation = some ⟨volumeIds, .suspended none⟩ →
      after.books.tracker.task? id = some t := by
  have phase : ∀ id t, s.books.tracker.task? id = some t → t.Phase := by
    intro id t known
    obtain ⟨ops, planned, comes⟩ := reached id t known
    exact (StateOp.phase_followAll planned comes).1
  constructor
  · intro m now r after id t scans known resident kept
    exact scans.frame sound known (not_due (phase id t known) resident kept)
  · intro scans after id t volumeIds all known suspended
    exact all.keeps_suspended sound known (phase id t known) suspended

end Monitor

/-! ## A task that keeps its volume -/

/-- A scheduler that knows one task, which has ended and waits on its reservation. The next write of its
store is refused. -/
def Sample.keeper : Scheduler Rat :=
  let b := (Books.empty.processAll Sample.limit (.reserve Sample.waitingTask :: Sample.ops)).2
  { Sample.scheduler with
    books := { b with repository := b.repository.addWriteFault .reject } }

/-- The task stays, even a hundred years later and in whatever order the instances are found. -/
theorem keeps_reservations_sample : Sample.keeper.books.Sound ∧
    (∀ id t, Sample.keeper.books.tracker.task? id = some t →
      ∃ ops, (∀ op ∈ ops, op.taskId = id ∧ op.IsPlanned) ∧
        StateOp.followAll ops none = some t) ∧
    ∃ t, Sample.keeper.books.tracker.task? Sample.waitingTask.id = some t ∧
      (∀ r after, Monitor.Scans .usual ⟨3155760000, 0⟩ Sample.keeper r after →
        after.books.tracker.task? Sample.waitingTask.id = some t ∧
          after.books.repository.documents.find? Sample.waitingTask.id =
            Sample.keeper.books.repository.documents.find? Sample.waitingTask.id) ∧
      (Monitor.scan .usual ⟨3155760000, 0⟩ Sample.keeper).2.books.tracker.task?
        Sample.waitingTask.id = some t := by
  have planned : ∀ op ∈ .reserve Sample.waitingTask :: Sample.ops,
      op.taskId = Sample.waitingTask.id ∧ op.IsPlanned := by
    intro op hop
    simp only [Sample.ops, List.mem_cons, List.not_mem_nil, or_false] at hop
    rcases hop with rfl | rfl | rfl
    · exact ⟨rfl, rfl, rfl, _, _, rfl⟩
    · exact ⟨rfl, rfl⟩
    · exact ⟨rfl, trivial⟩
  have sound : Sample.keeper.books.Sound := by
    have made := Books.sound_processAll Books.sound_empty Sample.limit
      (.reserve Sample.waitingTask :: Sample.ops)
    exact ⟨made.assembled, made.keyed⟩
  obtain ⟨t, known, comes, suspended⟩ : ∃ t,
      Sample.keeper.books.tracker.task? Sample.waitingTask.id = some t ∧
        StateOp.followAll (.reserve Sample.waitingTask :: Sample.ops) none = some t ∧
        t.reservation = some ⟨[Sample.volume], .suspended none⟩ := by
    refine ⟨_, ?_, rfl, rfl⟩
    decide +kernel
  have reached : ∀ id t, Sample.keeper.books.tracker.task? id = some t →
      ∃ ops, (∀ op ∈ ops, op.taskId = id ∧ op.IsPlanned) ∧
        StateOp.followAll ops none = some t := by
    intro id u hu
    by_cases same : id = Sample.waitingTask.id
    · subst same
      obtain rfl := Option.some.inj (known.symm.trans hu)
      exact ⟨_, planned, comes⟩
    · have others : ∀ op ∈ .reserve Sample.waitingTask :: Sample.ops, op.taskId ≠ id :=
        fun op hop => (planned op hop).1 ▸ Ne.symm same
      have unknown : Sample.keeper.books.tracker.task? id = none :=
        (Books.frame_processAll Books.sound_empty Sample.limit _ others).1
      rw [unknown] at hu
      cases hu
  obtain ⟨scan, scans⟩ := Monitor.keeps_reservations sound reached
  refine ⟨sound, reached, t, known, ?_, ?_⟩
  · intro r after found
    refine scan _ _ r after _ t found known ?_ fun expired => ?_
    · rw [Task.isResident, suspended]
      rfl
    · exact Monitor.not_isOver_of_suspended suspended expired.2
  · exact scans [(.usual, ⟨3155760000, 0⟩)] _ _ t [Sample.volume]
      (.cons Monitor.scans_scan (.nil _)) known suspended

end Placement
