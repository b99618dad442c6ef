/-
What the monitor asks for in a scan, and what a scan leaves alone.

* `Monitor.Due` lists what a task can be due for; `housekeepingOp?_eq_some_iff` says that a task is due
  for nothing else.
* `Monitor.Scans` is a scan that finds the instances in some order. The ops that it reports on are due
  for tasks that are known, and are ops on these tasks (`Scans.due`).
* `Monitor.Scans.frame`: a task that is due for nothing stays as it was, in the tracker and in the
  repository, whatever becomes of the ops on other tasks.
-/
import Placement.Monitor
import Placement.Proofs.Recording

namespace Placement

namespace Tracker

/-- The tasks of a tracker are those that are known under their ids. -/
theorem mem_tasks_iff {t : Tracker} (h : t.Assembled) {task : Task} :
    task ∈ t.tasks ↔ t.task? task.id = some task := by
  constructor
  · intro member
    obtain ⟨i, hi, ht⟩ := List.mem_flatMap.1 member
    obtain ⟨id, hid⟩ := OrderedMap.mem_values.1 hi
    obtain ⟨k, hk⟩ := OrderedMap.mem_values.1 ht
    obtain ⟨rfl, hinstance⟩ := (h id i hid).keyed k task hk
    rw [task?_eq, hinstance, hid, Option.bind_some, hk]
  · exact mem_tasks_of_task?

end Tracker

namespace Books

/-- Ops that are taken one after another change their own tasks alone. -/
theorem frame_processAll {b : Books} (h : b.Sound) (limit : Span) (ops : List StateOp) {id : TaskId}
    (others : ∀ op ∈ ops, op.taskId ≠ id) :
    (b.processAll limit ops).2.tracker.task? id = b.tracker.task? id ∧
      (b.processAll limit ops).2.repository.documents.find? id =
        b.repository.documents.find? id := by
  induction ops generalizing b with
  | nil => exact ⟨rfl, rfl⟩
  | cons op rest ih =>
    obtain ⟨other, later⟩ := List.forall_mem_cons.1 others
    obtain ⟨frame, sound⟩ := frame_process h limit op
    obtain ⟨tracker, documents⟩ := ih sound later
    exact ⟨tracker.trans (frame.tracker id other.symm),
      documents.trans (frame.documents id other.symm)⟩

/-- Each op has its reply. -/
theorem length_processAll (b : Books) (limit : Span) (ops : List StateOp) :
    (b.processAll limit ops).1.length = ops.length := by
  induction ops generalizing b with
  | nil => rfl
  | cons op rest ih =>
    rw [List.length_cons, ← ih (b.process limit op).2]
    rfl

theorem sound_processAll {b : Books} (h : b.Sound) (limit : Span) (ops : List StateOp) :
    (b.processAll limit ops).2.Sound := by
  induction ops generalizing b with
  | nil => exact h
  | cons op rest ih => exact ih (frame_process h limit op).2

end Books

/-- The time of the reservation is over; without a deadline it never is. -/
def Task.IsOver (t : Task) (now : Timestamp) : Prop :=
  ∃ deadline, t.reservationDeadline = some deadline ∧ deadline.atMost now = true

namespace Monitor

variable {m : MonitorSettings} {now : Timestamp} {t : Task} {op : StateOp}

/-! ## What a task is due for -/

/-- What a task can be due for, and why. -/
inductive Due (m : MonitorSettings) (now : Timestamp) (t : Task) : StateOp → Prop where
  | lapsed (waits : t.condition = .reserved) (expired : t.IsOver now) :
      Due m now t (.reservationTimeout t.id)
  | ended (terminal : t.condition.isTerminal = true)
      (past : m.terminalExpungeDelay.nanos ≤ Timestamp.elapsed t.status.since now) :
      Due m now t (.forceExpunge t.id)
  | unreachable (free : t.isResident = false) (condition : t.condition = .unreachable)
      (past : t.unreachableStrategy.inactiveAfter.nanos ≤ Timestamp.elapsed t.status.since now) :
      Due m now t (.markUnreachableInactive t.id)
  | inactive (free : t.isResident = false) (condition : t.condition = .unreachableInactive)
      (past : t.unreachableStrategy.expungeAfter.nanos ≤ Timestamp.elapsed t.status.since now) :
      Due m now t (.forceExpunge t.id)

theorem housekeepingOp?_eq_some_iff : housekeepingOp? m now t = some op ↔ Due m now t op := by
  constructor
  · intro h
    unfold housekeepingOp? at h
    simp only at h
    split at h
    · next waits =>
      split at h
      · next deadline limited =>
        split at h
        · next past =>
          obtain rfl := Option.some.inj h
          exact .lapsed waits ⟨deadline, limited, past⟩
        · cases h
      · cases h
    · split at h
      · next terminal =>
        split at h
        · next past =>
          obtain rfl := Option.some.inj h
          exact .ended terminal past
        · cases h
      · split at h
        · cases h
        · next free =>
          have free := Bool.eq_false_iff.2 free
          split at h
          · next condition =>
            split at h
            · next past =>
              obtain rfl := Option.some.inj h
              exact .unreachable free condition past
            · cases h
          · next condition =>
            split at h
            · next past =>
              obtain rfl := Option.some.inj h
              exact .inactive free condition past
            · cases h
          · cases h
  · intro due
    cases due with
    | lapsed waits expired =>
      obtain ⟨deadline, limited, past⟩ := expired
      simp [housekeepingOp?, waits, limited, past]
    | ended terminal past =>
      have runs : t.condition ≠ .reserved := fun h => by simp [h, Condition.isTerminal] at terminal
      simp [housekeepingOp?, runs, terminal, past]
    | unreachable free condition past =>
      simp [housekeepingOp?, condition, Condition.isTerminal, free, past]
    | inactive free condition past =>
      simp [housekeepingOp?, condition, Condition.isTerminal, free, past]

theorem Due.taskId (due : Due m now t op) : op.taskId = t.id := by
  cases due <;> rfl

/-- A task is asked of what it is due for, unless it is overdue. -/
theorem due_of_dueOp? (h : dueOp? m now t = some op) : Due m now t op := by
  unfold dueOp? at h
  split at h
  · cases h
  · exact housekeepingOp?_eq_some_iff.1 h

/-! ## A scan -/

/-- The ops that a scan of given instances asks for, in order. -/
def asked (m : MonitorSettings) (now : Timestamp) (snapshot : List Instance) : List StateOp :=
  (snapshot.flatMap (·.tasks.values)).filterMap (dueOp? m now)

/-- What is asked of known instances is due for a task that is known. -/
theorem mem_asked {tracker : Tracker} {snapshot : List Instance} (h : tracker.Assembled)
    (perm : snapshot.Perm tracker.snapshot) (member : op ∈ asked m now snapshot) :
    ∃ t, tracker.task? op.taskId = some t ∧ dueOp? m now t = some op := by
  obtain ⟨t, ht, due⟩ := List.mem_filterMap.1 member
  refine ⟨t, ?_, due⟩
  rw [(due_of_dueOp? due).taskId]
  exact (Tracker.mem_tasks_iff h).1 ((perm.flatMap_right _).mem_iff.1 ht)

variable {α : Type} {s after : Scheduler α} {r : ScanReport}

/-- The ops that a scan of given instances reports on are those that it asks for, and the replies are
those of the processor. -/
theorem replies_scanOf (m : MonitorSettings) (now : Timestamp) (snapshot : List Instance)
    (s : Scheduler α) :
    (scanOf m now snapshot s).1.replies.map Prod.fst = asked m now snapshot ∧
      (scanOf m now snapshot s).1.replies.map Prod.snd =
        (s.books.processAll s.storeTimeout (asked m now snapshot)).1 := by
  have answered : (asked m now snapshot).length =
      (s.books.processAll s.storeTimeout (asked m now snapshot)).1.length :=
    (Books.length_processAll _ _ _).symm
  exact ⟨List.map_fst_zip (Nat.le_of_eq answered), List.map_snd_zip (Nat.le_of_eq answered.symm)⟩

/-- A scan that finds the instances in some order. In which orders they are found later is open. -/
def Scans (m : MonitorSettings) (now : Timestamp) (s : Scheduler α) (r : ScanReport)
    (after : Scheduler α) : Prop :=
  ∃ snapshot listings, snapshot.Perm s.books.tracker.snapshot ∧
    scanOf m now snapshot { s with listings := listings } = (r, after)

theorem scans_scanOf {snapshot : List Instance} (perm : snapshot.Perm s.books.tracker.snapshot) :
    Scans m now s (scanOf m now snapshot s).1 (scanOf m now snapshot s).2 :=
  ⟨snapshot, s.listings, perm, rfl⟩

/-- These are the scans of the scheduler, for all orders in which it may list the instances. -/
theorem scans_iff :
    Scans m now s r after ↔ ∃ listings, scan m now { s with listings := listings } = (r, after) := by
  constructor
  · rintro ⟨snapshot, later, perm, ends⟩
    refine ⟨fun n => n.casesOn (.ofPerm perm) later, ?_⟩
    rw [← ends]
    exact congrArg (scanOf m now · { s with listings := later }) (Listing.list_ofPerm perm)
  · rintro ⟨listings, ends⟩
    exact ⟨_, _, Scheduler.perm_known { s with listings := listings }, ends⟩

theorem scans_scan : Scans m now s (scan m now s).1 (scan m now s).2 := scans_iff.2 ⟨s.listings, rfl⟩

/-- A scan takes the ops that it reports on; the kills do not touch the books. -/
theorem Scans.books (scans : Scans m now s r after) :
    after.books = (s.books.processAll s.storeTimeout (r.replies.map Prod.fst)).2 := by
  obtain ⟨snapshot, listings, -, ends⟩ := scans
  have ops := (replies_scanOf m now snapshot { s with listings := listings }).1
  rw [ends] at ops
  rw [ops]
  exact (congrArg (·.2.books) ends).symm

/-- The ops that a scan reports on are due for tasks that are known. -/
theorem Scans.due (scans : Scans m now s r after) (h : s.books.tracker.Assembled)
    (member : op ∈ r.replies.map Prod.fst) :
    ∃ t, s.books.tracker.task? op.taskId = some t ∧ dueOp? m now t = some op := by
  obtain ⟨snapshot, listings, perm, ends⟩ := scans
  have ops := (replies_scanOf m now snapshot { s with listings := listings }).1
  rw [ends] at ops
  exact mem_asked h perm (ops ▸ member)

/-- A scan leaves a task that is due for nothing. -/
theorem Scans.frame (scans : Scans m now s r after) (h : s.books.Sound) {id : TaskId}
    (known : s.books.tracker.task? id = some t) (quiet : ∀ op, ¬Due m now t op) :
    after.books.tracker.task? id = some t ∧
      after.books.repository.documents.find? id = s.books.repository.documents.find? id := by
  have others : ∀ op ∈ r.replies.map Prod.fst, op.taskId ≠ id := by
    rintro op member rfl
    obtain ⟨u, hu, due⟩ := scans.due h.assembled member
    obtain rfl := Option.some.inj (known.symm.trans hu)
    exact quiet op (due_of_dueOp? due)
  obtain ⟨tracker, documents⟩ := Books.frame_processAll h s.storeTimeout _ others
  rw [scans.books]
  exact ⟨tracker.trans known, documents⟩

theorem Scans.sound (scans : Scans m now s r after) (h : s.books.Sound) : after.books.Sound :=
  scans.books ▸ Books.sound_processAll h _ _

end Monitor

end Placement
