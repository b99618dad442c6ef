/-
What a scan covers, and how it counts, whatever fails.

The instances may be listed in any order. The ops go to the processor one after another, and the kills
to the manager by instance and task; that one fails keeps none of the others back.

* `Manager.killInstances_eq`: all live tasks of the instances are called for, one after another.
* `Monitor.overdueInstances_eq`: the instances to be killed are those of the tracker that have an
  overdue task, in the order of their ids.
* `Monitor.covers_scanOf`: a scan asks for all that is due and for nothing else, calls for the kill of
  all live tasks of those instances and of no others, and its numbers add up.
-/
import Placement.Proofs.Housekeeping
import Placement.Proofs.Outdated
import Placement.Proofs.Round

namespace Placement

/-! ## Kills -/

/-- The tasks of the instance that have not come to their end. -/
def Instance.liveTasks (i : Instance) : List Task :=
  i.tasks.values.filter fun t => !t.condition.isTerminal

namespace Manager

variable {α : Type}

/-- The manager after calls for the kills of tasks. -/
def afterKills (m : Manager α) (ts : List Task) : Manager α :=
  { m with calls := (ts.map fun t => .kill t.id t.agent.agentId).reverse ++ m.calls }

/-- How kills of tasks fail: if any does, the first does. -/
def killError (m : Manager α) (ts : List Task) : Option KillError :=
  if m.failing then ts.head?.map fun t => ⟨t.id, .callFailed⟩ else none

@[simp] theorem killError_afterKills (m : Manager α) (ts us : List Task) :
    (m.afterKills ts).killError us = m.killError us := rfl

@[simp] theorem afterKills_afterKills (m : Manager α) (ts us : List Task) :
    (m.afterKills ts).afterKills us = m.afterKills (ts ++ us) := by
  simp [afterKills]

theorem killTasks_eq (m : Manager α) (ts : List Task) :
    m.killTasks ts = (m.killError ts, m.afterKills ts) := by
  induction ts generalizing m with
  | nil => simp [killTasks, killError, afterKills]
  | cons t rest ih =>
    obtain ⟨calls, failing⟩ := m
    cases failing <;> simp [killTasks, ih, call, killError, afterKills]

theorem killInstances_eq (m : Manager α) (is : List Instance) :
    m.killInstances is =
      (is.map fun i => m.killError i.liveTasks, m.afterKills (is.flatMap Instance.liveTasks)) := by
  induction is generalizing m with
  | nil => rfl
  | cons i rest ih =>
    have first : m.killInstance i = (m.killError i.liveTasks, m.afterKills i.liveTasks) :=
      killTasks_eq m i.liveTasks
    simp only [killInstances, first, ih, killError_afterKills, afterKills_afterKills,
      List.map_cons, List.flatMap_cons]

end Manager

/-! ## The tasks of a tracker -/

/-- The order of kills: by instance, and by task within one. -/
def Task.Precedes (a b : Task) : Prop :=
  compare a.instanceId b.instanceId = .lt ∨
    a.instanceId = b.instanceId ∧ compare a.id b.id = .lt

theorem Task.Precedes.ne {a b : Task} (h : a.Precedes b) : a.id ≠ b.id := by
  intro same
  rcases h with before | ⟨-, before⟩
  · exact OrderedMap.ne_of_before before (congrArg TaskId.instanceId same)
  · exact OrderedMap.ne_of_before before same

namespace Tracker

variable {t : Tracker}

/-- Tasks of some instances, taken in the order of the tracker, come in the order of kills. -/
theorem pairwise_flatMap (h : t.Assembled) {is : List Instance} (sub : is.Sublist t.snapshot)
    {f : Instance → List Task} (part : ∀ i, (f i).Sublist i.tasks.values) :
    (is.flatMap f).Pairwise Task.Precedes := by
  rw [List.pairwise_flatMap]
  constructor
  · intro i hi
    have hi := sub.subset hi
    have keyed := (id_of_mem_snapshot h hi).2.keyed
    have ascending := OrderedMap.pairwise_values fun k u hu => (keyed k u hu).1
    refine (ascending.sublist (part i)).imp_of_mem fun ha hb before => .inr ⟨?_, before⟩
    rw [instanceId_of_mem h hi ((part i).subset ha), instanceId_of_mem h hi ((part i).subset hb)]
  · refine ((pairwise_snapshot h).sublist sub).imp_of_mem fun hi hj before a ha b hb => .inl ?_
    rw [instanceId_of_mem h (sub.subset hi) ((part _).subset ha),
      instanceId_of_mem h (sub.subset hj) ((part _).subset hb)]
    exact before

end Tracker

namespace Monitor

variable {m : MonitorSettings} {now : Timestamp} {tracker : Tracker} {snapshot : List Instance}

/-! ## What there is to kill -/

/-- Some task of the instance is overdue. -/
def hasOverdue (m : MonitorSettings) (now : Timestamp) (i : Instance) : Bool :=
  i.tasks.values.any (isOverdue m now)

/-- However the instances are listed, those with an overdue task come in the order of their ids, each
once. -/
theorem overdueInstances_eq (h : tracker.Assembled) (perm : snapshot.Perm tracker.snapshot) :
    overdueInstances m now snapshot = tracker.snapshot.filter (hasOverdue m now) := by
  have listed : OrderedMap.ofList ((snapshot.filter (hasOverdue m now)).map fun i => (i.id, i)) =
      tracker.instances.filter (hasOverdue m now) := by
    apply OrderedMap.ext_find?
    intro id
    refine OrderedMap.find?_ofList_of_forall fun i => ?_
    rw [OrderedMap.find?_eq_some_iff, OrderedMap.filter, List.mem_filter,
      ← OrderedMap.find?_eq_some_iff]
    simp only [List.mem_map, List.mem_filter, Prod.mk.injEq, perm.mem_iff]
    constructor
    · rintro ⟨j, ⟨hj, late⟩, rfl, rfl⟩
      exact ⟨(Tracker.id_of_mem_snapshot h hj).1, late⟩
    · rintro ⟨hi, late⟩
      exact ⟨i, ⟨OrderedMap.mem_values.2 ⟨id, hi⟩, late⟩, (h id i hi).id_eq, rfl⟩
  calc overdueInstances m now snapshot
      = (OrderedMap.ofList
          ((snapshot.filter (hasOverdue m now)).map fun i => (i.id, i))).values := rfl
    _ = (tracker.instances.filter (hasOverdue m now)).values := by rw [listed]
    _ = tracker.snapshot.filter (hasOverdue m now) := OrderedMap.values_filter _ _

theorem isTerminal_of_isOverdue {t : Task} (late : isOverdue m now t = true) :
    t.condition.isTerminal = false := by
  unfold isOverdue at late
  simp only at late
  split at late
  · next created => rw [created]; rfl
  · next staging => rw [staging]; rfl
  · cases late

/-- The tasks that a scan has killed: all live ones that share an instance with an overdue task. -/
theorem mem_killed_iff (h : tracker.Assembled) {t : Task} :
    t ∈ (tracker.snapshot.filter (hasOverdue m now)).flatMap Instance.liveTasks ↔
      t ∈ tracker.tasks ∧ t.condition.isTerminal = false ∧
        ∃ u ∈ tracker.tasks, u.instanceId = t.instanceId ∧ isOverdue m now u = true := by
  simp only [Tracker.tasks, List.mem_flatMap, List.mem_filter, Instance.liveTasks, hasOverdue,
    List.any_eq_true, Bool.not_eq_true']
  constructor
  · rintro ⟨i, ⟨hi, u, hu, late⟩, ht, live⟩
    refine ⟨⟨i, hi, ht⟩, live, u, ⟨i, hi, hu⟩, ?_, late⟩
    rw [Tracker.instanceId_of_mem h hi hu, Tracker.instanceId_of_mem h hi ht]
  · rintro ⟨⟨i, hi, ht⟩, live, u, ⟨j, hj, hu⟩, same, late⟩
    rw [Tracker.instanceId_of_mem h hj hu, Tracker.instanceId_of_mem h hi ht] at same
    have found := (Tracker.id_of_mem_snapshot h hj).1
    rw [same, (Tracker.id_of_mem_snapshot h hi).1] at found
    obtain rfl := Option.some.inj found
    exact ⟨i, ⟨hi, u, hu, late⟩, ht, live⟩

variable {α : Type}

/-- An instance with an overdue task has a task to kill, so that its kill fails if calls do. -/
theorem isSome_killError (manager : Manager α) {i : Instance} (late : hasOverdue m now i = true) :
    (manager.killError i.liveTasks).isSome = manager.failing := by
  obtain ⟨u, hu, overdue⟩ := List.any_eq_true.1 late
  have live : u ∈ i.liveTasks := by
    simp [Instance.liveTasks, hu, isTerminal_of_isOverdue overdue]
  obtain ⟨t, rest, tasks⟩ := List.exists_cons_of_ne_nil (List.ne_nil_of_mem live)
  rw [Manager.killError, tasks]
  cases manager.failing <;> rfl

end Monitor

/-! ## The numbers -/

namespace ScanReport

def isNoChange : Change → Bool
  | .noChange _ => true
  | _ => false

/-- How many instances were to be killed and had a kill that failed. -/
def failedKills (r : ScanReport) : Nat := r.kills.countP (·.2.isSome)

/-- How many ops failed. -/
def failedOps (r : ScanReport) : Nat := r.replies.countP (·.2.isFailure)

/-- How many ops had no effect. -/
def idleOps (r : ScanReport) : Nat := r.replies.countP (isNoChange ·.2)

/-- Each op is counted once, by what became of it. -/
theorem sum_counts (r : ScanReport) :
    r.counts.reservationsTimedOut + r.counts.markedInactive + r.counts.expunged + r.failedOps +
      r.idleOps = r.replies.length := by
  obtain ⟨tasks, replies, kills⟩ := r
  simp only [counts, failedOps, idleOps]
  induction replies with
  | nil => rfl
  | cons reply rest ih =>
    have one : (if isReservationTimeout reply.1 && isExpunge reply.2 then 1 else 0) +
        (if isUpdate reply.2 then 1 else 0) +
        (if !isReservationTimeout reply.1 && isExpunge reply.2 then 1 else 0) +
        (if reply.2.isFailure then 1 else 0) + (if isNoChange reply.2 then 1 else 0) = 1 := by
      obtain ⟨op, change⟩ := reply
      cases change <;> cases isReservationTimeout op <;> rfl
    simp only [List.countP_cons, List.length_cons]
    omega

/-- Each instance is counted once, by whether its kill failed. -/
theorem sum_kills (r : ScanReport) : r.counts.overdueKilled + r.failedKills = r.kills.length := by
  rw [List.length_eq_countP_add_countP (·.2.isNone)]
  refine congrArg (_ + ·) (List.countP_congr fun kill _ => ?_)
  simp [Option.isSome_iff_ne_none]

end ScanReport

namespace Monitor

variable {α : Type} {m : MonitorSettings} {now : Timestamp} {s : Scheduler α}
  {snapshot : List Instance}

/-! ## A scan -/

/-- A scan of the scheduler `s` with the report `r`, which leaves the scheduler `after`, covers all tasks
that are known and counts all that became of them. -/
structure Covers (m : MonitorSettings) (now : Timestamp) (s : Scheduler α) (r : ScanReport)
    (after : Scheduler α) : Prop where
  /-- The ops are those that tasks are due for, unless they are overdue. -/
  due : ∀ op, op ∈ r.replies.map Prod.fst ↔
    ∃ t ∈ s.books.tracker.tasks, isOverdue m now t = false ∧ housekeepingOp? m now t = some op
  /-- No task is asked of twice. -/
  once : (r.replies.map (·.1.taskId)).Nodup
  /-- The processor takes all ops, and the replies are its. -/
  taken : s.books.processAll s.storeTimeout (r.replies.map Prod.fst) =
    (r.replies.map Prod.snd, after.books)
  /-- The kills are those of the live tasks of the instances with an overdue task. -/
  killed : ∃ ts : List Task, after.manager = s.manager.afterKills ts ∧
    ts.Pairwise Task.Precedes ∧
    ∀ t, t ∈ ts ↔ t ∈ s.books.tracker.tasks ∧ t.condition.isTerminal = false ∧
      ∃ u ∈ s.books.tracker.tasks, u.instanceId = t.instanceId ∧ isOverdue m now u = true
  /-- The instances with an overdue task, by their ids. -/
  instances : r.kills.map Prod.fst = s.books.tracker.snapshot.filter (hasOverdue m now)
  /-- The kill of an instance fails if calls of the manager do, and only then. -/
  failed : ∀ kill ∈ r.kills, kill.2.isSome = s.manager.failing
  scanned : r.counts.scanned = s.books.tracker.tasks.length
  kills : r.counts.overdueKilled + r.failedKills =
    s.books.tracker.snapshot.countP (hasOverdue m now)
  ops : r.counts.reservationsTimedOut + r.counts.markedInactive + r.counts.expunged +
    r.failedOps + r.idleOps = r.replies.length
  errors : r.counts.errors = r.failedKills + r.failedOps

theorem mem_dueOps_iff {ts : List Task} {op : StateOp} :
    op ∈ ts.filterMap (dueOp? m now) ↔
      ∃ t ∈ ts, isOverdue m now t = false ∧ housekeepingOp? m now t = some op := by
  rw [List.mem_filterMap]
  refine exists_congr fun t => and_congr_right fun _ => ?_
  rw [dueOp?]
  cases isOverdue m now t <;> simp

/-- Of tasks with different ids none is asked of twice. -/
theorem nodup_dueOps (m : MonitorSettings) (now : Timestamp) {ts : List Task}
    (distinct : ts.Pairwise fun a b => a.id ≠ b.id) :
    ((ts.filterMap (dueOp? m now)).map StateOp.taskId).Nodup := by
  rw [List.nodup_iff_pairwise_ne, List.pairwise_map, List.pairwise_filterMap]
  refine distinct.imp fun {a b} differ op hop op' hop' => ?_
  rw [(due_of_dueOp? hop).taskId, (due_of_dueOp? hop').taskId]
  exact differ

/-- The kills of a scan, with what became of them. -/
theorem kills_scanOf (m : MonitorSettings) (now : Timestamp) (h : s.books.tracker.Assembled)
    (perm : snapshot.Perm s.books.tracker.snapshot) :
    (scanOf m now snapshot s).1.kills =
        (s.books.tracker.snapshot.filter (hasOverdue m now)).map
          (fun i => (i, s.manager.killError i.liveTasks)) ∧
      (scanOf m now snapshot s).2.manager = s.manager.afterKills
        ((s.books.tracker.snapshot.filter (hasOverdue m now)).flatMap Instance.liveTasks) := by
  simp only [scanOf, Scheduler.processAll, overdueInstances_eq h perm, Manager.killInstances_eq,
    and_true]
  exact List.map_prod_left_eq_zip.symm

/-- A scan covers all tasks that are known, in whatever order the instances are listed, and whatever
fails of what it asks for. -/
theorem covers_scanOf (h : s.books.tracker.Assembled)
    (perm : snapshot.Perm s.books.tracker.snapshot) :
    Covers m now s (scanOf m now snapshot s).1 (scanOf m now snapshot s).2 := by
  have tasks : (snapshot.flatMap (·.tasks.values)).Perm s.books.tracker.tasks := perm.flatMap_right _
  have distinct : (snapshot.flatMap (·.tasks.values)).Pairwise fun a b => a.id ≠ b.id := by
    have ordered := Tracker.pairwise_flatMap h (List.Sublist.refl _) fun i => List.Sublist.refl _
    exact (tasks.pairwise_iff fun differ => Ne.symm differ).2 (ordered.imp Task.Precedes.ne)
  obtain ⟨ops, replies⟩ := replies_scanOf m now snapshot s
  obtain ⟨kills, manager⟩ := kills_scanOf m now h perm
  exact {
    due := fun op => by
      rw [ops, asked, mem_dueOps_iff]
      exact exists_congr fun t => and_congr_left fun _ => tasks.mem_iff
    once := by
      have := nodup_dueOps m now distinct
      rwa [← asked, ← ops, List.map_map] at this
    taken := by
      rw [ops, replies]
      rfl
    killed := ⟨_, manager, Tracker.pairwise_flatMap h List.filter_sublist fun i => List.filter_sublist,
      fun t => mem_killed_iff h⟩
    instances := by
      rw [kills, List.map_map]
      exact List.map_id _
    failed := fun kill hkill => by
      rw [kills] at hkill
      obtain ⟨i, hi, rfl⟩ := List.mem_map.1 hkill
      exact isSome_killError _ (List.mem_filter.1 hi).2
    scanned := tasks.length_eq
    kills := by
      rw [ScanReport.sum_kills, kills, List.length_map, List.countP_eq_length_filter]
    ops := ScanReport.sum_counts _
    errors := rfl }

end Monitor

namespace Sample

/-- A task of the instance of a number, in its condition since time zero. -/
def taskOf (number : Nat) (container : Option ContainerName) (condition : Condition) : Task :=
  { Sample.launchedTask with
    id := ⟨Sample.launchedTask.runSpecId, ⟨.ofNat number⟩, container⟩
    status := .fresh condition ⟨0, 0⟩ }

/-- An instance of which one task was never confirmed, one runs and one has ended; a reservation whose
time is over; another launch that was never confirmed; and a task out of sight. -/
def tasksInTrouble : List Task :=
  [taskOf 1 (some ⟨"a", by decide⟩) .created, taskOf 1 (some ⟨"b", by decide⟩) .running,
    taskOf 1 (some ⟨"c", by decide⟩) .finished,
    { Sample.limitedTask with id := .forInstance Sample.limitedTask.runSpecId ⟨.ofNat 2⟩ },
    taskOf 3 none .created, taskOf 4 none .unreachable]

/-- The first write is refused and cannot be read back, and all kills fail. -/
def inTrouble : Scheduler Rat :=
  { Sample.scheduler with
    books := ⟨.ofTasks tasksInTrouble, ⟨∅, [.reject], 1⟩, true, [], 0⟩
    manager := ⟨[], true⟩ }

end Sample

/-- The instances are listed backwards. All three kills are called for and all three ops are submitted;
the two instances and the first of the ops count as errors. -/
theorem covers_scanOf_sample :
    let snapshot := Sample.inTrouble.books.tracker.snapshot.reverse
    let r := (Monitor.scanOf .usual ⟨700, 0⟩ snapshot Sample.inTrouble).1
    let after := (Monitor.scanOf .usual ⟨700, 0⟩ snapshot Sample.inTrouble).2
    snapshot.Perm Sample.inTrouble.books.tracker.snapshot ∧
      r.counts = ⟨6, 0, 1, 0, 1, 3⟩ ∧ r.failedKills = 2 ∧ r.failedOps = 1 ∧
      after.manager.calls.length = 3 ∧
      Monitor.Covers .usual ⟨700, 0⟩ Sample.inTrouble r after := by
  intro snapshot r after
  have listed : snapshot.Perm Sample.inTrouble.books.tracker.snapshot := List.reverse_perm _
  exact ⟨listed, by decide +kernel, by decide +kernel, by decide +kernel, by decide +kernel,
    Monitor.covers_scanOf (Tracker.assembled_ofTasks Sample.tasksInTrouble) listed⟩

end Placement
