/-
Scans do not depend on the order in which instances are listed, and they settle.

* `Monitor.Scans.sameEnd`: if no write fails, scans from one state, which find the instances in any orders
  (`Monitor.Scans`), come to the same tracker, repository, numbers and calls of the manager.
* `Monitor.next` is what a scan makes of a task (`Monitor.Scans.task?_eq`), if the tasks of an instance
  belong to one run spec. A task takes two steps at most, of which the first marks it as inactive
  (`Monitor.dueOp?_of_next_next`).
* `Monitor.scans_settle`: both together. After two scans at one time a third changes nothing.

Where an instance has tasks of two run specs, the tracker refuses to mark those that are not of the run
spec of the instance until the others are forgotten, so two scans may not be enough
(`Sample.mixed_unsettled`).
-/
import Placement.Proofs.Coverage
import Placement.Proofs.Locality

namespace Placement

/-! ## Ops of instances that are listed in another order -/

/-- Where each instance has its own ops, listing the instances in another order keeps the ops of each of
them in order. -/
theorem Instance.filter_flatMap_of_perm {l l' : List Instance} {f : Instance → List StateOp}
    (perm : l.Perm l') (distinct : l.Pairwise fun i j => i.id ≠ j.id)
    (own : ∀ i ∈ l, ∀ op ∈ f i, op.taskId.instanceId = i.id) (id : InstanceId) :
    (l.flatMap f).filter (Books.isOn id) = (l'.flatMap f).filter (Books.isOn id) := by
  induction perm with
  | nil => rfl
  | cons i _ ih =>
    simp only [List.flatMap_cons, List.filter_append]
    rw [ih (List.pairwise_cons.1 distinct).2 fun j hj => own j (List.mem_cons_of_mem i hj)]
  | swap i j rest =>
    -- One of the two has no op on the instance.
    have differ : j.id ≠ i.id := (List.pairwise_cons.1 distinct).1 i List.mem_cons_self
    have none_of_ne : ∀ k ∈ j :: i :: rest, k.id ≠ id → (f k).filter (Books.isOn id) = [] := by
      intro k hk other
      refine List.filter_eq_nil_iff.2 fun op hop on => other ?_
      rw [← own k hk op hop]
      exact beq_iff_eq.1 on
    simp only [List.flatMap_cons, List.filter_append]
    by_cases first : j.id = id
    · have second : i.id ≠ id := fun same => differ (first.trans same.symm)
      rw [none_of_ne i (by simp) second, List.nil_append, List.nil_append]
    · rw [none_of_ne j (by simp) first, List.nil_append, List.nil_append]
  | trans first _ ih ih' =>
    have distinct' := (first.pairwise_iff fun differ => Ne.symm differ).1 distinct
    rw [ih distinct own, ih' distinct' fun i hi => own i (first.mem_iff.2 hi)]

theorem ScanReport.counts_eq_of_perm {r r' : ScanReport} (tasks : r.tasks.Perm r'.tasks)
    (replies : r.replies.Perm r'.replies) (kills : r.kills = r'.kills) : r.counts = r'.counts := by
  simp only [counts, tasks.length_eq, kills, replies.countP_eq]

namespace Monitor

variable {α : Type} {m : MonitorSettings} {now : Timestamp} {s after after' : Scheduler α}
  {r r' : ScanReport}

/-! ## Scans in any order -/

/-- Two scans that differ in nothing but the order of what they report. -/
structure SameEnd (r : ScanReport) (after : Scheduler α) (r' : ScanReport) (after' : Scheduler α) :
    Prop where
  tracker : after.books.tracker = after'.books.tracker
  repository : after.books.repository = after'.books.repository
  counts : r.counts = r'.counts
  manager : after.manager = after'.manager

/-- The ops of an instance come in the same order, however the instances are listed. -/
theorem filter_dueOps (m : MonitorSettings) (now : Timestamp) (h : s.books.tracker.Assembled)
    {snapshot : List Instance} (perm : snapshot.Perm s.books.tracker.snapshot) (id : InstanceId) :
    (asked m now snapshot).filter (Books.isOn id) =
      (asked m now s.books.tracker.snapshot).filter (Books.isOn id) := by
  have distinct : s.books.tracker.snapshot.Pairwise fun i j => i.id ≠ j.id :=
    (Tracker.pairwise_snapshot h).imp OrderedMap.ne_of_before
  have own : ∀ i ∈ snapshot, ∀ op ∈ i.tasks.values.filterMap (dueOp? m now),
      op.taskId.instanceId = i.id := by
    intro i hi op hop
    obtain ⟨t, ht, due⟩ := List.mem_filterMap.1 hop
    rw [(due_of_dueOp? due).taskId]
    exact Tracker.instanceId_of_mem h (perm.mem_iff.1 hi) ht
  rw [asked, asked, List.filterMap_flatMap, List.filterMap_flatMap]
  exact Instance.filter_flatMap_of_perm perm
    ((perm.pairwise_iff fun differ => Ne.symm differ).2 distinct) own id

/-- A scan ends as the scan in the order of ids does. -/
theorem Scans.sameEnd_byId (calm : s.books.Calm) (scans : Scans m now s r after) :
    SameEnd r after (scanOf m now s.books.tracker.snapshot s).1
      (scanOf m now s.books.tracker.snapshot s).2 := by
  obtain ⟨snapshot, listings, perm, ends⟩ := scans
  obtain ⟨rfl, rfl⟩ := Prod.mk.inj ends.symm
  obtain ⟨replies, tracker, repository⟩ := Books.processAll_eq_of_filter calm s.storeTimeout
    (filter_dueOps m now calm.assembled perm)
  obtain ⟨kills, manager⟩ := kills_scanOf m now calm.assembled perm
  obtain ⟨kills', manager'⟩ := kills_scanOf m now calm.assembled (.refl s.books.tracker.snapshot)
  exact {
    tracker := tracker
    repository := repository
    counts := ScanReport.counts_eq_of_perm (perm.flatMap_right _) replies (kills.trans kills'.symm)
    manager := manager.trans manager'.symm }

/-- Scans from one state end alike, in whatever order each of them finds the instances. -/
theorem Scans.sameEnd (calm : s.books.Calm) (scans : Scans m now s r after)
    (scans' : Scans m now s r' after') : SameEnd r after r' after' := by
  have e := scans.sameEnd_byId calm
  have e' := scans'.sameEnd_byId calm
  exact ⟨e.tracker.trans e'.tracker.symm, e.repository.trans e'.repository.symm,
    e.counts.trans e'.counts.symm, e.manager.trans e'.manager.symm⟩

end Monitor

/-! ## Ops on different tasks -/

namespace Books

variable {b : Books} {ops : List StateOp}

/-- Ops on other tasks leave a task as it is known. -/
theorem task?_processAll_of_others (calm : b.Calm) (limit : Span) {k : TaskId}
    (others : ∀ op ∈ ops, op.taskId ≠ k) :
    (b.processAll limit ops).2.tracker.task? k = b.tracker.task? k := by
  induction ops generalizing b with
  | nil => rfl
  | cons op rest ih =>
    obtain ⟨other, later⟩ := List.forall_mem_cons.1 others
    obtain ⟨-, followed⟩ := process_calm calm limit op
    exact (ih followed.calm later).trans (by rw [followed.task?, if_neg (Ne.symm other)])

/-- An op on a known task is not refused by the tracker if tasks of an instance belong to one run
spec. -/
theorem answer_eq_change (h : b.tracker.WellFormed) (running : b.running = true) {op : StateOp}
    (known : (b.tracker.task? op.taskId).isSome = true) : b.answer op = b.change op := by
  have admitted : b.tracker.foreign? op.taskId = none :=
    Tracker.foreign?_eq_none.2 fun i hi => h.runSpecId_eq known hi
  rw [answer, if_pos running, admitted]
  split <;> simp_all

/-- Ops on different tasks that are known do to each task what they come to. -/
theorem task?_processAll_of_distinct (h : b.tracker.WellFormed) (calm : b.Calm)
    (running : b.running = true) (limit : Span) (distinct : (ops.map StateOp.taskId).Nodup)
    (known : ∀ op ∈ ops, (b.tracker.task? op.taskId).isSome = true) :
    ∀ op ∈ ops, (b.processAll limit ops).2.tracker.task? op.taskId =
      (b.change op).follow (b.tracker.task? op.taskId) := by
  induction ops generalizing b with
  | nil => intro op hop; cases hop
  | cons first rest ih =>
    obtain ⟨fresh, distinct⟩ := List.nodup_cons.1 distinct
    have others : ∀ op ∈ rest, op.taskId ≠ first.taskId := fun op hop same =>
      fresh (List.mem_map.2 ⟨op, hop, same⟩)
    obtain ⟨-, followed⟩ := process_calm calm limit first
    have same : ∀ op ∈ rest, (b.process limit first).2.tracker.task? op.taskId =
        b.tracker.task? op.taskId := by
      intro op hop
      rw [followed.task?, if_neg (others op hop)]
    intro op hop
    rcases List.mem_cons.1 hop with rfl | hop
    · refine (task?_processAll_of_others followed.calm limit others).trans ?_
      rw [followed.task?, if_pos rfl, answer_eq_change h running (known op List.mem_cons_self)]
    · have wellFormed : (b.process limit first).2.tracker.WellFormed :=
        wellFormed_processWithin h limit 0 first
      have stillKnown : ∀ op ∈ rest, ((b.process limit first).2.tracker.task? op.taskId).isSome = true := by
        intro op hop
        rw [same op hop]
        exact known op (List.mem_cons_of_mem _ hop)
      have later := ih wellFormed followed.calm (followed.running.trans running) distinct stillKnown op hop
      rw [change, same op hop] at later
      exact later

theorem wellFormed_processAll (h : b.tracker.WellFormed) (limit : Span) (ops : List StateOp) :
    (b.processAll limit ops).2.tracker.WellFormed := by
  induction ops generalizing b with
  | nil => exact h
  | cons op rest ih => exact ih (wellFormed_processWithin h limit 0 op)

/-- A processor that has been stopped takes nothing. -/
theorem processAll_of_stopped (stopped : b.running = false) (limit : Span) (ops : List StateOp) :
    (b.processAll limit ops).2 = b := by
  induction ops with
  | nil => rfl
  | cons op rest ih =>
    have refused : (b.process limit op).2 = b := by simp [process, processWithin, stopped]
    have goes_on : (b.processAll limit (op :: rest)).2 =
        ((b.process limit op).2.processAll limit rest).2 := rfl
    rw [goes_on, refused, ih]

end Books

namespace Monitor

variable {α : Type} {m : MonitorSettings} {now : Timestamp} {s after : Scheduler α} {r : ScanReport}

/-! ## What becomes of a task -/

/-- What a scan makes of a task. -/
def next (m : MonitorSettings) (now : Timestamp) (t : Task) : Option Task :=
  match dueOp? m now t with
  | some op => (op.resolve (some t)).follow (some t)
  | none => some t

theorem next_of_quiet {t : Task} (quiet : dueOp? m now t = none) : next m now t = some t := by
  rw [next, quiet]

/-- A task that a scan changes is forgotten or becomes inactive. -/
theorem next_of_due {t : Task} {op : StateOp} (due : dueOp? m now t = some op) :
    next m now t = none ∨
      next m now t = some { t with status := { t.status with condition := .unreachableInactive } } := by
  rw [next, due]
  cases due_of_dueOp? due with
  | lapsed waits expired =>
    left
    simp [StateOp.resolve, StateOp.resolveLive, waits, Condition.isTerminal, Task.isReserved,
      Change.follow]
  | ended terminal past => exact .inl rfl
  | unreachable free condition past =>
    right
    simp [StateOp.resolve, StateOp.resolveLive, condition, Condition.isTerminal, Change.follow]
  | inactive free condition past => exact .inl rfl

/-- All that an inactive task is due for is to be forgotten. -/
theorem next_of_inactive {t : Task} {op : StateOp} (condition : t.condition = .unreachableInactive)
    (due : dueOp? m now t = some op) : next m now t = none := by
  rw [next, due]
  cases due_of_dueOp? due with
  | lapsed waits _ => simp [condition] at waits
  | ended terminal _ => simp [condition, Condition.isTerminal] at terminal
  | unreachable _ visible _ => simp [condition] at visible
  | inactive _ _ _ => rfl

/-- A task takes two steps at most. -/
theorem dueOp?_of_next_next {t u : Task} (h : (next m now t).bind (next m now) = some u) :
    dueOp? m now u = none := by
  have quiet_of_kept : ∀ v : Task, dueOp? m now v = none → next m now v = some u →
      dueOp? m now u = none := by
    intro v quiet kept
    rw [next_of_quiet quiet] at kept
    exact Option.some.inj kept ▸ quiet
  cases first : dueOp? m now t with
  | none =>
    rw [next_of_quiet first, Option.bind_some] at h
    exact quiet_of_kept t first h
  | some op =>
    rcases next_of_due first with forgotten | marked
    · rw [forgotten] at h
      cases h
    · rw [marked, Option.bind_some] at h
      cases second : dueOp? m now
          { t with status := { t.status with condition := .unreachableInactive } } with
      | none => exact quiet_of_kept _ second h
      | some op' =>
        rw [next_of_inactive rfl second] at h
        cases h

/-! ## Scans one after another -/

/-- A scan makes of each task what the task is due for. -/
theorem task?_scanOf (h : s.books.tracker.WellFormed) (calm : s.books.Calm)
    (running : s.books.running = true) (k : TaskId) :
    (scanOf m now s.books.tracker.snapshot s).2.books.tracker.task? k =
      (s.books.tracker.task? k).bind (next m now) := by
  have distinct : ((asked m now s.books.tracker.snapshot).map StateOp.taskId).Nodup := by
    have ordered := Tracker.pairwise_flatMap calm.assembled (List.Sublist.refl _)
      fun i => List.Sublist.refl _
    exact nodup_dueOps m now (ordered.imp Task.Precedes.ne)
  have known : ∀ op ∈ asked m now s.books.tracker.snapshot,
      (s.books.tracker.task? op.taskId).isSome = true := by
    intro op hop
    obtain ⟨t, ht, -⟩ := mem_asked calm.assembled (.refl _) hop
    rw [ht]
    rfl
  have does := Books.task?_processAll_of_distinct h calm running s.storeTimeout distinct known
  have taken : (scanOf m now s.books.tracker.snapshot s).2.books = (s.books.processAll s.storeTimeout
    (asked m now s.books.tracker.snapshot)).2 := rfl
  rw [taken]
  cases ht : s.books.tracker.task? k with
  | none =>
    -- Nothing is asked of a task that is not known.
    rw [Books.task?_processAll_of_others calm s.storeTimeout fun op hop same => ?_, ht]
    · rfl
    · have := known op hop
      rw [same, ht] at this
      cases this
  | some t =>
    have member := (Tracker.mem_tasks_iff calm.assembled).2
      ((Tracker.id_of_task? calm.assembled ht).symm ▸ ht)
    rw [Option.bind_some]
    cases due : dueOp? m now t with
    | none =>
      rw [next_of_quiet due, Books.task?_processAll_of_others calm s.storeTimeout fun op hop same => ?_,
        ht]
      -- An op on this task is one that it is due for.
      obtain ⟨u, hu, due'⟩ := List.mem_filterMap.1 hop
      have named := (Tracker.mem_tasks_iff calm.assembled).1 hu
      rw [← (due_of_dueOp? due').taskId, same, ht] at named
      obtain rfl := Option.some.inj named
      rw [due] at due'
      cases due'
    | some op =>
      have named : op.taskId = k :=
        (due_of_dueOp? due).taskId.trans (Tracker.id_of_task? calm.assembled ht)
      have follows := does op (List.mem_filterMap.2 ⟨t, member, due⟩)
      rw [named, Books.change, named, ht] at follows
      rw [follows, next, due]

theorem Scans.calm (scans : Scans m now s r after) (calm : s.books.Calm) : after.books.Calm :=
  scans.books ▸ calm.processAll _ _

theorem Scans.running_eq (scans : Scans m now s r after) (calm : s.books.Calm) :
    after.books.running = s.books.running :=
  scans.books ▸ (Books.rest_processAll calm _ _).1

theorem Scans.wellFormed (scans : Scans m now s r after) (h : s.books.tracker.WellFormed) :
    after.books.tracker.WellFormed :=
  scans.books ▸ Books.wellFormed_processAll h _ _

theorem Scans.books_of_stopped (scans : Scans m now s r after) (stopped : s.books.running = false) :
    after.books = s.books :=
  scans.books.trans (Books.processAll_of_stopped stopped _ _)

/-- A scan makes of each task what the task is due for, in whatever order it finds the instances. -/
theorem Scans.task?_eq (scans : Scans m now s r after) (h : s.books.tracker.WellFormed)
    (calm : s.books.Calm) (running : s.books.running = true) (k : TaskId) :
    after.books.tracker.task? k = (s.books.tracker.task? k).bind (next m now) := by
  rw [(scans.sameEnd_byId calm).tracker]
  exact task?_scanOf h calm running k

/-- A scan of tasks of which none is due leaves the books as they are. -/
theorem Scans.books_of_quiet (scans : Scans m now s r after) (h : s.books.tracker.Assembled)
    (quiet : ∀ k t, s.books.tracker.task? k = some t → dueOp? m now t = none) :
    after.books = s.books := by
  have nothing : r.replies.map Prod.fst = [] := by
    refine List.eq_nil_iff_forall_not_mem.2 fun op hop => ?_
    obtain ⟨t, ht, asks⟩ := scans.due h hop
    rw [quiet _ t ht] at asks
    cases asks
  rw [scans.books, nothing]
  rfl

/-- The third of three scans at one time changes nothing. -/
theorem Scans.settled {r₁ r₂ r₃ : ScanReport} {s₁ s₂ s₃ : Scheduler α}
    (first : Scans m now s r₁ s₁) (second : Scans m now s₁ r₂ s₂) (third : Scans m now s₂ r₃ s₃)
    (h : s.books.tracker.WellFormed) (calm : s.books.Calm) : s₃.books = s₂.books := by
  have calm₁ := first.calm calm
  have calm₂ := second.calm calm₁
  cases running : s.books.running with
  | false =>
    refine third.books_of_stopped ?_
    rw [second.running_eq calm₁, first.running_eq calm, running]
  | true =>
    refine third.books_of_quiet calm₂.assembled fun k u hu => ?_
    have running₁ : s₁.books.running = true := (first.running_eq calm).trans running
    rw [second.task?_eq (first.wellFormed h) calm₁ running₁, first.task?_eq h calm running,
      Option.bind_assoc] at hu
    obtain ⟨t, -, steps⟩ := Option.bind_eq_some_iff.1 hu
    exact dueOp?_of_next_next steps

/-! ## Both together -/

/-- If no write fails, scans do not depend on the order in which they find the instances; and if tasks of
an instance belong to one run spec, the third of three scans at one time leaves the tracker and the
repository as they are, and does not even write to it. -/
theorem scans_settle (m : MonitorSettings) (now : Timestamp) {s : Scheduler α}
    (assembled : s.books.tracker.Assembled) (faultless : s.books.repository.writeFaults = []) :
    (∀ r after r' after', Scans m now s r after → Scans m now s r' after' →
      SameEnd r after r' after') ∧
    (s.books.tracker.Uniform → ∀ r₁ s₁ r₂ s₂ r₃ s₃, Scans m now s r₁ s₁ → Scans m now s₁ r₂ s₂ →
      Scans m now s₂ r₃ s₃ → s₃.books = s₂.books) := by
  have calm : s.books.Calm := ⟨assembled, faultless⟩
  refine ⟨fun r after r' after' scans scans' => scans.sameEnd calm scans', ?_⟩
  intro uniform r₁ s₁ r₂ s₂ r₃ s₃ first second third
  exact first.settled second third ⟨assembled, uniform⟩ calm

end Monitor

namespace Sample

/-- A scheduler that knows given tasks and has them stored. -/
def storing (tasks : List Task) : Scheduler Rat :=
  { Sample.scheduler with
    books := ⟨.ofTasks tasks, ⟨.ofList (tasks.map fun t => (t.id, toJson t)), [], 0⟩, true, [], 0⟩ }

/-- Two tasks that have been out of sight since time zero. -/
def outOfSight : List Task := [taskOf 1 none .unreachable, taskOf 2 none .unreachable]

/-- Two tasks out of sight under one instance id, of different run specs. -/
def mixedInstance : List Task :=
  [taskOf 1 none .unreachable,
    { taskOf 1 none .unreachable with id := ⟨⟨"/worker", by decide⟩, ⟨.ofNat 1⟩, none⟩ }]

theorem uniform_outOfSight : (Tracker.ofTasks outOfSight).Uniform := by
  have webOnly : ∀ a, ((Tracker.ofTasks outOfSight).task? a).isSome = true →
      a.runSpecId = Sample.launchedTask.runSpecId := by
    intro a known
    obtain ⟨t, ht⟩ := Option.isSome_iff_exists.1 known
    obtain ⟨member, rfl⟩ := (Tracker.task?_ofTasks (by decide +kernel) a t).1 ht
    simp only [outOfSight, List.mem_cons, List.not_mem_nil, or_false] at member
    rcases member with rfl | rfl <;> rfl
  intro a b ha hb _
  rw [webOnly a ha, webOnly b hb]

end Sample

/-- Both tasks are marked by the first scan and forgotten by the second, the instances listed backwards in
one of the scans that are compared. -/
theorem scans_settle_sample :
    let now : Timestamp := ⟨1000, 0⟩
    let s := Sample.storing Sample.outOfSight
    let backwards := Monitor.scanOf .usual now s.books.tracker.snapshot.reverse s
    let first := Monitor.scan .usual now s
    let second := Monitor.scan .usual now first.2
    let third := Monitor.scan .usual now second.2
    s.books.tracker.Assembled ∧ s.books.repository.writeFaults = [] ∧ s.books.tracker.Uniform ∧
      first.1.counts = ⟨2, 0, 0, 2, 0, 0⟩ ∧ second.1.counts = ⟨2, 0, 0, 0, 2, 0⟩ ∧
      Monitor.SameEnd backwards.1 backwards.2 first.1 first.2 ∧ third.2.books = second.2.books := by
  intro now s backwards first second third
  have assembled := Tracker.assembled_ofTasks Sample.outOfSight
  have settle := Monitor.scans_settle .usual now (s := s) assembled rfl
  exact ⟨assembled, rfl, Sample.uniform_outOfSight, by decide +kernel, by decide +kernel,
    settle.1 _ _ _ _ (Monitor.scans_scanOf (List.reverse_perm _)) Monitor.scans_scan,
    settle.2 Sample.uniform_outOfSight _ _ _ _ _ _ Monitor.scans_scan Monitor.scans_scan
      Monitor.scans_scan⟩

/-- The tracker is that of the repository and no write fails, and the third of three scans at one time
still forgets a task: the mark of the second task is refused while the first is known. -/
theorem Sample.mixed_unsettled :
    let now : Timestamp := ⟨1000, 0⟩
    let s := Sample.storing Sample.mixedInstance
    let first := Monitor.scan .usual now s
    let second := Monitor.scan .usual now first.2
    let third := Monitor.scan .usual now second.2
    (Tracker.load s.books.repository).1 = .ok s.books.tracker ∧
      s.books.repository.writeFaults = [] ∧
      first.1.counts = ⟨2, 0, 0, 1, 0, 1⟩ ∧ second.1.counts = ⟨2, 0, 0, 1, 1, 0⟩ ∧
      third.1.counts = ⟨1, 0, 0, 0, 1, 0⟩ ∧
      third.2.books.tracker ≠ second.2.books.tracker := by
  decide +kernel

end Placement
