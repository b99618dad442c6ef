/-
What becomes of an instance depends on the ops on it alone, as long as no write fails.

* `Books.answer` is the reply to an op, and `Books.process_calm` says that the tracker and the
  repository follow it in the task of the op. The reply depends on the instance of the task alone
  (`Books.SameInstance.answer_eq`).
* `Books.filter_replied`: the replies to the ops on an instance are the same without the other ops.
* `Books.processAll_eq_of_filter`: ops that come in the same order for each instance have the same
  replies and leave the same tracker and repository, however instances take turns. No instance needs
  to hold the tasks of one run spec only; two that share an instance can keep each other out.
-/
import Placement.Proofs.Confluence

namespace Placement

/-- What is known of a task and what is stored of it, once a change of it is taken and written. -/
def Change.followed (e : Option Task × Option Json) (c : Change) : Option Task × Option Json :=
  (c.follow e.1, c.written e.2)

namespace Books

variable {b b' after after' : Books} {limit : Span} {op : StateOp} {ops : List StateOp}
  {id : InstanceId}

/-! ## One op -/

/-- No write is going to fail. -/
structure Calm (b : Books) : Prop where
  assembled : b.tracker.Assembled
  faultless : b.repository.writeFaults = []

/-- What is known of a task and what is stored of it. -/
def entry (b : Books) (k : TaskId) : Option Task × Option Json :=
  (b.tracker.task? k, b.repository.documents.find? k)

/-- The reply to an op if no write fails. -/
def answer (op : StateOp) (b : Books) : Change :=
  if b.running then
    match b.change op, b.tracker.foreign? op.taskId with
    | .update _ _, some owner => .failure (.tracker op.taskId (.rejected op.taskId owner))
    | change, _ => change
  else .failure .unavailable

/-- The books have followed a change of one task. -/
structure Followed (k : TaskId) (c : Change) (b after : Books) : Prop where
  calm : after.Calm
  running : after.running = b.running
  reads : after.repository.failingReads = b.repository.failingReads
  entry : ∀ j, after.entry j = if j = k then c.followed (b.entry j) else b.entry j

theorem Calm.followed_failure (calm : b.Calm) (k : TaskId) (e : ChangeError) :
    b.Followed k (.failure e) b := by
  refine ⟨calm, rfl, rfl, fun j => ?_⟩
  split <;> rfl

/-- What the tracker takes is written and answered. -/
theorem Calm.followed_persist (calm : b.Calm) {tracker : Tracker}
    (taken : b.tracker.notify (b.change op) = .ok tracker) :
    ({ b with tracker := tracker }.persist limit op.taskId (b.change op)).1 = b.change op ∧
      b.Followed op.taskId (b.change op)
        ({ b with tracker := tracker }.persist limit op.taskId (b.change op)).2 := by
  have hfor := isFor_change calm.assembled op
  obtain ⟨reply, knows, running, repository⟩ :=
    persist_faultless (b := { b with tracker := tracker }) calm.faultless limit op.taskId (b.change op)
  refine ⟨reply, ⟨knows ▸ calm.assembled.notify taken, by rw [repository]; exact calm.faultless⟩,
    running, by rw [repository], fun j => ?_⟩
  rw [Books.entry, knows, repository, Tracker.task?_notify calm.assembled hfor taken]
  split
  · next same =>
    subst same
    rw [Change.find?_write_self hfor]
    rfl
  · next other =>
    rw [Change.find?_write hfor _ other]
    rfl

/-- The tracker refuses a new value of a task whose instance is another's, and takes all else. -/
theorem process_calm (calm : b.Calm) (limit : Span) (op : StateOp) :
    (b.process limit op).1 = b.answer op ∧
      b.Followed op.taskId (b.answer op) (b.process limit op).2 := by
  cases running : b.running with
  | false =>
    have refused : b.process limit op = (.failure .unavailable, b) := by
      simp [process, processWithin, running]
    have answer : b.answer op = .failure .unavailable := by simp [Books.answer, running]
    rw [refused, answer]
    exact ⟨rfl, calm.followed_failure _ _⟩
  | true =>
    have applied : b.process limit op = b.apply limit op := by
      simp [process, processWithin, running]
    have taken : ∀ tracker, b.tracker.notify (b.change op) = .ok tracker →
        b.answer op = b.change op →
        (b.process limit op).1 = b.answer op ∧
          b.Followed op.taskId (b.answer op) (b.process limit op).2 := by
      intro tracker hn answer
      have persisted : b.apply limit op =
          { b with tracker := tracker }.persist limit op.taskId (b.change op) := by
        have hn : b.tracker.notify (op.resolve (b.tracker.task? op.taskId)) = .ok tracker := hn
        simp only [apply, hn]
        rfl
      rw [answer, applied, persisted]
      exact calm.followed_persist hn
    have hfor := isFor_change calm.assembled op
    cases change : b.change op with
    | update new old =>
      rw [change] at hfor
      have named : new.id = op.taskId := hfor
      cases owned : b.tracker.foreign? op.taskId with
      | some owner =>
        have refuses := Tracker.putTask_of_foreign (named.symm ▸ owned)
        rw [named] at refuses
        have answer : b.answer op =
            .failure (.tracker op.taskId (.rejected op.taskId owner)) := by
          simp [Books.answer, running, change, owned]
        have refused : b.apply limit op = (b.answer op, b) := by
          have change : op.resolve (b.tracker.task? op.taskId) = .update new old := change
          simp only [apply, change, Tracker.notify, refuses, answer]
        rw [applied, refused, answer]
        exact ⟨rfl, calm.followed_failure _ _⟩
      | none =>
        obtain ⟨tracker, hp⟩ := Tracker.isOk_putTask_of_foreign (named.symm ▸ owned)
        refine taken tracker (by rw [change]; exact hp) ?_
        simp [Books.answer, running, change, owned]
    | expunge old =>
      refine taken _ (by rw [change]; rfl) ?_
      simp [Books.answer, running, change]
    | noChange k =>
      refine taken _ (by rw [change]; rfl) ?_
      simp [Books.answer, running, change]
    | failure e =>
      refine taken _ (by rw [change]; rfl) ?_
      simp [Books.answer, running, change]

theorem Calm.process (calm : b.Calm) (limit : Span) (op : StateOp) : (b.process limit op).2.Calm :=
  (process_calm calm limit op).2.calm

/-! ## What an op can tell apart -/

/-- Books that know the same instance under an id. -/
structure SameInstance (id : InstanceId) (b b' : Books) : Prop where
  running : b'.running = b.running
  instance? : b'.tracker.instances.find? id = b.tracker.instances.find? id

theorem SameInstance.task?_eq (same : b.SameInstance id b') {k : TaskId} (on : k.instanceId = id) :
    b'.tracker.task? k = b.tracker.task? k := by
  rw [Tracker.task?_eq, Tracker.task?_eq, on, same.instance?]

/-- The reply to an op depends on the instance of its task alone. -/
theorem SameInstance.answer_eq (same : b.SameInstance id b') (on : op.taskId.instanceId = id) :
    b'.answer op = b.answer op := by
  have change : b'.change op = b.change op := by
    rw [Books.change, Books.change, same.task?_eq on]
  have owner : b'.tracker.foreign? op.taskId = b.tracker.foreign? op.taskId := by
    rw [Tracker.foreign?, Tracker.foreign?, on, same.instance?]
  rw [Books.answer, Books.answer, change, owner, same.running]

/-- Books with the same tasks of an instance know the same instance. -/
theorem SameInstance.of_task? (calm : b.Calm) (calm' : b'.Calm) (running : b'.running = b.running)
    (tasks : ∀ k : TaskId, k.instanceId = id → b'.tracker.task? k = b.tracker.task? k) :
    b.SameInstance id b' :=
  ⟨running, Tracker.find?_eq_of_task?_eq calm'.assembled calm.assembled tasks⟩

theorem Followed.task? {k : TaskId} {c : Change} (followed : b.Followed k c after) (j : TaskId) :
    after.tracker.task? j = if j = k then c.follow (b.tracker.task? j) else b.tracker.task? j := by
  have task := congrArg Prod.fst (followed.entry j)
  rw [apply_ite Prod.fst] at task
  exact task

/-- An op keeps what an op on another instance can tell. -/
theorem sameInstance_process (calm : b.Calm) (limit : Span) (off : op.taskId.instanceId ≠ id) :
    b.SameInstance id (b.process limit op).2 := by
  have followed := (process_calm calm limit op).2
  refine .of_task? calm followed.calm followed.running fun k on => ?_
  have other : k ≠ op.taskId := fun same => off (by rw [← same, on])
  rw [followed.task?, if_neg other]

/-- Books that an op cannot tell apart cannot be told apart after it. -/
theorem SameInstance.process (same : b.SameInstance id b') (calm : b.Calm) (calm' : b'.Calm)
    (limit : Span) (on : op.taskId.instanceId = id) :
    (b.process limit op).2.SameInstance id (b'.process limit op).2 := by
  have followed := (process_calm calm limit op).2
  have followed' := (process_calm calm' limit op).2
  rw [same.answer_eq on] at followed'
  refine .of_task? followed.calm followed'.calm ?_ fun k hk => ?_
  · rw [followed.running, followed'.running, same.running]
  · rw [followed.task?, followed'.task?, same.task?_eq hk]

/-! ## Several ops -/

/-- Ops with the replies to them. -/
def replied (limit : Span) (ops : List StateOp) (b : Books) : List (StateOp × Change) :=
  ops.zip (b.processAll limit ops).1

/-- The op is one on the instance. -/
def isOn (id : InstanceId) (op : StateOp) : Bool := op.taskId.instanceId == id

theorem replied_cons (calm : b.Calm) (limit : Span) (op : StateOp) (rest : List StateOp) :
    b.replied limit (op :: rest) =
      (op, b.answer op) :: (b.process limit op).2.replied limit rest := by
  rw [← (process_calm calm limit op).1]
  rfl

theorem Calm.processAll (calm : b.Calm) (limit : Span) (ops : List StateOp) :
    (b.processAll limit ops).2.Calm := by
  induction ops generalizing b with
  | nil => exact calm
  | cons op rest ih => exact ih (calm.process limit op)

/-- Ops on one instance have the same replies in books that know the same of it. -/
theorem SameInstance.replied_eq (same : b.SameInstance id b') (calm : b.Calm) (calm' : b'.Calm)
    (limit : Span) (on : ∀ op ∈ ops, isOn id op = true) :
    b'.replied limit ops = b.replied limit ops := by
  induction ops generalizing b b' with
  | nil => rfl
  | cons op rest ih =>
    obtain ⟨first, later⟩ := List.forall_mem_cons.1 on
    have first := beq_iff_eq.1 first
    rw [replied_cons calm', replied_cons calm, same.answer_eq first,
      ih (same.process calm calm' limit first) (calm.process limit op) (calm'.process limit op) later]

/-- The ops on an instance are replied to as they are without the others. -/
theorem filter_replied (calm : b.Calm) (limit : Span) (ops : List StateOp) (id : InstanceId) :
    (b.replied limit ops).filter (fun e => isOn id e.1) = b.replied limit (ops.filter (isOn id)) := by
  induction ops generalizing b with
  | nil => rfl
  | cons op rest ih =>
    have calm' := calm.process limit op
    rw [replied_cons calm, List.filter_cons, List.filter_cons, ih calm']
    by_cases on : isOn id op = true
    · rw [if_pos on, if_pos on, replied_cons calm]
    · -- What is on other instances is dropped, and has left this one as it was.
      have off : op.taskId.instanceId ≠ id := fun same => on (beq_iff_eq.2 same)
      rw [if_neg on, if_neg on]
      exact (sameInstance_process calm limit off).replied_eq calm calm' limit
        fun op hop => (List.mem_filter.1 hop).2

/-- A task follows the replies to the ops on it. -/
theorem entry_processAll (calm : b.Calm) (limit : Span) (ops : List StateOp) (k : TaskId) :
    (b.processAll limit ops).2.entry k =
      (((b.replied limit ops).filter fun e => e.1.taskId == k).map Prod.snd).foldl Change.followed
        (b.entry k) := by
  induction ops generalizing b with
  | nil => rfl
  | cons op rest ih =>
    obtain ⟨-, followed⟩ := process_calm calm limit op
    have goes_on : b.processAll limit (op :: rest) =
        ((b.process limit op).1 :: ((b.process limit op).2.processAll limit rest).1,
          ((b.process limit op).2.processAll limit rest).2) := rfl
    rw [goes_on, replied_cons calm, List.filter_cons]
    refine (ih followed.calm).trans ?_
    by_cases own : op.taskId = k
    · rw [if_pos (beq_iff_eq.2 own), List.map_cons, List.foldl_cons, followed.entry, if_pos own.symm]
    · rw [if_neg fun same => own (beq_iff_eq.1 same), followed.entry, if_neg (Ne.symm own)]

theorem rest_processAll (calm : b.Calm) (limit : Span) (ops : List StateOp) :
    (b.processAll limit ops).2.running = b.running ∧
      (b.processAll limit ops).2.repository.failingReads = b.repository.failingReads := by
  induction ops generalizing b with
  | nil => exact ⟨rfl, rfl⟩
  | cons op rest ih =>
    obtain ⟨-, followed⟩ := process_calm calm limit op
    obtain ⟨running, reads⟩ := ih followed.calm
    exact ⟨running.trans followed.running, reads.trans followed.reads⟩

/-- Books without faults to come are told apart by their entries. -/
theorem Calm.eq_of_entry (calm : b.Calm) (calm' : b'.Calm)
    (reads : b'.repository.failingReads = b.repository.failingReads)
    (entries : ∀ k, b'.entry k = b.entry k) :
    b'.tracker = b.tracker ∧ b'.repository = b.repository := by
  refine ⟨Tracker.eq_of_task?_eq calm'.assembled calm.assembled fun k =>
    congrArg Prod.fst (entries k), ?_⟩
  have documents : b'.repository.documents = b.repository.documents :=
    OrderedMap.ext_find? fun k => congrArg Prod.snd (entries k)
  have faults := calm'.faultless.trans calm.faultless.symm
  calc b'.repository
      = ⟨b'.repository.documents, b'.repository.writeFaults, b'.repository.failingReads⟩ := rfl
    _ = b.repository := by rw [documents, faults, reads]

/-- What comes of ops depends on the order of those on the same instance only. -/
theorem processAll_eq_of_filter (calm : b.Calm) (limit : Span) {ops ops' : List StateOp}
    (order : ∀ id, ops.filter (isOn id) = ops'.filter (isOn id)) :
    (b.replied limit ops).Perm (b.replied limit ops') ∧
      (b.processAll limit ops).2.tracker = (b.processAll limit ops').2.tracker ∧
      (b.processAll limit ops).2.repository = (b.processAll limit ops').2.repository := by
  have parts : ∀ id, (b.replied limit ops).filter (fun e => isOn id e.1) =
      (b.replied limit ops').filter (fun e => isOn id e.1) := by
    intro id
    rw [filter_replied calm, filter_replied calm, order]
  refine ⟨List.perm_iff_count.2 fun e => ?_, ?_⟩
  · let here : StateOp × Change → Bool := fun e' => isOn e.1.taskId.instanceId e'.1
    have among : ∀ l : List (StateOp × Change), (l.filter here).count e = l.count e := fun l =>
      List.count_filter (show here e = true from beq_self_eq_true _)
    rw [← among, ← among (b.replied limit ops'), parts]
  · refine Calm.eq_of_entry (calm.processAll limit ops') (calm.processAll limit ops) ?_ fun k => ?_
    · rw [(rest_processAll calm limit ops).2, (rest_processAll calm limit ops').2]
    · -- The ops on a task are among those on its instance.
      have own : ∀ l : List (StateOp × Change), (l.filter fun e => e.1.taskId == k) =
          (l.filter fun e => isOn k.instanceId e.1).filter fun e => e.1.taskId == k := by
        intro l
        rw [List.filter_filter]
        refine List.filter_congr fun e _ => ?_
        by_cases same : e.1.taskId = k
        · simp [isOn, same]
        · simp [same]
      rw [entry_processAll calm, entry_processAll calm, own, parts, ← own]

end Books

end Placement
