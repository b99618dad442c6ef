/-
The tracker as a flat map from task ids to tasks.

* `Tracker.Assembled` holds of every tracker that was filled through changes or loaded: each instance
  is what its tasks make of it, and each task stands under its own ids. `Tracker.WellFormed` asks in
  addition that tasks of one instance belong to one run spec.
* `task?_putTask` and `task?_dropTask` say what a change does to the flat map: nothing beyond the one
  task.
* `eq_of_task?_eq` says that the flat map determines the tracker, derived states included. So two
  ways to fill a tracker that give the same tasks give the same tracker.
-/
import Placement.Tracker
import Placement.Proofs.OrderedMap

namespace Placement

/-! ## Instances of their tasks -/

namespace Instance

theorem tasks_of_ofTaskMap {m : OrderedMap TaskId Task} {i : Instance} (h : ofTaskMap m = some i) :
    i.tasks = m := by
  unfold ofTaskMap at h
  split at h
  · simp at h
  · rw [← Option.some.inj h]

/-- The run spec and the agent of an instance are those of one of its tasks. -/
theorem exists_first {m : OrderedMap TaskId Task} {i : Instance} (h : ofTaskMap m = some i) :
    ∃ k t, m.find? k = some t ∧ t.runSpecId = i.runSpecId ∧ t.agent = i.agent := by
  unfold ofTaskMap at h
  split at h
  · simp at h
  · next first rest hvalues =>
    have hfirst : first ∈ m.values := by simp [hvalues]
    obtain ⟨k, hk⟩ := OrderedMap.mem_values.1 hfirst
    obtain rfl := Option.some.inj h
    exact ⟨k, first, hk, rfl, rfl⟩

theorem exists_runSpecId {m : OrderedMap TaskId Task} {i : Instance} (h : ofTaskMap m = some i) :
    ∃ k t, m.find? k = some t ∧ t.runSpecId = i.runSpecId := by
  obtain ⟨k, t, hk, hspec, -⟩ := exists_first h
  exact ⟨k, t, hk, hspec⟩

theorem ofTaskMap_eq_none {m : OrderedMap TaskId Task} (h : ofTaskMap m = none) (k : TaskId) :
    m.find? k = none := by
  unfold ofTaskMap at h
  split at h
  · next hvalues => exact OrderedMap.find?_of_values_eq_nil hvalues k
  · simp at h

theorem isSome_ofTaskMap {m : OrderedMap TaskId Task} {k : TaskId} {t : Task}
    (h : m.find? k = some t) : (ofTaskMap m).isSome = true := by
  cases hm : ofTaskMap m with
  | none => rw [ofTaskMap_eq_none hm] at h; simp at h
  | some i => rfl

theorem dominantTask_mem (t : Task) (rest : List Task) : dominantTask t rest ∈ t :: rest := by
  induction rest generalizing t with
  | nil => exact List.mem_cons_self
  | cons u rest ih =>
    rw [dominantTask]
    split
    · exact List.mem_cons_of_mem t (ih u)
    · rcases List.mem_cons.1 (ih t) with same | later
      · exact List.mem_cons.2 (.inl same)
      · exact List.mem_cons_of_mem t (List.mem_cons_of_mem u later)

/-- The condition of an instance is that of one of its tasks. -/
theorem exists_condition {m : OrderedMap TaskId Task} {i : Instance} (h : ofTaskMap m = some i) :
    ∃ k t, m.find? k = some t ∧ t.condition = i.condition := by
  unfold ofTaskMap at h
  split at h
  · simp at h
  · next first rest hvalues =>
    obtain ⟨k, hk⟩ := OrderedMap.mem_values.1 (hvalues ▸ dominantTask_mem first rest)
    exact ⟨k, _, hk, by rw [← Option.some.inj h]; rfl⟩

/-- The instance is what its tasks make of it, and its tasks stand under their own ids, all of them
with the instance id `id`. -/
structure Assembled (id : InstanceId) (i : Instance) : Prop where
  derived : ofTaskMap i.tasks = some i
  keyed : ∀ k t, i.tasks.find? k = some t → t.id = k ∧ k.instanceId = id

/-- An instance that is made of its tasks has the id that they have. -/
theorem Assembled.id_eq {id : InstanceId} {i : Instance} (h : i.Assembled id) : i.id = id := by
  have derived := h.derived
  unfold ofTaskMap at derived
  split at derived
  · cases derived
  · next first rest values =>
    obtain ⟨k, hk⟩ := OrderedMap.mem_values.1 (values ▸ List.mem_cons_self : first ∈ i.tasks.values)
    obtain ⟨rfl, hinstance⟩ := h.keyed k first hk
    rw [← Option.some.inj derived]
    exact hinstance

/-- Tasks that stand under their own ids can be listed and put together again. -/
theorem ofTasks_values {m : OrderedMap TaskId Task} (h : ∀ k t, m.find? k = some t → t.id = k) :
    ofTasks m.values = ofTaskMap m := by
  rw [ofTasks, OrderedMap.ofList_values h]

theorem assembled_of_ofTaskMap {id : InstanceId} {m : OrderedMap TaskId Task} {i : Instance}
    (keyed : ∀ k t, m.find? k = some t → t.id = k ∧ k.instanceId = id)
    (h : ofTaskMap m = some i) : i.Assembled id := by
  have htasks := tasks_of_ofTaskMap h
  exact ⟨by rw [htasks, h], by rw [htasks]; exact keyed⟩

section

variable {id : InstanceId} {i : Instance}

theorem keyed_insert (h : i.Assembled id) {new : Task} (hnew : new.instanceId = id) :
    ∀ k t, (i.tasks.insert new.id new).find? k = some t → t.id = k ∧ k.instanceId = id := by
  intro k t hk
  rw [OrderedMap.find?_insert] at hk
  split at hk
  · next heq =>
    obtain rfl := Option.some.inj hk
    exact ⟨heq.symm, heq ▸ hnew⟩
  · exact h.keyed k t hk

theorem keyed_erase (h : i.Assembled id) (old : TaskId) :
    ∀ k t, (i.tasks.erase old).find? k = some t → t.id = k ∧ k.instanceId = id := by
  intro k t hk
  rw [OrderedMap.find?_erase] at hk
  split at hk
  · simp at hk
  · exact h.keyed k t hk

/-- An instance with a task more is the instance of the tasks with that one put in. -/
theorem ofTaskMap_insert (h : i.Assembled id) {new : Task} (hnew : new.instanceId = id) :
    ofTaskMap (i.tasks.insert new.id new) = some (i.withTask new) := by
  have hfind : (i.tasks.insert new.id new).find? new.id = some new := by
    rw [OrderedMap.find?_insert, if_pos rfl]
  obtain ⟨j, hj⟩ := Option.isSome_iff_exists.1 (isSome_ofTaskMap hfind)
  rw [withTask, ofTasks_values fun k t hk => (keyed_insert h hnew k t hk).1, hj, Option.getD_some]

/-- An instance without one of its tasks is the instance of the others. -/
theorem ofTaskMap_erase (h : i.Assembled id) (old : TaskId) :
    i.withoutTask old = ofTaskMap (i.tasks.erase old) := by
  rw [withoutTask, ofTasks_values fun k t hk => (keyed_erase h old k t hk).1]

end

end Instance

namespace Tracker

/-! ## Trackers that were filled by changes -/

/-- Each instance is what its tasks make of it, and stands under its own id. -/
def Assembled (t : Tracker) : Prop := ∀ id i, t.instances.find? id = some i → i.Assembled id

/-- Tasks of one instance belong to one run spec. -/
def Uniform (t : Tracker) : Prop :=
  ∀ a b, (t.task? a).isSome = true → (t.task? b).isSome = true → a.instanceId = b.instanceId →
    a.runSpecId = b.runSpecId

structure WellFormed (t : Tracker) : Prop where
  assembled : t.Assembled
  uniform : t.Uniform

theorem wellFormed_empty : empty.WellFormed :=
  ⟨fun id i h => by simp [empty] at h, fun a b h => by simp [task?, empty] at h⟩

theorem task?_eq (t : Tracker) (id : TaskId) :
    t.task? id = (t.instances.find? id.instanceId).bind fun i => i.tasks.find? id := rfl

theorem id_of_task? {t : Tracker} (h : t.Assembled) {id : TaskId} {task : Task}
    (hid : t.task? id = some task) : task.id = id := by
  rw [task?_eq, Option.bind_eq_some_iff] at hid
  obtain ⟨i, hi, hk⟩ := hid
  exact ((h _ i hi).keyed id task hk).1

/-- The tasks of an instance are those of the flat map that have its id. -/
theorem find?_tasks {t : Tracker} (h : t.Assembled) {id : InstanceId} {i : Instance}
    (hi : t.instances.find? id = some i) (k : TaskId) :
    i.tasks.find? k = if k.instanceId = id then t.task? k else none := by
  split
  · next hk => rw [task?_eq, hk, hi, Option.bind_some]
  · next hk =>
    rw [Option.eq_none_iff_forall_ne_some]
    exact fun task htask => hk ((h id i hi).keyed k task htask).2

/-- An instance is known as long as one of its tasks is. -/
theorem exists_task? {t : Tracker} (h : t.Assembled) {id : InstanceId} {i : Instance}
    (hi : t.instances.find? id = some i) :
    ∃ k task, t.task? k = some task ∧ k.instanceId = id ∧ k.runSpecId = i.runSpecId := by
  obtain ⟨k, task, hk, hspec⟩ := Instance.exists_runSpecId (h id i hi).derived
  obtain ⟨hid, hinstance⟩ := (h id i hi).keyed k task hk
  refine ⟨k, task, ?_, hinstance, ?_⟩
  · rw [task?_eq, hinstance, hi, Option.bind_some, hk]
  · rw [← hid, ← hspec]
    rfl

/-- If all tasks of an instance are in one condition, so is the instance. -/
theorem condition_of_task? {t : Tracker} (h : t.Assembled) {id : InstanceId} {i : Instance}
    (hi : t.instances.find? id = some i) {c : Condition}
    (all : ∀ k task, t.task? k = some task → k.instanceId = id → task.condition = c) :
    i.condition = c := by
  obtain ⟨k, task, hk, condition⟩ := Instance.exists_condition (h id i hi).derived
  obtain ⟨-, hinstance⟩ := (h id i hi).keyed k task hk
  rw [← condition]
  exact all k task (by rw [task?_eq, hinstance, hi, Option.bind_some, hk]) hinstance

/-- An instance of one tracker is known to another that has its tasks. -/
theorem isSome_find?_of_task?_eq {t u : Tracker} (ht : t.Assembled) {id : InstanceId}
    (h : ∀ k, k.instanceId = id → t.task? k = u.task? k) {i : Instance}
    (hi : t.instances.find? id = some i) : (u.instances.find? id).isSome = true := by
  obtain ⟨k, task, hk, hinstance, -⟩ := exists_task? ht hi
  rw [h k hinstance, task?_eq, hinstance] at hk
  cases hf : u.instances.find? id with
  | none => simp [hf] at hk
  | some j => rfl

/-- Trackers that have the same tasks of an instance have the same instance. -/
theorem find?_eq_of_task?_eq {t u : Tracker} (ht : t.Assembled) (hu : u.Assembled) {id : InstanceId}
    (h : ∀ k, k.instanceId = id → t.task? k = u.task? k) :
    t.instances.find? id = u.instances.find? id := by
  cases hi : t.instances.find? id with
  | none =>
    cases hj : u.instances.find? id with
    | none => rfl
    | some j =>
      have := isSome_find?_of_task?_eq hu (fun k hk => (h k hk).symm) hj
      simp [hi] at this
  | some i =>
    obtain ⟨j, hj⟩ := Option.isSome_iff_exists.1 (isSome_find?_of_task?_eq ht h hi)
    have htasks : i.tasks = j.tasks := by
      apply OrderedMap.ext_find?
      intro k
      rw [find?_tasks ht hi, find?_tasks hu hj]
      split
      · next hk => exact h k hk
      · rfl
    have hij : some i = some j := by
      rw [← (ht id i hi).derived, ← (hu id j hj).derived, htasks]
    rw [hj, hij]

/-- Trackers with the same tasks are equal. -/
theorem eq_of_task?_eq {t u : Tracker} (ht : t.Assembled) (hu : u.Assembled)
    (h : ∀ id, t.task? id = u.task? id) : t = u := by
  have hinstances : t.instances = u.instances :=
    OrderedMap.ext_find? fun _ => find?_eq_of_task?_eq ht hu fun k _ => h k
  cases t
  cases u
  exact congrArg mk hinstances

/-- An instance with one task alone stands under its id, and is of its run spec and condition. -/
theorem find?_of_alone {t : Tracker} (h : t.Assembled) {i : Instance} (hi : i ∈ t.snapshot)
    {u : Task} (alone : i.tasks.values = [u]) :
    t.instances.find? u.instanceId = some i ∧ i.runSpecId = u.runSpecId ∧
      i.condition = u.condition ∧
        ∀ k, k.instanceId = u.instanceId → t.task? k = if k = u.id then some u else none := by
  obtain ⟨id, hid⟩ := OrderedMap.mem_values.1 hi
  have assembled := h id i hid
  obtain ⟨key, hkey⟩ := OrderedMap.mem_values.1 (alone ▸ List.mem_cons_self : u ∈ i.tasks.values)
  obtain ⟨rfl, hinstance⟩ := assembled.keyed key u hkey
  have hinstance : u.instanceId = id := hinstance
  have derived := assembled.derived
  simp only [Instance.ofTaskMap, alone, Option.some.injEq] at derived
  refine ⟨hinstance ▸ hid, by rw [← derived], by rw [← derived]; rfl, ?_⟩
  intro k hk
  rw [task?_eq, hk, hinstance, hid, Option.bind_some]
  split
  · next heq => rw [heq, hkey]
  · next hne =>
    rw [Option.eq_none_iff_forall_ne_some]
    intro v hv
    have hmem : v ∈ i.tasks.values := OrderedMap.mem_values.2 ⟨k, hv⟩
    rw [alone, List.mem_singleton] at hmem
    exact hne (hmem ▸ (assembled.keyed k v hv).1.symm)

theorem mem_tasks_of_task? {t : Tracker} {id : TaskId} {task : Task}
    (h : t.task? id = some task) : task ∈ t.tasks := by
  obtain ⟨i, hi, hk⟩ := Option.bind_eq_some_iff.1 h
  exact List.mem_flatMap.2 ⟨i, OrderedMap.mem_values.2 ⟨_, hi⟩, OrderedMap.mem_values.2 ⟨id, hk⟩⟩

/-- The tasks of an instance are known under their ids, and are of its run spec. -/
theorem task?_of_mem_snapshot {t : Tracker} (h : t.WellFormed) {i : Instance}
    (hi : i ∈ t.snapshot) {task : Task} (ht : task ∈ i.tasks.values) :
    t.task? task.id = some task ∧ task.id.runSpecId = i.runSpecId := by
  obtain ⟨id, hid⟩ := OrderedMap.mem_values.1 hi
  obtain ⟨k, hk⟩ := OrderedMap.mem_values.1 ht
  obtain ⟨rfl, hinstance⟩ := (h.assembled id i hid).keyed k task hk
  have known : t.task? task.id = some task := by
    rw [task?_eq, hinstance, hid, Option.bind_some, hk]
  obtain ⟨other, task', hother, hinstance', hspec⟩ := exists_task? h.assembled hid
  have same := h.uniform task.id other (by rw [known]; rfl) (by rw [hother]; rfl)
    (hinstance.trans hinstance'.symm)
  exact ⟨known, same.trans hspec⟩

/-- An instance of the tracker stands under its id. -/
theorem id_of_mem_snapshot {t : Tracker} (h : t.Assembled) {i : Instance} (hi : i ∈ t.snapshot) :
    t.instances.find? i.id = some i ∧ i.Assembled i.id := by
  obtain ⟨id, hid⟩ := OrderedMap.mem_values.1 hi
  have assembled := h id i hid
  rw [assembled.id_eq]
  exact ⟨hid, assembled⟩

theorem instanceId_of_mem {t : Tracker} (h : t.Assembled) {i : Instance} (hi : i ∈ t.snapshot)
    {u : Task} (hu : u ∈ i.tasks.values) : u.instanceId = i.id := by
  obtain ⟨k, hk⟩ := OrderedMap.mem_values.1 hu
  obtain ⟨rfl, hinstance⟩ := (id_of_mem_snapshot h hi).2.keyed k u hk
  exact hinstance

/-- Instances come in the order of their ids. -/
theorem pairwise_snapshot {t : Tracker} (h : t.Assembled) :
    t.snapshot.Pairwise fun i j => compare i.id j.id = .lt :=
  OrderedMap.pairwise_values fun k i hi => (h k i hi).id_eq

/-! ## Changes -/

theorem find?_setInstance (t : Tracker) (id id' : InstanceId) (o : Option Instance) :
    (t.setInstance id o).instances.find? id' = if id' = id then o else t.instances.find? id' := by
  cases o with
  | none => exact OrderedMap.find?_erase _ _ _
  | some i => exact OrderedMap.find?_insert _ _ _ _

theorem task?_setInstance (t : Tracker) (id : InstanceId) (o : Option Instance) (k : TaskId) :
    (t.setInstance id o).task? k =
      if k.instanceId = id then o.bind fun i => i.tasks.find? k else t.task? k := by
  rw [task?_eq, find?_setInstance]
  split <;> rfl

theorem Assembled.setInstance {t : Tracker} (h : t.Assembled) {id : InstanceId}
    {o : Option Instance} (ho : ∀ i, o = some i → i.Assembled id) :
    (t.setInstance id o).Assembled := by
  intro id' i hi
  rw [find?_setInstance] at hi
  split at hi
  · next heq => exact heq ▸ ho i hi
  · exact h id' i hi

/-- The map of a single task holds that task alone. -/
theorem ofTasks_singleton (new : Task) :
    ∃ i, Instance.ofTasks [new] = some i ∧ i.Assembled new.instanceId ∧
      ∀ k, i.tasks.find? k = if k = new.id then some new else none := by
  have hfind : ∀ k, (OrderedMap.ofList [(new.id, new)]).find? k =
      if k = new.id then some new else none := by
    intro k
    rw [OrderedMap.find?_ofList]
    by_cases hk : k = new.id
    · simp [hk]
    · have hk' : new.id ≠ k := fun h => hk h.symm
      simp [hk, hk']
  obtain ⟨i, hi⟩ := Option.isSome_iff_exists.1
    (Instance.isSome_ofTaskMap ((hfind new.id).trans (if_pos rfl)))
  refine ⟨i, hi, Instance.assembled_of_ofTaskMap ?_ hi, ?_⟩
  · intro k t hk
    rw [hfind] at hk
    split at hk
    · next heq =>
      obtain rfl := Option.some.inj hk
      exact ⟨heq.symm, heq ▸ rfl⟩
    · simp at hk
  · rw [Instance.tasks_of_ofTaskMap hi]
    exact hfind

/-- What a new value of a task does to its instance, if the tracker takes it. -/
theorem putTask_eq_ok {t t' : Tracker} (h : t.Assembled) {new : Task} (hp : t.putTask new = .ok t') :
    ∃ i, t' = t.setInstance new.instanceId (some i) ∧ i.Assembled new.instanceId ∧
      ∀ k, k.instanceId = new.instanceId →
        i.tasks.find? k = if k = new.id then some new else t.task? k := by
  unfold putTask at hp
  split at hp
  · next i hi =>
    split at hp
    · obtain rfl := Except.ok.inj hp
      have hi' := h _ i hi
      have hinstance : new.instanceId = new.instanceId := rfl
      have hmap := Instance.ofTaskMap_insert hi' hinstance
      refine ⟨_, rfl, Instance.assembled_of_ofTaskMap (Instance.keyed_insert hi' rfl) hmap, ?_⟩
      intro k hk
      rw [Instance.tasks_of_ofTaskMap hmap, OrderedMap.find?_insert, find?_tasks h hi, if_pos hk]
    · simp at hp
  · next hi =>
    obtain rfl := Except.ok.inj hp
    obtain ⟨i, hofTasks, hassembled, hfind⟩ := ofTasks_singleton new
    refine ⟨i, by rw [hofTasks], hassembled, ?_⟩
    intro k hk
    rw [hfind, task?_eq, hk, hi, Option.bind_none]

/-- Taking in a task changes nothing but that task. -/
theorem task?_putTask {t t' : Tracker} (h : t.Assembled) {new : Task}
    (hp : t.putTask new = .ok t') (id : TaskId) :
    t'.task? id = if id = new.id then some new else t.task? id := by
  obtain ⟨i, rfl, -, hfind⟩ := putTask_eq_ok h hp
  rw [task?_setInstance]
  split
  · next hid => rw [Option.bind_some, hfind id hid]
  · next hid => rw [if_neg fun heq => hid (congrArg TaskId.instanceId heq)]

theorem Assembled.putTask {t t' : Tracker} (h : t.Assembled) {new : Task}
    (hp : t.putTask new = .ok t') : t'.Assembled := by
  obtain ⟨i, rfl, hassembled, -⟩ := putTask_eq_ok h hp
  exact h.setInstance fun j hj => Option.some.inj hj ▸ hassembled

/-- Forgetting a task changes nothing but that task. -/
theorem task?_dropTask {t : Tracker} (h : t.Assembled) (old : Task) (id : TaskId) :
    (t.dropTask old).task? id = if id = old.id then none else t.task? id := by
  unfold dropTask
  split
  · next i hi =>
    have hi' := h _ i hi
    rw [task?_setInstance]
    split
    · next hid =>
      have herase : (i.tasks.erase old.id).find? id = if id = old.id then none else t.task? id := by
        rw [OrderedMap.find?_erase, find?_tasks h hi, if_pos hid]
      rw [Instance.ofTaskMap_erase hi']
      cases hmap : Instance.ofTaskMap (i.tasks.erase old.id) with
      | none => rw [Option.bind_none, ← herase, Instance.ofTaskMap_eq_none hmap]
      | some j => rw [Option.bind_some, Instance.tasks_of_ofTaskMap hmap, herase]
    · next hid => rw [if_neg fun heq => hid (congrArg TaskId.instanceId heq)]
  · next hi =>
    split
    · next hid => rw [hid, task?_eq, show old.id.instanceId = old.instanceId from rfl, hi]; rfl
    · rfl

theorem Assembled.dropTask {t : Tracker} (h : t.Assembled) (old : Task) :
    (t.dropTask old).Assembled := by
  unfold Tracker.dropTask
  split
  · next i hi =>
    have hi' := h _ i hi
    refine h.setInstance ?_
    intro j hj
    rw [Instance.ofTaskMap_erase hi'] at hj
    exact Instance.assembled_of_ofTaskMap (Instance.keyed_erase hi' old.id) hj
  · exact h

/-- A task is taken unless its instance has a task of another run spec. -/
theorem isOk_putTask {t : Tracker} (h : t.Assembled) {new : Task}
    (admits : ∀ id, (t.task? id).isSome = true → id.instanceId = new.instanceId →
      id.runSpecId = new.runSpecId) : ∃ t', t.putTask new = .ok t' := by
  unfold putTask
  split
  · next i hi =>
    obtain ⟨k, task, hk, hinstance, hspec⟩ := exists_task? h hi
    have := admits k (by simp [hk]) hinstance
    rw [if_pos (hspec.symm.trans this)]
    exact ⟨_, rfl⟩
  · exact ⟨_, rfl⟩

/-- A tracker takes a task only if all tasks of its instance are of the same run spec. -/
theorem admits_of_putTask {t t' : Tracker} (h : t.WellFormed) {new : Task}
    (hp : t.putTask new = .ok t') {id : TaskId} (hid : (t.task? id).isSome = true)
    (hinstance : id.instanceId = new.instanceId) : id.runSpecId = new.runSpecId := by
  unfold putTask at hp
  split at hp
  · next i hi =>
    split at hp
    · next hspec =>
      obtain ⟨k, task, hk, hk', hspec'⟩ := exists_task? h.assembled hi
      have := h.uniform id k hid (by simp [hk]) (hinstance.trans hk'.symm)
      rw [this, hspec', hspec]
    · simp at hp
  · next hi => simp [task?_eq, hinstance, hi] at hid

theorem WellFormed.putTask {t t' : Tracker} (h : t.WellFormed) {new : Task}
    (hp : t.putTask new = .ok t') : t'.WellFormed := by
  refine ⟨h.assembled.putTask hp, ?_⟩
  intro a b ha hb hab
  have htask := task?_putTask h.assembled hp
  rw [htask] at ha hb
  split at ha
  · next hanew =>
    split at hb
    · next hbnew => rw [hanew, hbnew]
    · exact hanew ▸ (admits_of_putTask h hp hb (by rw [← hab, hanew]; rfl)).symm
  · split at hb
    · next hbnew => exact hbnew ▸ admits_of_putTask h hp ha (by rw [hab, hbnew]; rfl)
    · exact h.uniform a b ha hb hab

theorem WellFormed.dropTask {t : Tracker} (h : t.WellFormed) (old : Task) :
    (t.dropTask old).WellFormed := by
  refine ⟨h.assembled.dropTask old, ?_⟩
  intro a b ha hb hab
  rw [task?_dropTask h.assembled] at ha hb
  split at ha
  · simp at ha
  · split at hb
    · simp at hb
    · exact h.uniform a b ha hb hab

/-! ## Trackers of lists of tasks -/

/-- The instances of a list of tasks are made of the tasks of one instance id each. -/
theorem find?_ofTasks_instances (ts : List Task) (id : InstanceId) (i : Instance) :
    (ofTasks ts).instances.find? id = some i ↔
      (∃ t ∈ ts, t.instanceId = id) ∧
        Instance.ofTasks (ts.filter fun u => u.instanceId == id) = some i := by
  rw [ofTasks, OrderedMap.find?_ofList_eq_some_iff]
  · simp only [List.mem_filterMap, Option.map_eq_some_iff, Prod.mk.injEq]
    constructor
    · rintro ⟨t, ht, j, hj, rfl, rfl⟩
      exact ⟨⟨t, ht, rfl⟩, hj⟩
    · rintro ⟨⟨t, ht, rfl⟩, hi⟩
      exact ⟨t, ht, i, hi, rfl, rfl⟩
  · simp only [List.mem_filterMap, Option.map_eq_some_iff]
    rintro _ ⟨t, -, j, hj, rfl⟩ _ ⟨t', -, j', hj', rfl⟩ hkey
    have hkey : t.instanceId = t'.instanceId := hkey
    rw [hkey, hj'] at hj
    exact (Option.some.inj hj).symm

theorem assembled_ofTasks (ts : List Task) : (ofTasks ts).Assembled := by
  intro id i hi
  obtain ⟨-, hi⟩ := (find?_ofTasks_instances ts id i).1 hi
  refine Instance.assembled_of_ofTaskMap ?_ hi
  intro k t hk
  obtain ⟨u, hu, heq⟩ := List.mem_map.1 (OrderedMap.mem_of_find?_ofList hk)
  obtain ⟨rfl, rfl⟩ := Prod.mk.inj heq
  have hinstance : u.instanceId = id := by simpa using (List.mem_filter.1 hu).2
  exact ⟨rfl, hinstance⟩

/-- A tracker of a list knows of each id the task that is listed last. -/
theorem task?_ofTasks_eq (ts : List Task) (id : TaskId) :
    (ofTasks ts).task? id = (OrderedMap.ofList (ts.map fun t => (t.id, t))).find? id := by
  -- Tasks of other instances do not have the id, so the tasks of its instance are enough.
  have own : (OrderedMap.ofList ((ts.filter fun t => t.instanceId == id.instanceId).map
      fun t => (t.id, t))).find? id = (OrderedMap.ofList (ts.map fun t => (t.id, t))).find? id := by
    rw [OrderedMap.find?_ofList, OrderedMap.find?_ofList, ← List.map_reverse, ← List.map_reverse,
      ← List.filter_reverse, List.find?_map, List.find?_map, List.find?_filter]
    congr 2
    refine congrArg (List.find? · ts.reverse) (funext fun t => ?_)
    by_cases same : t.id = id
    · simp [same, Task.instanceId]
    · simp [same]
  rw [← own, task?_eq]
  cases hi : (ofTasks ts).instances.find? id.instanceId with
  | some i =>
    have made := ((find?_ofTasks_instances ts _ i).1 hi).2
    rw [Option.bind_some, Instance.tasks_of_ofTaskMap made]
  | none =>
    rw [Option.bind_none, eq_comm, Option.eq_none_iff_forall_ne_some]
    intro t found
    obtain ⟨i, made⟩ := Option.isSome_iff_exists.1 (Instance.isSome_ofTaskMap found)
    obtain ⟨u, hu, -⟩ := List.mem_map.1 (OrderedMap.mem_of_find?_ofList found)
    obtain ⟨member, same⟩ := List.mem_filter.1 hu
    have there := (find?_ofTasks_instances ts _ i).2 ⟨⟨u, member, beq_iff_eq.1 same⟩, made⟩
    cases hi.symm.trans there

/-- The tasks of a tracker that is put together of a list are in the list. -/
theorem mem_of_task?_ofTasks {ts : List Task} {k : TaskId} {task : Task}
    (h : (ofTasks ts).task? k = some task) : task ∈ ts ∧ task.id = k := by
  rw [task?_ofTasks_eq] at h
  obtain ⟨u, hu, same⟩ := List.mem_map.1 (OrderedMap.mem_of_find?_ofList h)
  obtain ⟨rfl, rfl⟩ := Prod.mk.inj same
  exact ⟨hu, rfl⟩

/-- A task of the id of each task in the list is known. -/
theorem isSome_task?_ofTasks {ts : List Task} {task : Task} (h : task ∈ ts) :
    ((ofTasks ts).task? task.id).isSome = true := by
  have entry : (task.id, task) ∈ ts.map fun t => (t.id, t) := List.mem_map.2 ⟨task, h, rfl⟩
  have found := OrderedMap.isSome_find?_ofList entry
  rwa [← task?_ofTasks_eq] at found

/-- A tracker of tasks with different ids knows these tasks. -/
theorem task?_ofTasks {ts : List Task} (distinct : ∀ t ∈ ts, ∀ u ∈ ts, t.id = u.id → t = u)
    (id : TaskId) (t : Task) : (ofTasks ts).task? id = some t ↔ t ∈ ts ∧ t.id = id := by
  refine ⟨mem_of_task?_ofTasks, ?_⟩
  rintro ⟨member, rfl⟩
  obtain ⟨u, known⟩ := Option.isSome_iff_exists.1 (isSome_task?_ofTasks member)
  obtain ⟨hu, same⟩ := mem_of_task?_ofTasks known
  rw [known, distinct u hu t member same]

end Tracker

end Placement
