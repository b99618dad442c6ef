/-
The tracker keeps a flat map of tasks, cut into instances.

* `Change.onFlat` is what a change does to a flat map of tasks, and `Tracker.Refuses` when the tracker
  does not take it. `Tracker.task?_receive` says that the tracker does the one or the other.
* `Instance.Canonical` says what an instance is to the tasks in it: its state is the one that they give
  it, by `InstanceState.Aggregates`, which names the task of least rank rather than looking for it.
* `Tracker.refines_receiveAll` has both of every tracker that changes lead to, from an empty one or from
  one that was loaded, and that its instances share the flat map out among them. The flat map of a tracker
  that was loaded is the repository (`Tracker.KnowsStored`).
-/
import Mathlib.Logic.Function.Basic
import Placement.Proofs.Confluence
import Placement.Proofs.Restart

namespace Placement

/-! ## The state that tasks give an instance -/

/-- The state of an instance of these tasks: the condition is the one of least rank, since the time of
the first task that is in it, and the health is known only if all tasks report theirs. -/
structure InstanceState.Aggregates (s : InstanceState) (tasks : List Task) : Prop where
  dominant : ∃ before d after, tasks = before ++ d :: after ∧
    (∀ t ∈ before, d.condition.rank < t.condition.rank) ∧
    (∀ t ∈ after, d.condition.rank ≤ t.condition.rank) ∧
    s.condition = d.condition ∧ s.since = d.status.since
  healthy : s.healthy = if ∀ t ∈ tasks, t.status.healthy.isSome = true then
    some (tasks.all fun t => t.status.healthy == some true) else none

/-- The dominant task has the least rank, and those before it have more. -/
theorem dominantTask_split (t : Task) (rest : List Task) :
    ∃ before after, t :: rest = before ++ dominantTask t rest :: after ∧
      (∀ u ∈ before, (dominantTask t rest).condition.rank < u.condition.rank) ∧
      ∀ u ∈ after, (dominantTask t rest).condition.rank ≤ u.condition.rank := by
  induction rest generalizing t with
  | nil => exact ⟨[], [], rfl, by simp, by simp⟩
  | cons u rest ih =>
    rw [dominantTask]
    split
    · next less =>
      obtain ⟨before, after, split, first, others⟩ := ih u
      refine ⟨t :: before, after, by rw [split]; rfl, ?_, others⟩
      -- The first task has more than the second, and that has no less than the dominant one.
      have least : (dominantTask u rest).condition.rank ≤ u.condition.rank := by
        cases before with
        | nil => exact Nat.le_of_eq (congrArg (·.condition.rank) (List.cons.inj split).1.symm)
        | cons v before =>
          obtain ⟨rfl, -⟩ := List.cons.inj split
          exact Nat.le_of_lt (first u List.mem_cons_self)
      intro v hv
      rcases List.mem_cons.1 hv with rfl | hv
      · exact Nat.lt_of_le_of_lt least less
      · exact first v hv
    · next more =>
      obtain ⟨before, after, split, first, others⟩ := ih t
      cases before with
      | nil =>
        obtain ⟨same, rfl⟩ := List.cons.inj split
        rw [← same] at others ⊢
        refine ⟨[], u :: rest, rfl, by simp, ?_⟩
        intro v hv
        rcases List.mem_cons.1 hv with rfl | hv
        · exact Nat.not_lt.1 more
        · exact others v hv
      | cons v before =>
        obtain ⟨rfl, tail⟩ := List.cons.inj split
        refine ⟨t :: u :: before, after, congrArg (t :: u :: ·) tail, ?_, others⟩
        intro v hv
        have here := first t List.mem_cons_self
        rcases List.mem_cons.1 hv with rfl | hv
        · exact here
        · rcases List.mem_cons.1 hv with rfl | hv
          · exact Nat.lt_of_lt_of_le here (Nat.not_lt.1 more)
          · exact first v (List.mem_cons_of_mem t hv)

theorem jointHealth_eq (tasks : List Task) :
    jointHealth tasks = if ∀ t ∈ tasks, t.status.healthy.isSome = true then
      some (tasks.all fun t => t.status.healthy == some true) else none := by
  -- Carried along is whether all tasks so far were healthy.
  have carried : ∀ ok : Bool, tasks.foldlM (fun ok t => t.status.healthy.map (ok && ·)) ok =
      if ∀ t ∈ tasks, t.status.healthy.isSome = true then
        some (ok && tasks.all fun t => t.status.healthy == some true) else none := by
    induction tasks with
    | nil => simp
    | cons t rest ih =>
      intro ok
      rw [List.foldlM_cons]
      cases ht : t.status.healthy with
      | none => simp [ht]
      | some b =>
        rw [Option.map_some, Option.bind_eq_bind, Option.bind_some, ih]
        cases b <;> simp [ht]
  rw [jointHealth, carried true, Bool.true_and]

theorem aggregates_aggregate (first : Task) (rest : List Task) :
    (Instance.aggregate first rest).Aggregates (first :: rest) := by
  obtain ⟨before, after, split, more, least⟩ := dominantTask_split first rest
  exact ⟨⟨before, _, after, split, more, least, rfl, rfl⟩, jointHealth_eq (first :: rest)⟩

/-! ## Instances -/

/-- The instance has a task, and nothing but tasks of its id and run spec, each under its own id. All
else follows from the tasks: it is what putting them together anew would give. -/
structure Instance.Canonical (i : Instance) : Prop where
  filled : i.tasks.values ≠ []
  own : ∀ k t, i.tasks.find? k = some t →
    t.id = k ∧ t.instanceId = i.id ∧ t.runSpecId = i.runSpecId
  state : i.state.Aggregates i.tasks.values
  rebuilt : Instance.ofTasks i.tasks.values = some i

namespace Tracker

variable {t t' : Tracker}

theorem canonical_of_find? (h : t.WellFormed) {id : InstanceId} {i : Instance}
    (hi : t.instances.find? id = some i) : i.id = id ∧ i.Canonical := by
  have assembled := h.assembled id i hi
  have rebuilt : Instance.ofTasks i.tasks.values = some i := by
    rw [Instance.ofTasks_values fun k u hk => (assembled.keyed k u hk).1, assembled.derived]
  have derived := assembled.derived
  unfold Instance.ofTaskMap at derived
  split at derived
  · cases derived
  · next first rest values =>
    have made := Option.some.inj derived
    have own_id : i.id = id := assembled.id_eq
    refine ⟨own_id, by simp [values], ?_, ?_, rebuilt⟩
    · intro k u hk
      obtain ⟨rfl, hinstance⟩ := assembled.keyed k u hk
      have mem : u ∈ i.tasks.values := OrderedMap.mem_values.2 ⟨_, hk⟩
      obtain ⟨-, spec⟩ := task?_of_mem_snapshot h (OrderedMap.mem_values.2 ⟨id, hi⟩) mem
      exact ⟨rfl, hinstance.trans own_id.symm, spec⟩
    · have state : i.state = Instance.aggregate first rest := by rw [← made]
      rw [state, values]
      exact aggregates_aggregate first rest

/-- The instances of the tracker share the flat map out among them, each task to the instance of its
id. -/
structure Partitions (t : Tracker) : Prop where
  distinct : (t.snapshot.map (·.id)).Nodup
  part : ∀ i ∈ t.snapshot, ∀ k, i.tasks.find? k = if k.instanceId = i.id then t.task? k else none
  whole : ∀ k, (t.task? k).isSome = true → ∃ i ∈ t.snapshot, i.id = k.instanceId

theorem partitions_of_wellFormed (h : t.WellFormed) : t.Partitions := by
  refine ⟨?_, ?_, ?_⟩
  · rw [List.nodup_iff_pairwise_ne, List.pairwise_map]
    exact (pairwise_snapshot h.assembled).imp OrderedMap.ne_of_before
  · intro i hi k
    obtain ⟨id, hid⟩ := OrderedMap.mem_values.1 hi
    rw [(canonical_of_find? h hid).1]
    exact find?_tasks h.assembled hid k
  · intro k known
    obtain ⟨task, hk⟩ := Option.isSome_iff_exists.1 known
    obtain ⟨i, hi, -⟩ := Option.bind_eq_some_iff.1 hk
    exact ⟨i, OrderedMap.mem_values.2 ⟨_, hi⟩, (canonical_of_find? h hi).1⟩

end Tracker

/-! ## Changes -/

/-- A flat map of tasks after a change: a new value is put in, a task that is to be forgotten is taken
out. -/
def Change.onFlat (m : TaskId → Option Task) : Change → TaskId → Option Task
  | update new _ => Function.update m new.id (some new)
  | expunge old => Function.update m old.id none
  | noChange _ => m
  | failure _ => m

namespace Tracker

/-- The tracker does not take a new value of a task whose instance belongs to another run spec. -/
def Refuses (t : Tracker) : Change → Prop
  | .update new _ => ∃ i, t.instances.find? new.instanceId = some i ∧ i.runSpecId ≠ new.runSpecId
  | _ => False

/-- The tracker after a change, whether it takes it or not. -/
def receive (t : Tracker) (c : Change) : Tracker :=
  match t.notify c with
  | .ok t' => t'
  | .error _ => t

/-- The tracker after changes one after another. -/
def receiveAll (t : Tracker) (cs : List Change) : Tracker := cs.foldl receive t

variable {t : Tracker}

theorem notify_eq_error_iff (c : Change) : (∃ e, t.notify c = .error e) ↔ t.Refuses c := by
  cases c with
  | update new old =>
    have refused : t.Refuses (.update new old) ↔ t.foreign? new.id ≠ none := by
      rw [ne_eq, foreign?_eq_none]
      simp only [Refuses, not_forall, exists_prop]
      rfl
    rw [refused]
    constructor
    · rintro ⟨e, he⟩ goes
      obtain ⟨t', taken⟩ := isOk_putTask_of_foreign goes
      cases taken.symm.trans he
    · intro foreign
      obtain ⟨owner, howner⟩ := Option.ne_none_iff_exists'.1 foreign
      exact ⟨_, putTask_of_foreign howner⟩
  | expunge old => exact ⟨fun ⟨_, he⟩ => (nomatch he), False.elim⟩
  | noChange id => exact ⟨fun ⟨_, he⟩ => (nomatch he), False.elim⟩
  | failure e => exact ⟨fun ⟨_, he⟩ => (nomatch he), False.elim⟩

/-- What the tracker refuses can be told from the flat map: there is a task of the same instance and
another run spec. -/
theorem refuses_iff (h : t.WellFormed) {new : Task} {old : Option Task} :
    t.Refuses (.update new old) ↔ ∃ k, (t.task? k).isSome = true ∧
      k.instanceId = new.instanceId ∧ k.runSpecId ≠ new.runSpecId := by
  constructor
  · rintro ⟨i, hi, other⟩
    obtain ⟨k, task, hk, hinstance, spec⟩ := exists_task? h.assembled hi
    exact ⟨k, by rw [hk]; rfl, hinstance, by rwa [spec]⟩
  · rintro ⟨k, known, hinstance, other⟩
    obtain ⟨task, hk⟩ := Option.isSome_iff_exists.1 known
    obtain ⟨i, hi, -⟩ := Option.bind_eq_some_iff.1 hk
    refine ⟨i, hinstance ▸ hi, ?_⟩
    rwa [h.runSpecId_eq known hi]

theorem receive_of_refuses {c : Change} (refused : t.Refuses c) : t.receive c = t := by
  obtain ⟨e, he⟩ := (notify_eq_error_iff c).2 refused
  rw [receive, he]

/-- A change that is not refused does to the tasks of the tracker what it does to a flat map. -/
theorem task?_receive (h : t.WellFormed) {c : Change} (taken : ¬t.Refuses c) :
    (t.receive c).task? = c.onFlat t.task? := by
  rw [← notify_eq_error_iff, not_exists] at taken
  cases hn : t.notify c with
  | error e => exact absurd hn (taken e)
  | ok t' =>
    rw [receive, hn]
    funext k
    cases c with
    | update new old =>
      rw [Change.onFlat, Function.update_apply]
      exact task?_putTask h.assembled hn k
    | expunge old =>
      rw [Change.onFlat, Function.update_apply, ← Except.ok.inj hn]
      exact task?_dropTask h.assembled old k
    | noChange id => rw [← Except.ok.inj hn]; rfl
    | failure e => rw [← Except.ok.inj hn]; rfl

theorem WellFormed.receive (h : t.WellFormed) (c : Change) : (t.receive c).WellFormed := by
  unfold Tracker.receive
  split
  · next taken => exact h.notify taken
  · exact h

theorem WellFormed.receiveAll (h : t.WellFormed) (cs : List Change) :
    (t.receiveAll cs).WellFormed := by
  induction cs generalizing t with
  | nil => exact h
  | cons c rest ih => exact ih (h.receive c)

end Tracker

/-! ## Loaded trackers -/

namespace Repository

/-- Tasks that are stored and share an instance id share the run spec. -/
def Uniform (r : Repository) : Prop :=
  ∀ j k a b, r.stored? j = some a → r.stored? k = some b → a.instanceId = b.instanceId →
    a.runSpecId = b.runSpecId

end Repository

namespace Tracker

/-- A tracker is well-formed that was loaded where instances are not of several run specs. -/
theorem wellFormed_load {t : Tracker} {r r' : Repository} (uniform : r.Uniform)
    (h : load r = (.ok t, r')) : t.WellFormed := by
  unfold load at h
  split at h
  · next wait ts after listed =>
    obtain rfl := Except.ok.inj (Prod.mk.inj h).1
    refine ⟨assembled_ofTasks ts, ?_⟩
    intro a b ha hb same
    obtain ⟨x, hx⟩ := Option.isSome_iff_exists.1 ha
    obtain ⟨y, hy⟩ := Option.isSome_iff_exists.1 hb
    obtain ⟨memx, rfl⟩ := mem_of_task?_ofTasks hx
    obtain ⟨memy, rfl⟩ := mem_of_task?_ofTasks hy
    have stored := Repository.mem_all_iff (congrArg Prod.fst listed)
    obtain ⟨j, hj⟩ := (stored x).1 memx
    obtain ⟨k, hk⟩ := (stored y).1 memy
    exact uniform j k x y hj hk same
  · cases (Prod.mk.inj h).1
  · cases (Prod.mk.inj h).1

/-- The tasks of the tracker are those that are stored: each of them is, and of each stored task one of its
id is known. Where tasks are stored under their own ids, both are the same map. -/
structure KnowsStored (t : Tracker) (r : Repository) : Prop where
  stored : ∀ k task, t.task? k = some task → task.id = k ∧ ∃ j, r.stored? j = some task
  whole : ∀ j task, r.stored? j = some task → (t.task? task.id).isSome = true
  same : r.Keyed → t.task? = r.stored?

theorem knowsStored_load {t : Tracker} {r r' : Repository} (h : load r = (.ok t, r')) :
    t.KnowsStored r := by
  unfold load at h
  split at h
  · next wait ts after all =>
    obtain rfl := Except.ok.inj (Prod.mk.inj h).1
    have listed := Repository.mem_all_iff (congrArg Prod.fst all)
    refine ⟨?_, ?_, fun keyed => task?_ofTasks_of_stored keyed listed⟩
    · intro k task known
      obtain ⟨member, named⟩ := mem_of_task?_ofTasks known
      exact ⟨named, (listed task).1 member⟩
    · intro j task hj
      exact isSome_task?_ofTasks ((listed task).2 ⟨j, hj⟩)
  · cases (Prod.mk.inj h).1
  · cases (Prod.mk.inj h).1

/-! ## Refinement -/

/-- From an empty tracker, or one loaded from a repository in which tasks of one instance are of one run
spec, changes lead to trackers that keep a flat map: a new value of a task is refused just if its
instance is there and of another run spec, and then nothing changes; every other change does to the
tasks what it does to a flat map. Each instance stands under its own id and is what its tasks make of
it, and the instances share the flat map out among them. The flat map of a loaded tracker is what the
repository stores. -/
theorem refines_receiveAll {t : Tracker}
    (start : t = empty ∨ ∃ r r' : Repository, r.Uniform ∧ load r = (.ok t, r')) (cs : List Change) :
    (∀ c, ((∃ e, (t.receiveAll cs).notify c = .error e) ↔ (t.receiveAll cs).Refuses c) ∧
      ((t.receiveAll cs).Refuses c → (t.receiveAll cs).receive c = t.receiveAll cs) ∧
      (¬(t.receiveAll cs).Refuses c →
        ((t.receiveAll cs).receive c).task? = c.onFlat (t.receiveAll cs).task?)) ∧
    (∀ new old, (t.receiveAll cs).Refuses (.update new old) ↔
      ∃ k, ((t.receiveAll cs).task? k).isSome = true ∧ k.instanceId = new.instanceId ∧
        k.runSpecId ≠ new.runSpecId) ∧
    (∀ id i, (t.receiveAll cs).instances.find? id = some i → i.id = id ∧ i.Canonical) ∧
    (t.receiveAll cs).Partitions ∧
    ∀ r r' : Repository, load r = (.ok t, r') → t.KnowsStored r := by
  have before : t.WellFormed := by
    rcases start with rfl | ⟨r, r', uniform, loaded⟩
    · exact wellFormed_empty
    · exact wellFormed_load uniform loaded
  have h := before.receiveAll cs
  refine ⟨?_, ?_, ?_, partitions_of_wellFormed h, fun _ _ => knowsStored_load⟩
  · intro c
    exact ⟨notify_eq_error_iff c, receive_of_refuses, task?_receive h⟩
  · intro new old
    exact refuses_iff h
  · intro id i
    exact canonical_of_find? h

end Tracker

namespace Sample

/-- A task under the instance id of the members, but of another run spec. -/
def stranger : Task := { firstMember with id := ⟨waitingTask.id.runSpecId, ⟨.ofNat 7⟩, none⟩ }

/-- The first member is stored, and comes into the tracker when that is loaded. -/
def kept : Repository := Repository.empty.put firstMember

theorem stored_kept {k : TaskId} {task : Task} (h : kept.stored? k = some task) :
    k = firstMember.id ∧ task = firstMember := by
  have documents : kept.documents.entries = [(firstMember.id, toJson firstMember)] := rfl
  obtain ⟨j, hj, read⟩ := Option.bind_eq_some_iff.1 h
  rw [OrderedMap.find?_eq_some_iff, documents, List.mem_singleton] at hj
  obtain ⟨rfl, rfl⟩ := Prod.mk.inj hj
  have readsBack : ReadsBack firstMember := by decide +kernel
  exact ⟨rfl, (Option.some.inj (readsBack.symm.trans read)).symm⟩

theorem load_kept : Tracker.load kept = (.ok (Tracker.ofTasks [firstMember]), kept) := by
  have readsBack : ReadsBack firstMember := by decide +kernel
  have listed : kept.all = (.answers 0 (.ok [firstMember]), kept) := by
    have decoded : Repository.decode firstMember.id (toJson firstMember) = .ok firstMember := by
      rw [Repository.decode, readsBack]
    show (TimedCall.answers 0 ([(firstMember.id, toJson firstMember)].mapM _), kept) = _
    rw [List.mapM_cons, decoded]
    rfl
  rw [Tracker.load, listed]

end Sample

theorem Tracker.refines_receiveAll_sample :
    let t := (ofTasks [Sample.firstMember]).receiveAll [.update Sample.secondMember none]
    t.tasks = [Sample.firstMember, Sample.secondMember] ∧
      (∃ e, t.notify (.update Sample.stranger none) = .error e) ∧
      t.receive (.update Sample.stranger none) = t ∧
      (t.receive (.expunge Sample.firstMember)).task? =
        Function.update t.task? Sample.firstMember.id none ∧
      t.Partitions ∧ (ofTasks [Sample.firstMember]).task? = Sample.kept.stored? := by
  have uniform : Sample.kept.Uniform := by
    intro j k a b ha hb _
    rw [(Sample.stored_kept ha).2, (Sample.stored_kept hb).2]
  have keyed : Sample.kept.Keyed := by
    intro k task h
    rw [(Sample.stored_kept h).1, (Sample.stored_kept h).2]
  obtain ⟨steps, refused, -, parted, stored⟩ := refines_receiveAll
    (.inr ⟨Sample.kept, Sample.kept, uniform, Sample.load_kept⟩) [.update Sample.secondMember none]
  have refuses : Refuses _ (.update Sample.stranger none) :=
    (refused _ _).2 ⟨Sample.firstMember.id, by decide +kernel, by decide +kernel, by decide +kernel⟩
  exact ⟨by decide +kernel, (steps _).1.2 refuses, (steps _).2.1 refuses,
    (steps (.expunge Sample.firstMember)).2.2 id, parted, (stored _ _ Sample.load_kept).same keyed⟩

end Placement
