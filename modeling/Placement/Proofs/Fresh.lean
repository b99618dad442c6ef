/-
Fresh identifiers, and the one instance that an operation is for.

* `IdSupply.Fresh` says of the identifiers that are given during some work that they are different, and
  that the tracker knows no instance of any of them beforehand.
* `Decision.Subject` says which instance an operation is for: one that is not known yet, or one whose
  only task waits on its reservation. `Reached.subject` has it of every decision.
* `Subject.find?_other` and `Subject.owned` say that recording the operation, as far as it comes,
  leaves all other instances as they are.
* `Round.Live` is what a round keeps of all this from one try to the next (`Live.decided`,
  `Live.recorded`).
-/
import Placement.Proofs.Course
import Placement.Proofs.Recording

namespace Placement

/-- The identifiers that are given from `s` on until `s'` are different, and none is that of an
instance that the tracker knows. -/
structure IdSupply.Fresh (s s' : IdSupply) (t : Tracker) : Prop where
  unknown : ∀ n, s.ulidsGiven < n → n ≤ s'.ulidsGiven → t.instances.find? ⟨s.ulidAt n⟩ = none
  distinct : ∀ m n, s.ulidsGiven < m → m < n → n ≤ s'.ulidsGiven → s.ulidAt m ≠ s.ulidAt n

instance (s s' : IdSupply) (t : Tracker) : Decidable (s.Fresh s' t) :=
  decidable_of_iff (∀ n < s'.ulidsGiven + 1, s.ulidsGiven < n →
      t.instances.find? ⟨s.ulidAt n⟩ = none ∧
        ∀ m < n, s.ulidsGiven < m → s.ulidAt m ≠ s.ulidAt n)
    ⟨fun h => ⟨fun n hn hlast => (h n (Nat.lt_succ_of_le hlast) hn).1,
        fun m n hm hmn hlast =>
          (h n (Nat.lt_succ_of_le hlast) (Nat.lt_trans hm hmn)).2 m hmn hm⟩,
      fun h n hlast hn => ⟨h.unknown n hn (Nat.le_of_lt_succ hlast),
        fun m hmn hm => h.distinct m n hm hmn (Nat.le_of_lt_succ hlast)⟩⟩

/-- Fewer identifiers that are still to be given are fresh as well. -/
theorem IdSupply.Fresh.mono {s mid s' : IdSupply} {t : Tracker} (h : s.Fresh s' t)
    (continues : s.Continues mid) : mid.Fresh s' t := by
  refine ⟨fun n hn => ?_, fun m n hm => ?_⟩
  · rw [continues.ulidAt]
    exact h.unknown n (Nat.lt_of_le_of_lt continues.ulidsGiven hn)
  · rw [continues.ulidAt]
    exact h.distinct m n (Nat.lt_of_le_of_lt continues.ulidsGiven hm)

namespace Decision

variable {α : Type} {runSpec : RunSpec α} {op : InstanceOp α} {k : InstanceId}

/-! ## The instance of an operation -/

/-- The operation is for tasks of one instance of the run spec. If the instance is known already, then
the run spec is resident, and the operation is for its only task, which waits on its reservation. -/
structure Subject (t : Tracker) (runSpec : RunSpec α) (op : InstanceOp α) (k : InstanceId) :
    Prop where
  named : ∀ s ∈ op.stateOps, s.taskId.instanceId = k ∧ s.taskId.runSpecId = runSpec.id
  known : ∀ i, t.instances.find? k = some i → runSpec.isResident = true ∧
    ∃ u, i.tasks.values = [u] ∧ u.isReserved = true ∧ op.stateOps.map (·.taskId) = [u.id]

/-- A new reservation takes the next identifier. -/
theorem given_of_createVolumes {policy : LaunchPolicy} {info : ReservationInfo} {id : RunSpecId}
    {parts : List (PersistentVolume α × Resource α)} {ids ids' : IdSupply}
    {volumes : Except IdError (List (VolumeId × Resource α))}
    (created : createVolumes policy info id parts ids.nextUlid.2 = (volumes, ids')) :
    ids.ulidsGiven < ids'.ulidsGiven := by
  have same := (continues_createVolumes policy info id parts ids.nextUlid.2).2
  rw [created] at same
  rw [same]
  exact Nat.lt_succ_self _

/-- An operation is for an instance with the next identifier, or for one that waits. -/
theorem Reached.subject [Amount α] {policy : LaunchPolicy} {gpus : GpuPolicy} {o : Offer α}
    {now : Timestamp} {ids ids' : IdSupply} {t : Tracker} {known : List Instance}
    (assembled : t.Assembled) (perm : known.Perm t.snapshot)
    (h : Reached policy gpus runSpec o known now ids op ids')
    (unknown : ids.ulidsGiven < ids'.ulidsGiven → t.instances.find? ids.nextId.1 = none) :
    ∃ k, Subject t runSpec op k ∧
      (t.instances.find? k = none → k = ids.nextId.1 ∧ ids.ulidsGiven < ids'.ulidsGiven) := by
  cases h with
  | launched m ephemeral found made =>
    have given : ids.ulidsGiven < ids.nextUlid.2.ulidsGiven := Nat.lt_succ_self _
    obtain ⟨tasks, launches⟩ := launches_of_made made
    refine ⟨ids.nextId.1, ⟨?_, ?_⟩, fun _ => ⟨rfl, given⟩⟩
    · intro s hs
      obtain ⟨u, -, rfl, spec, instanceId, -⟩ := launches.stateOp hs
      exact ⟨instanceId, spec⟩
    · intro i hi
      exact nomatch (unknown given).symm.trans hi
  | relaunched i u m resident hi own alone waits matched =>
    obtain ⟨found, spec, -, -⟩ := Tracker.find?_of_alone assembled (perm.mem_iff.1 hi) alone
    have ofSpec : u.id.runSpecId = runSpec.id := spec.symm.trans own
    have reserved : u.isReserved = true := by
      simp only [waitsOn, Bool.and_eq_true] at waits
      exact waits.1.1.1
    refine ⟨u.instanceId, ⟨?_, ?_⟩, fun missing => nomatch missing.symm.trans found⟩
    · intro s hs
      obtain rfl := List.mem_singleton.1 hs
      exact ⟨rfl, ofSpec⟩
    · intro j hj
      obtain rfl := Option.some.inj (hj.symm.trans found)
      exact ⟨resident, u, alone, reserved, rfl⟩
  | reserved m volumes deadline resident room found created timed =>
    have given := given_of_createVolumes created
    refine ⟨ids.nextId.1, ⟨?_, ?_⟩, fun _ => ⟨rfl, given⟩⟩
    · intro s hs
      obtain rfl := List.mem_singleton.1 hs
      exact ⟨rfl, rfl⟩
    · intro i hi
      exact nomatch (unknown given).symm.trans hi

namespace Subject

section

variable {t : Tracker}

/-- What is known of the instance beforehand: it is of the run spec, and its only task waits. -/
theorem before (h : Subject t runSpec op k) (assembled : t.Assembled) {i : Instance}
    (hi : t.instances.find? k = some i) :
    i.runSpecId = runSpec.id ∧ i.condition = .reserved ∧ i.hasReservedTask = true ∧
      ∃ u, u.isReserved = true ∧ op.stateOps.map (·.taskId) = [u.id] ∧
        ∀ j, j.instanceId = k → t.task? j = if j = u.id then some u else none := by
  obtain ⟨-, u, alone, reserved, names⟩ := h.known i hi
  obtain ⟨-, spec, condition, only⟩ := Tracker.find?_of_alone assembled
    (OrderedMap.mem_values.2 ⟨k, hi⟩) alone
  obtain ⟨s, hs, hid⟩ : ∃ s ∈ op.stateOps, s.taskId = u.id :=
    List.mem_map.1 (names ▸ List.mem_singleton_self u.id)
  obtain ⟨hk, ofSpec⟩ := h.named s hs
  rw [hid] at hk ofSpec
  refine ⟨spec.trans ofSpec, condition.trans (beq_iff_eq.1 reserved), ?_, u, reserved, names, ?_⟩
  · rw [Instance.hasReservedTask, alone]
    simp [reserved]
  · intro j hj
    exact only j (hj.trans hk.symm)

/-- No op of the operation is for a task that is known and does not wait. -/
theorem taskId_ne (h : Subject t runSpec op k) (assembled : t.Assembled) {v : Task}
    (known : t.task? v.id = some v) (busy : v.isReserved = false) :
    ∀ s ∈ op.stateOps, s.taskId ≠ v.id := by
  intro s hs same
  have hk : v.id.instanceId = k := same ▸ (h.named s hs).1
  obtain ⟨i, hi, -⟩ := Option.bind_eq_some_iff.1 known
  rw [hk] at hi
  obtain ⟨-, -, -, u, reserved, -, only⟩ := h.before assembled hi
  rw [only v.id hk] at known
  split at known
  · obtain rfl := Option.some.inj known
    rw [reserved] at busy
    cases busy
  · cases known

end

section

variable {b : Books} {limit : Span}

/-- All other instances are as they were, recorded or not. -/
theorem find?_other (h : Subject b.tracker runSpec op k) (sound : b.Sound) (limit : Span)
    {j : InstanceId} (other : j ≠ k) : (b.recordAll limit op.stateOps).2.tracker.instances.find? j =
      b.tracker.instances.find? j := by
  refine Tracker.find?_eq_of_task?_eq (Books.sound_recordAll sound).assembled sound.assembled ?_
  intro key hkey
  refine (Books.frame_recordAll sound limit ?_).1
  rintro s hs rfl
  exact other (hkey.symm.trans (h.named s hs).1)

/-- All tasks that are known of the instance afterwards are tasks of the operation. -/
theorem exists_stateOp (h : Subject b.tracker runSpec op k) (sound : b.Sound) {key : TaskId}
    (known : ((b.recordAll limit op.stateOps).2.tracker.task? key).isSome = true)
    (hinstance : key.instanceId = k) : ∃ s ∈ op.stateOps, s.taskId = key := by
  by_cases named : ∃ s ∈ op.stateOps, s.taskId = key
  · exact named
  · -- A task that no op names had been known, so it is the one that waits.
    rw [(Books.frame_recordAll sound limit
      fun s hs heq => named ⟨s, hs, heq⟩).1] at known
    obtain ⟨v, hkey⟩ := Option.isSome_iff_exists.1 known
    obtain ⟨i, hi, -⟩ := Option.bind_eq_some_iff.1 hkey
    rw [hinstance] at hi
    obtain ⟨-, -, -, u, -, names, only⟩ := h.before sound.assembled hi
    rw [only key hinstance] at hkey
    split at hkey
    · next heq => exact List.mem_map.1 (names ▸ List.mem_singleton.2 heq)
    · cases hkey

/-- The instance is of the run spec, whatever has become of it. -/
theorem owned (h : Subject b.tracker runSpec op k) (sound : b.Sound) {i : Instance}
    (hi : (b.recordAll limit op.stateOps).2.tracker.instances.find? k = some i) :
    i.runSpecId = runSpec.id := by
  obtain ⟨key, u, hkey, hinstance, spec⟩ :=
    Tracker.exists_task? (Books.sound_recordAll sound).assembled hi
  obtain ⟨s, hs, rfl⟩ := h.exists_stateOp sound (by rw [hkey]; rfl) hinstance
  exact spec.symm.trans (h.named s hs).2

end

end Subject

end Decision

/-- The next identifier, if one is given, is that of no known instance. -/
theorem IdSupply.Fresh.next {s mid last : IdSupply} {t : Tracker} (h : s.Fresh last t)
    (given : mid.ulidsGiven ≤ last.ulidsGiven) (one : s.ulidsGiven < mid.ulidsGiven) :
    t.instances.find? s.nextId.1 = none :=
  h.unknown _ (Nat.lt_succ_self _) (Nat.le_trans one given)

/-! ## Along a round -/

namespace Round

variable {α : Type} [Amount α] {spec : RunSpec α} {additional : Nat} {r mid : Round α}
  {op? : Option (InstanceOp α)} {op : InstanceOp α} {done : Bool} {s : Scheduler α}
  {last : IdSupply}

/-- The instance that an operation is for, where identifiers are fresh. -/
theorem Decides.subject (decides : Decides spec additional r mid (some op))
    (sound : r.scheduler.books.Sound) (fresh : r.scheduler.ids.Fresh last r.scheduler.books.tracker)
    (given : mid.scheduler.ids.ulidsGiven ≤ last.ulidsGiven) :
    ∃ k, Decision.Subject r.scheduler.books.tracker spec op k ∧
      (r.scheduler.books.tracker.instances.find? k = none →
        k = r.scheduler.ids.nextId.1 ∧
          r.scheduler.ids.ulidsGiven < mid.scheduler.ids.ulidsGiven) :=
  (decides.reached rfl).subject sound.assembled r.scheduler.perm_known (fresh.next given)

/-- The books keep their laws, and the identifiers that are given until `last` are fresh. -/
structure Live (last : IdSupply) (r : Round α) : Prop where
  sound : r.scheduler.books.Sound
  fresh : r.scheduler.ids.Fresh last r.scheduler.books.tracker

theorem Live.decided (h : r.Live last) (decides : Decides spec additional r mid op?) :
    mid.Live last := by
  refine ⟨?_, ?_⟩
  · rw [decides.books]
    exact h.sound
  · rw [decides.books]
    exact h.fresh.mono decides.keeps.ids

/-- The instance that an operation is for, in a round whose identifiers are fresh. -/
theorem Live.subject (h : r.Live last) (decides : Decides spec additional r mid (some op))
    (given : mid.scheduler.ids.ulidsGiven ≤ last.ulidsGiven) :
    ∃ k, Decision.Subject mid.scheduler.books.tracker spec op k ∧
      (mid.scheduler.books.tracker.instances.find? k = none →
        k = r.scheduler.ids.nextId.1 ∧
          r.scheduler.ids.ulidsGiven < mid.scheduler.ids.ulidsGiven) := by
  rw [decides.books]
  exact decides.subject h.sound h.fresh given

/-- The identifiers that are still to be given stay fresh when an operation is recorded, or fails to
be. -/
theorem Live.recorded (h : r.Live last) (decides : Decides spec additional r mid (some op))
    (given : mid.scheduler.ids.ulidsGiven ≤ last.ulidsGiven)
    (records : mid.scheduler.record op = (done, s)) :
    Live last { mid with scheduler := s } ∧
      Live last ({ mid with scheduler := s }.collect spec.id op) := by
  obtain ⟨k, subject, next⟩ := h.subject decides given
  have live := h.decided decides
  obtain ⟨-, rfl⟩ := Prod.mk.inj records
  have sound : (mid.scheduler.books.recordAll mid.scheduler.storeTimeout op.stateOps).2.Sound :=
    Books.sound_recordAll live.sound
  have fresh : mid.scheduler.ids.Fresh last
      (mid.scheduler.books.recordAll mid.scheduler.storeTimeout op.stateOps).2.tracker := by
    refine ⟨?_, live.fresh.distinct⟩
    intro n hn hlast
    have unknown := live.fresh.unknown n hn hlast
    by_cases same : (⟨mid.scheduler.ids.ulidAt n⟩ : InstanceId) = k
    · -- An identifier that comes later is not the one of the operation.
      obtain ⟨hk, one⟩ := next (same ▸ unknown)
      rw [decides.keeps.ids.ulidAt] at same
      have equal : r.scheduler.ids.ulidAt n =
          r.scheduler.ids.ulidAt (r.scheduler.ids.ulidsGiven + 1) :=
        congrArg GeneratedId.ulid (same.trans hk)
      exact absurd equal.symm (h.fresh.distinct _ _ (Nat.lt_succ_self _)
        (Nat.lt_of_le_of_lt one hn) hlast)
    · rw [subject.find?_other live.sound _ same]
      exact unknown
  exact ⟨⟨sound, fresh⟩, ⟨sound, fresh⟩⟩

/-- The identifiers that an operation needs are given before those of what comes later. -/
theorem Course.given {specs : List (RunSpec α)} {start r' : Round α} {tries : List (Try α)}
    (rest : Course specs start tries r') (records : mid.scheduler.record op = (done, s))
    (same : start.scheduler.ids = s.ids) :
    mid.scheduler.ids.ulidsGiven ≤ r'.scheduler.ids.ulidsGiven := by
  obtain ⟨-, rfl⟩ := Prod.mk.inj records
  have later := rest.keeps.ids.ulidsGiven
  rw [same] at later
  exact later

end Round

end Placement
