/-
Where operations come from.

* `Decision.Reached` lists the three ways a decision comes to an operation, each with the match it
  rests on: a launch of a new instance, a launch on a reservation that waits, and a new reservation.
  `reached_evaluate` says that there is no other way, and which counts each needs.
* `Decision.Launches` says what the launch of a new instance is: it launches tasks of one instance
  and records these and nothing else. `launches_of_made` has it for single tasks and task groups.
* `IdSupply.Continues` says that a supply has given identifiers and nothing more;
  `continues_evaluate` has it for every decision.
-/
import Placement.Decision

namespace Placement

variable {α : Type}

/-! ## What an operation launches -/

namespace InstanceOp

/-- The payloads of the tasks that an operation launches. -/
def payloads : InstanceOp α → List (TaskInfo α)
  | launchTask info _ => [info]
  | launchGroup group _ => group.tasks
  | reserveAndCreate _ _ _ _ => []

variable {op : InstanceOp α}

theorem ofTask_eq_ok {info : TaskInfo α} {s : StateOp} (h : ofTask info s = .ok op) :
    op = .launchTask info s := by
  unfold ofTask at h
  split at h
  · cases h
  · exact (Except.ok.inj h).symm

theorem ofTask_of_named {info : TaskInfo α} {s : StateOp} (h : info.taskId = s.taskId) :
    ofTask info s = .ok (.launchTask info s) := by
  simp [ofTask, differentTask?, h]

theorem ofGroup_eq_ok {group : TaskGroupInfo α} {ops : List StateOp}
    (h : ofGroup group ops = .ok op) : op = .launchGroup group ops := by
  unfold ofGroup at h
  split at h
  · cases h
  · split at h
    · cases h
    · exact (Except.ok.inj h).symm

end InstanceOp

namespace Decision

variable {op : InstanceOp α}

/-- A decision for one operation is that operation, well-formed. -/
theorem ofOp_eq_op {e : Except InstanceOpError (InstanceOp α)} (h : ofOp e = .ok (.op op)) :
    e = .ok op := by
  cases e with
  | ok op' =>
    obtain rfl := Decision.op.inj (Except.ok.inj h)
    rfl
  | error e => cases h

variable [Amount α]

/-! ## The ways to an operation -/

/-- The resources that are looked at for a run spec unless a reservation waits. -/
def freeSelector (policy : LaunchPolicy) (runSpec : RunSpec α) : Selector :=
  ⟨runSpec.roles policy.defaultRole, .unreserved⟩

/-- The resources that are looked at for a task that waits on its reservation. -/
def ownSelector (policy : LaunchPolicy) (runSpec : RunSpec α) (id : TaskId) : Selector :=
  ⟨(runSpec.roles policy.defaultRole).insert policy.reservationRole (),
    .preferReserved (reservationLabels policy id)⟩

/-- The task of a new reservation, with the volumes it will have. -/
def foundedTask (runSpec : RunSpec α) (o : Offer α) (id : TaskId) (volumeIds : List VolumeId)
    (now deadline : Timestamp) : Task :=
  { newTask id runSpec o (.fresh .reserved now) [] with
    reservation := some ⟨volumeIds, .new (some ⟨now, deadline⟩)⟩ }

omit [Amount α] in
@[simp] theorem volumeIds_foundedTask (runSpec : RunSpec α) (o : Offer α) (id : TaskId)
    (volumeIds : List VolumeId) (now deadline : Timestamp) :
    (foundedTask runSpec o id volumeIds now deadline).volumeIds = volumeIds := rfl

/-- How a decision for a run spec comes to an operation, and which identifiers are left. -/
inductive Reached (policy : LaunchPolicy) (gpus : GpuPolicy) (runSpec : RunSpec α) (o : Offer α)
    (known : List Instance) (now : Timestamp) (ids : IdSupply) : InstanceOp α → IdSupply → Prop where
  | launched {op : InstanceOp α} (m : ResourceMatch α) (ephemeral : runSpec.isResident = false)
      (found : Matching.match? gpus o runSpec known (freeSelector policy runSpec) .none = .ok m)
      (made : (if runSpec.isPod then launchGroup runSpec o m ids.nextId.1 now
        else launchTask runSpec o m ids.nextId.1 now) = .ok op) :
      Reached policy gpus runSpec o known now ids op ids.nextUlid.2
  | relaunched (i : Instance) (t : Task) (m : ResourceMatch α) (resident : runSpec.isResident = true)
      (hi : i ∈ known) (own : i.runSpecId = runSpec.id) (alone : i.tasks.values = [t])
      (waits : waitsOn o t = true)
      (found : Matching.match? gpus o runSpec known (ownSelector policy runSpec t.id)
        (.existing t.volumeIds) = .ok m) :
      Reached policy gpus runSpec o known now ids
        (.launchTask (taskInfo runSpec o t.id none m.resources m.hostPorts)
          (.launchOnReservation t.id runSpec.version (.fresh .created now) m.assignedPorts)) ids
  | reserved (m : ResourceMatch α) (volumes : List (VolumeId × Resource α)) (deadline : Timestamp)
      {ids' : IdSupply} (resident : runSpec.isResident = true)
      (room : ((known.filter fun i => i.runSpecId == runSpec.id).filter (·.isPlaced)).length +
        ((known.filter fun i => i.runSpecId == runSpec.id).filter (·.hasReservedTask)).length <
          runSpec.instances)
      (found : Matching.match? gpus o runSpec known (freeSelector policy runSpec)
        (.create runSpec.volumes) = .ok m)
      (created : createVolumes policy
        ⟨some policy.frameworkId,
          reservationLabels policy (.forInstance runSpec.id ids.nextId.1)⟩
        runSpec.id m.newVolumes ids.nextUlid.2 = (.ok volumes, ids'))
      (timed : now.addMillis? policy.reservationTimeoutMs = some deadline) :
      Reached policy gpus runSpec o known now ids
        (.reserveAndCreate m.resources
          (m.resources.map (Decision.reserved policy ⟨some policy.frameworkId,
            reservationLabels policy (.forInstance runSpec.id ids.nextId.1)⟩))
          (volumes.map (·.2))
          (.reserve (foundedTask runSpec o (.forInstance runSpec.id ids.nextId.1)
            (volumes.map (·.1)) now deadline))) ids'

variable {policy : LaunchPolicy} {gpus : GpuPolicy} {runSpec : RunSpec α} {o : Offer α}
  {known : List Instance} {now : Timestamp} {ids ids' : IdSupply}

theorem reached_ephemeral (ephemeral : runSpec.isResident = false)
    (h : Decision.ephemeral policy gpus runSpec o known now ids = (.ok (.op op), ids')) :
    Reached policy gpus runSpec o known now ids op ids' := by
  unfold Decision.ephemeral at h
  simp only at h
  split at h
  · cases h
  · next m found =>
    obtain ⟨hop, rfl⟩ := Prod.mk.inj h
    exact .launched m ephemeral found (ofOp_eq_op hop)

theorem reached_launchOnReservation {i : Instance} {t : Task}
    (resident : runSpec.isResident = true) (hi : i ∈ known) (own : i.runSpecId = runSpec.id)
    (alone : i.tasks.values = [t]) (waits : waitsOn o t = true)
    (h : launchOnReservation policy gpus runSpec o known t now = .ok (.op op)) :
    Reached policy gpus runSpec o known now ids op ids := by
  unfold launchOnReservation at h
  simp only at h
  split at h
  · cases h
  · next m found =>
    obtain rfl := InstanceOp.ofTask_eq_ok (ofOp_eq_op h)
    exact .relaunched i t m resident hi own alone waits found

theorem reached_foundReservation (resident : runSpec.isResident = true)
    (room : ((known.filter fun i => i.runSpecId == runSpec.id).filter (·.isPlaced)).length +
      ((known.filter fun i => i.runSpecId == runSpec.id).filter (·.hasReservedTask)).length <
        runSpec.instances)
    (h : foundReservation policy gpus runSpec o known now ids = (.ok (.op op), ids')) :
    Reached policy gpus runSpec o known now ids op ids' := by
  unfold foundReservation at h
  simp only at h
  split at h
  · cases h
  · next m found =>
    split at h
    · cases h
    · next volumes left created =>
      split at h
      · cases h
      · next deadline timed =>
        obtain ⟨hop, rfl⟩ := Prod.mk.inj h
        obtain rfl := Decision.op.inj (Except.ok.inj hop)
        exact .reserved m volumes deadline resident room found created timed

theorem reached_resident (resident : runSpec.isResident = true)
    (h : Decision.resident policy gpus runSpec o known
      (known.filter fun i => i.runSpecId == runSpec.id)
      ((known.filter fun i => i.runSpecId == runSpec.id).filter (·.isPlaced)).length now ids =
        (.ok (.op op), ids')) :
    Reached policy gpus runSpec o known now ids op ids' := by
  unfold Decision.resident at h
  simp only at h
  split at h
  · cases h
  · next single =>
    split at h
    · next t found =>
      obtain ⟨hop, rfl⟩ := Prod.mk.inj h
      obtain ⟨i, hi, ht⟩ := List.mem_flatMap.1 (List.mem_of_find?_eq_some found)
      -- No reserved instance has more than one task, so the task is alone in its own.
      have alone : i.tasks.values = [t] := by
        simp only [Bool.or_eq_true, not_or, Bool.not_eq_true, List.any_eq_false, bne_iff_ne] at single
        have size : i.tasks.values.length = 1 := by
          rw [OrderedMap.values, List.length_map]
          exact Decidable.not_not.1 (single.2 i hi)
        obtain ⟨u, hu⟩ := List.length_eq_one_iff.1 size
        rw [hu, List.mem_singleton] at ht
        rw [hu, ht]
      obtain ⟨hi, -⟩ := List.mem_filter.1 hi
      obtain ⟨hi, own⟩ := List.mem_filter.1 hi
      exact reached_launchOnReservation resident hi (beq_iff_eq.1 own) alone
        (List.find?_some found) hop
    · split at h
      · cases h
      · next room => exact reached_foundReservation resident (Nat.not_le.1 room) h

/-- An operation comes of an offer only where a launch is asked for and an instance is missing. -/
theorem reached_evaluate {additional : Nat}
    (h : evaluate policy gpus runSpec o known additional now ids = (.ok (.op op), ids')) :
    (0 < additional ∧ ((known.filter fun i => i.runSpecId == runSpec.id).filter
      (·.isPlaced)).length < runSpec.instances) ∧
      Reached policy gpus runSpec o known now ids op ids' := by
  unfold evaluate at h
  simp only at h
  split at h
  · cases h
  · next open_ =>
    simp only [Bool.or_eq_true, decide_eq_true_eq, not_or, Nat.not_le] at open_
    refine ⟨⟨Nat.pos_of_ne_zero open_.1, open_.2⟩, ?_⟩
    split at h
    · next resident => exact reached_resident resident h
    · next ephemeral => exact reached_ephemeral (Bool.eq_false_iff.2 ephemeral) h

/-! ## Launches of new instances -/

/-- A task as a launch makes it, in an instance of its own or with others. -/
def LaunchedTask (runSpec : RunSpec α) (o : Offer α) (instanceId : InstanceId) (now : Timestamp)
    (t : Task) : Prop :=
  ∃ container hostPorts,
    t = newTask ⟨runSpec.id, instanceId, container⟩ runSpec o (.fresh .created now) hostPorts

/-- The operation launches these tasks, which are those of a new instance, and records them. -/
structure Launches (runSpec : RunSpec α) (o : Offer α) (instanceId : InstanceId) (now : Timestamp)
    (op : InstanceOp α) (tasks : List Task) : Prop where
  isLaunch : op.isLaunch = true
  stateOps : op.stateOps = tasks.map .launchEphemeral
  payloads : op.payloads.map (·.taskId) = tasks.map (·.id)
  nonempty : tasks ≠ []
  made : ∀ t ∈ tasks, LaunchedTask runSpec o instanceId now t

omit [Amount α] in
/-- Each task that is recorded is of the run spec and of the new instance. -/
theorem Launches.stateOp {instanceId : InstanceId} {tasks : List Task}
    (h : Launches runSpec o instanceId now op tasks) {s : StateOp} (hs : s ∈ op.stateOps) :
    ∃ t ∈ tasks, s = .launchEphemeral t ∧ t.id.runSpecId = runSpec.id ∧
      t.id.instanceId = instanceId ∧ LaunchedTask runSpec o instanceId now t := by
  rw [h.stateOps] at hs
  obtain ⟨t, ht, rfl⟩ := List.mem_map.1 hs
  have made := h.made t ht
  obtain ⟨container, hostPorts, rfl⟩ := h.made t ht
  exact ⟨_, ht, rfl, rfl, rfl, made⟩

/-- What a container is named by belongs to the instance. -/
theorem forContainer_eq_ok {id : RunSpecId} {instanceId : InstanceId} {container : String}
    {taskId : TaskId} (h : TaskId.forContainer id instanceId container = .ok taskId) :
    ∃ name, taskId = ⟨id, instanceId, some name⟩ := by
  unfold TaskId.forContainer at h
  split at h
  · exact ⟨_, (Except.ok.inj h).symm⟩
  · cases h

/-- The members of a task group are that of the first container, with its portion and its slice of the
host ports, and those that come of the rest. -/
theorem groupMembers_cons_eq_ok {instanceId : InstanceId} {c : ContainerSpec α}
    {rest : List (ContainerSpec α)} {hostPorts : List (Option Port)} {parts : List (Resource α)}
    {infos : List (TaskInfo α)} {ops : List StateOp}
    (h : groupMembers runSpec o instanceId now (c :: rest) hostPorts parts = .ok (infos, ops)) :
    ∃ taskId infos' ops', TaskId.forContainer runSpec.id instanceId c.name = .ok taskId ∧
      groupMembers runSpec o instanceId now rest (hostPorts.drop c.endpoints.length)
        (Portion.take c.resources parts).2 = .ok (infos', ops') ∧
      infos = taskInfo runSpec o taskId (some c)
        ((Portion.take c.resources parts).1 ++
          Portion.ports (hostPorts.take c.endpoints.length) (Portion.take c.resources parts).2)
        (hostPorts.take c.endpoints.length) :: infos' ∧
      ops = .launchEphemeral (newTask taskId runSpec o (.fresh .created now)
        ((hostPorts.take c.endpoints.length).filterMap (·))) :: ops' := by
  unfold groupMembers at h
  split at h
  · cases h
  · next taskId named =>
    simp only at h
    split at h
    · cases h
    · next infos' ops' others =>
      obtain ⟨rfl, rfl⟩ := Prod.mk.inj (Except.ok.inj h)
      exact ⟨taskId, infos', ops', named, others, rfl, rfl⟩

/-- The executor takes its portion of a match before the containers do. -/
theorem launchGroup_eq_ok {instanceId : InstanceId} {m : ResourceMatch α}
    (h : launchGroup runSpec o m instanceId now = .ok op) :
    ∃ infos ops, groupMembers runSpec o instanceId now runSpec.containers m.hostPorts
        (Portion.take Requirements.executor m.resources).2 = .ok (infos, ops) ∧
      op = .launchGroup ⟨⟨"executor." ++ instanceId.text,
        (Portion.take Requirements.executor m.resources).1⟩, infos⟩ ops := by
  unfold launchGroup at h
  simp only at h
  split at h
  · cases h
  · next infos ops members => exact ⟨infos, ops, members, InstanceOp.ofGroup_eq_ok h⟩

theorem tasks_of_groupMembers {instanceId : InstanceId} {containers : List (ContainerSpec α)}
    {hostPorts : List (Option Port)} {parts : List (Resource α)} {infos : List (TaskInfo α)}
    {ops : List StateOp}
    (h : groupMembers runSpec o instanceId now containers hostPorts parts = .ok (infos, ops)) :
    ∃ tasks : List Task, ops = tasks.map .launchEphemeral ∧
      infos.map (·.taskId) = tasks.map (·.id) ∧ tasks.length = containers.length ∧
        ∀ t ∈ tasks, LaunchedTask runSpec o instanceId now t := by
  induction containers generalizing hostPorts parts infos ops with
  | nil =>
    obtain ⟨rfl, rfl⟩ := Prod.mk.inj (Except.ok.inj h)
    exact ⟨[], rfl, rfl, rfl, by simp⟩
  | cons c rest ih =>
    obtain ⟨taskId, infos', ops', named, others, rfl, rfl⟩ := groupMembers_cons_eq_ok h
    obtain ⟨name, rfl⟩ := forContainer_eq_ok named
    obtain ⟨tasks, rfl, named, counted, made⟩ := ih others
    refine ⟨newTask ⟨runSpec.id, instanceId, some name⟩ runSpec o (.fresh .created now)
      ((hostPorts.take c.endpoints.length).filterMap (·)) :: tasks, rfl,
      congrArg (List.cons _) named, congrArg Nat.succ counted, ?_⟩
    intro t ht
    rcases List.mem_cons.1 ht with rfl | ht
    · exact ⟨some name, _, rfl⟩
    · exact made t ht

/-- Whether it is for a single task or for a task group, a launch launches what it records. -/
theorem launches_of_made {m : ResourceMatch α} {instanceId : InstanceId}
    (made : (if runSpec.isPod then launchGroup runSpec o m instanceId now
      else launchTask runSpec o m instanceId now) = .ok op) :
    ∃ tasks, Launches runSpec o instanceId now op tasks := by
  split at made
  · next pod =>
    obtain ⟨infos, ops, members, rfl⟩ := launchGroup_eq_ok made
    obtain ⟨tasks, rfl, named, counted, launched⟩ := tasks_of_groupMembers members
    refine ⟨tasks, rfl, rfl, named, ?_, launched⟩
    rintro rfl
    have none_declared : runSpec.containers = [] := List.eq_nil_of_length_eq_zero counted.symm
    simp [RunSpec.isPod, none_declared] at pod
  · obtain rfl := InstanceOp.ofTask_eq_ok made
    exact ⟨[newTask (.forInstance runSpec.id instanceId) runSpec o (.fresh .created now)
      m.assignedPorts], rfl, rfl, rfl, List.cons_ne_nil _ _, fun t ht =>
        ⟨none, _, List.mem_singleton.1 ht⟩⟩

/-! ## New volumes -/

omit [Amount α] in
/-- The volumes that are created are those that the reservation lists, in the same order. -/
theorem volumes_of_createVolumes {info : ReservationInfo} {id : RunSpecId}
    {parts : List (PersistentVolume α × Resource α)} {volumes : List (VolumeId × Resource α)}
    (h : createVolumes policy info id parts ids = (.ok volumes, ids')) :
    volumes.map (fun v => v.2.persistence.map (·.volumeId)) = volumes.map (fun v => some v.1) ∧
      ∀ v ∈ volumes, v.2.reservation = some info := by
  induction parts generalizing ids volumes with
  | nil =>
    obtain rfl := Except.ok.inj (Prod.mk.inj h).1
    exact ⟨rfl, by simp⟩
  | cons part rest ih =>
    obtain ⟨v, part⟩ := part
    unfold createVolumes at h
    split at h
    · cases h
    · simp only at h
      split at h
      · cases h
      · next more left later =>
        obtain ⟨hvolumes, rfl⟩ := Prod.mk.inj h
        obtain rfl := Except.ok.inj hvolumes
        obtain ⟨named, held⟩ := ih later
        refine ⟨?_, ?_⟩
        · rw [List.map_cons, List.map_cons, named]
          rfl
        · intro u hu
          rcases List.mem_cons.1 hu with rfl | hu
          · rfl
          · exact held u hu

end Decision

/-! ## Identifiers -/

namespace IdSupply

/-- Some more identifiers have been given. -/
structure Continues (s s' : IdSupply) : Prop where
  ulidAt : s'.ulidAt = s.ulidAt
  uuidAt : s'.uuidAt = s.uuidAt
  ulidsGiven : s.ulidsGiven ≤ s'.ulidsGiven
  uuidsGiven : s.uuidsGiven ≤ s'.uuidsGiven

theorem Continues.refl (s : IdSupply) : s.Continues s :=
  ⟨rfl, rfl, Nat.le_refl _, Nat.le_refl _⟩

theorem Continues.trans {s mid s' : IdSupply} (h : s.Continues mid) (h' : mid.Continues s') :
    s.Continues s' :=
  ⟨h'.ulidAt.trans h.ulidAt, h'.uuidAt.trans h.uuidAt, Nat.le_trans h.ulidsGiven h'.ulidsGiven,
    Nat.le_trans h.uuidsGiven h'.uuidsGiven⟩

theorem continues_nextUlid (s : IdSupply) : s.Continues s.nextUlid.2 :=
  ⟨rfl, rfl, Nat.le_succ _, Nat.le_refl _⟩

theorem continues_nextUuid (s : IdSupply) : s.Continues s.nextUuid.2 :=
  ⟨rfl, rfl, Nat.le_refl _, Nat.le_succ _⟩

end IdSupply

namespace Decision

variable [Amount α] {policy : LaunchPolicy} {gpus : GpuPolicy} {runSpec : RunSpec α} {o : Offer α}
  {known : List Instance} {now : Timestamp} {ids : IdSupply}

omit [Amount α] in
/-- Creating volumes takes UUIDs alone. -/
theorem continues_createVolumes (policy : LaunchPolicy) (info : ReservationInfo) (id : RunSpecId)
    (parts : List (PersistentVolume α × Resource α)) (ids : IdSupply) :
    ids.Continues (createVolumes policy info id parts ids).2 ∧
      (createVolumes policy info id parts ids).2.ulidsGiven = ids.ulidsGiven := by
  induction parts generalizing ids with
  | nil => exact ⟨.refl ids, rfl⟩
  | cons part rest ih =>
    obtain ⟨continues, same⟩ := ih ids.nextUuid.2
    unfold createVolumes
    split
    · exact ⟨.refl ids, rfl⟩
    · simp only
      split
      · next later =>
        rw [later] at continues same
        exact ⟨ids.continues_nextUuid.trans continues, same⟩
      · next later =>
        rw [later] at continues same
        exact ⟨ids.continues_nextUuid.trans continues, same⟩

theorem continues_ephemeral :
    ids.Continues (Decision.ephemeral policy gpus runSpec o known now ids).2 := by
  unfold Decision.ephemeral
  simp only
  split
  · exact .refl ids
  · exact ids.continues_nextUlid

theorem continues_foundReservation :
    ids.Continues (foundReservation policy gpus runSpec o known now ids).2 := by
  unfold foundReservation
  simp only
  split
  · exact .refl ids
  · next m found =>
    have created := (continues_createVolumes policy ⟨some policy.frameworkId,
        reservationLabels policy (.forInstance runSpec.id ids.nextId.1)⟩ runSpec.id m.newVolumes
      ids.nextUlid.2).1
    have continues := ids.continues_nextUlid.trans created
    split
    · next later =>
      rw [show createVolumes policy _ runSpec.id m.newVolumes ids.nextUlid.2 = _ from later]
        at continues
      exact continues
    · next later =>
      rw [show createVolumes policy _ runSpec.id m.newVolumes ids.nextUlid.2 = _ from later]
        at continues
      split
      · exact continues
      · exact continues

/-- A decision takes identifiers off the supply and does nothing else to it. -/
theorem continues_evaluate {additional : Nat} :
    ids.Continues (evaluate policy gpus runSpec o known additional now ids).2 := by
  unfold evaluate Decision.resident
  simp only
  split
  · exact .refl ids
  · split
    · split
      · exact .refl ids
      · split
        · exact .refl ids
        · split
          · exact .refl ids
          · exact continues_foundReservation
    · exact continues_ephemeral

end Decision

end Placement
