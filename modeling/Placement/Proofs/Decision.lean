/-
Operations that are decided on.

`Decision.decided_evaluate` says of every operation that comes of an offer for a run spec: the offer
affords what it consumes (`Offer.Affords`), its state ops are of tasks of that run spec, and if it
launches, they launch and nothing else. A task group consumes portions of one match, so
`Matching.Made.affords_portions` gives it what a single task has of `Matching.affords_match?`.
-/
import Placement.Proofs.Matching
import Placement.Proofs.Portion
import Placement.Proofs.Reached

namespace Placement

open Resource

/-- What can be handed out of a match without volumes, its offer affords. -/
theorem Matching.Made.affords_portions {o : Offer Rat} {m : ResourceMatch Rat}
    {scalars ports used rest : List (Resource Rat)} (made : Made o m [] scalars [] ports)
    (splits : Portion.Splits m.resources used m.assignedPorts rest) : o.Affords used := by
  have tol := Amount.tolerance_pos
  have whole := made.affords
  have nonneg : ∀ r ∈ m.resources, 0 ≤ r.amount := fun r hr => (made.plain hr).1
  have used_bare : ∀ u ∈ used, u.Bare := by
    intro u hu
    obtain ⟨r, hr, kind, -⟩ := splits.held u hu
    exact bare_congr kind (made.plain hr).2
  refine ⟨?_, fun u hu => .inl (used_bare u hu), ?_, ?_, ?_⟩
  · intro k
    have total := splits.total k
    have left := kindTotal_nonneg (splits.nonneg nonneg) k
    have upper := made.kindTotal_resources k
    have none_created : (kindCount k ([] : List (Resource Rat)) : Rat) = 0 := by
      simp [kindCount]
    have count : 0 ≤ (kindCount k used : Rat) * Amount.tolerance :=
      mul_nonneg (Nat.cast_nonneg _) (le_of_lt tol)
    rw [none_created] at upper
    linarith
  · simp [volumesOf_eq_nil used_bare]
  · exact (made.bound.nodup_iff.1 made.distinct).sublist splits.ports
  · intro u hu port hport
    obtain ⟨r, hr, kind, held⟩ := splits.held u hu
    obtain ⟨r', hr', hname, kind', hport'⟩ := whole.offered r hr port (held port hport)
    exact ⟨r', hr', hname, by rw [sameKind_congr kind, kind'], hport'⟩

/-- The op launches a task, a new one without volumes or one that waits. -/
def StateOp.Launches : StateOp → Prop
  | launchEphemeral t => t.volumeIds = []
  | launchOnReservation _ _ _ _ => True
  | _ => False

namespace Decision

/-- What is known of an operation that an offer comes to for a run spec. -/
structure Decided (o : Offer Rat) (id : RunSpecId) (op : InstanceOp Rat) : Prop where
  affords : o.Affords op.consumed
  own : ∀ s ∈ op.stateOps, s.taskId.runSpecId = id
  launches : op.isLaunch = true → ∀ s ∈ op.stateOps, s.Launches

variable {policy : LaunchPolicy} {gpus : GpuPolicy} {runSpec : RunSpec Rat} {o : Offer Rat}
  {known : List Instance} {now : Timestamp} {op : InstanceOp Rat}

/-! ## Task groups -/

/-- The members of a group are handed portions. -/
theorem splits_groupMembers {instanceId : InstanceId} {containers : List (ContainerSpec Rat)}
    {hostPorts : List (Option Port)} {parts : List (Resource Rat)} {infos : List (TaskInfo Rat)}
    {ops : List StateOp}
    (h : groupMembers runSpec o instanceId now containers hostPorts parts = .ok (infos, ops)) :
    ∃ rest, Portion.Splits parts (infos.flatMap (·.resources)) (hostPorts.filterMap id) rest := by
  induction containers generalizing hostPorts parts infos ops with
  | nil =>
    obtain ⟨rfl, rfl⟩ := Prod.mk.inj (Except.ok.inj h)
    have none_handed := Portion.Splits.refl parts
    exact ⟨parts, none_handed.total, none_handed.held, List.nil_sublist _,
      none_handed.unchanged, none_handed.kinds, none_handed.nonneg⟩
  | cons c rest ih =>
    obtain ⟨-, infos', ops', -, others, rfl, rfl⟩ := groupMembers_cons_eq_ok h
    obtain ⟨left, splits⟩ := ih others
    have scalars := Portion.splits_take c.resources parts
    have ports := Portion.splits_ports (hostPorts.take c.endpoints.length)
      (Portion.take c.resources parts).2
    have bound : hostPorts.filterMap id =
        (hostPorts.take c.endpoints.length).filterMap id ++
          (hostPorts.drop c.endpoints.length).filterMap id := by
      rw [← List.filterMap_append, List.take_append_drop]
    refine ⟨left, ?_⟩
    rw [bound]
    exact (scalars.trans ports).trans splits

/-- An offer affords the task group that comes of a match without volumes. -/
theorem affords_launchGroup {m : ResourceMatch Rat} {instanceId : InstanceId}
    {scalars ports : List (Resource Rat)} (made : Matching.Made o m [] scalars [] ports)
    (h : launchGroup runSpec o m instanceId now = .ok op) : o.Affords op.consumed := by
  obtain ⟨infos, ops, members, rfl⟩ := launchGroup_eq_ok h
  obtain ⟨rest, splits⟩ := splits_groupMembers members
  have executor := Portion.splits_take Requirements.executor m.resources
  exact made.affords_portions (executor.trans splits)

/-! ## All run specs -/

/-- Every operation that an offer comes to for a run spec can be had of the offer, and records tasks
of that run spec. -/
theorem decided_evaluate {additional : Nat} {ids ids' : IdSupply}
    (nonneg : ∀ r ∈ o.resources, 0 ≤ r.amount)
    (distinct : ∀ i ∈ known, i.runSpecId = runSpec.id → ∀ t ∈ i.tasks.values,
      t.id.runSpecId = runSpec.id ∧ t.volumeIds.Nodup)
    (h : evaluate policy gpus runSpec o known additional now ids = (.ok (.op op), ids')) :
    Decided o runSpec.id op := by
  cases (reached_evaluate h).2 with
  | launched m ephemeral found made =>
    obtain ⟨existing, scalars, created, ports, parts, plain⟩ :=
      Matching.made_match? nonneg (fun _ heq => by cases heq) found
    obtain ⟨rfl, rfl⟩ := plain rfl
    obtain ⟨tasks, launches⟩ := launches_of_made made
    refine ⟨?_, ?_, ?_⟩
    · split at made
      · exact affords_launchGroup parts made
      · obtain rfl := InstanceOp.ofTask_eq_ok made
        exact parts.affords
    · intro s hs
      obtain ⟨t, -, rfl, own, -⟩ := launches.stateOp hs
      exact own
    · intro _ s hs
      obtain ⟨t, -, rfl, -, -, container, hostPorts, rfl⟩ := launches.stateOp hs
      rfl
  | relaunched i t m resident hi own alone waits found =>
    obtain ⟨hid, volumes⟩ := distinct i hi own t (alone ▸ List.mem_cons_self)
    have affords := Matching.affords_match? nonneg
      (fun ids heq => VolumeRequest.existing.inj heq ▸ volumes) found
    refine ⟨affords, ?_, ?_⟩
    · intro s hs
      obtain rfl := List.mem_singleton.1 hs
      exact hid
    · intro _ s hs
      obtain rfl := List.mem_singleton.1 hs
      trivial
  | reserved m volumes deadline resident room found created timed =>
    refine ⟨Matching.affords_match? nonneg (fun _ heq => by cases heq) found, ?_, nofun⟩
    intro s hs
    obtain rfl := List.mem_singleton.1 hs
    rfl

end Decision

end Placement
