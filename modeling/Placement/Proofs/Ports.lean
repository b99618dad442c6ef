/-
Which host ports a decision binds.

* `Matching.ports_match?`: the ports of a match are different, and no task that is active on the agent
  holds one of them.
* `Matching.portsOf_match?`: the parts of a match hold its ports and no others.
* `Decision.bound_of_made`: the tasks of a new instance share the ports of its match out among them.
-/
import Placement.Proofs.Provenance

namespace Placement

open Resource

variable {α : Type} [Amount α]

namespace HostPorts

/-- The ports in use on an agent are those of the active tasks of its instances. -/
theorem mem_inUse {agent : AgentId} {known : List Instance} {port : Port} :
    port ∈ inUse agent known ↔ ∃ i ∈ known, i.agent.agentId = agent ∧
      ∃ t ∈ i.tasks.values, t.condition.isActive = true ∧ port ∈ t.hostPorts := by
  simp only [inUse, List.mem_flatMap, List.mem_filter, beq_iff_eq]
  constructor
  · rintro ⟨t, ⟨⟨i, ⟨hi, agent⟩, ht⟩, active⟩, held⟩
    exact ⟨i, hi, agent, t, ht, active, held⟩
  · rintro ⟨i, hi, agent, t, ht, active, held⟩
    exact ⟨t, ⟨⟨i, ⟨hi, agent⟩, ht⟩, active⟩, held⟩

omit [Amount α] in
/-- From a pool that has given no port away, different ports are bound, and none of the excluded ones. -/
theorem bound_assign? {s : Selector} {excluded : List Port} {requests : List HostPort}
    {p p' : Pool α} {hosts : List (Option Port)} (none_given : p.given = [])
    (h : assign? s excluded requests p = some (hosts, p')) :
    (hosts.filterMap id).Nodup ∧ ∀ port ∈ hosts.filterMap id, port ∉ excluded := by
  have gives := gives_assign? h
  have perm := gives.given
  rw [none_given, List.append_nil] at perm
  have distinct := gives.distinct (none_given ▸ List.nodup_nil)
  have allowed : ∀ port ∈ p'.given, port ∉ excluded := by
    refine preserved_assign? (P := fun p => ∀ port ∈ p.given, port ∉ excluded) ?_ h ?_
    · intro port p p' free taken before q hq
      simp only [isFree, Bool.and_eq_true, Bool.not_eq_true'] at free
      have given := (Pool.gives_takePort? taken free.2).given
      rcases List.mem_append.1 (given.mem_iff.1 hq) with hq | hq
      · obtain rfl := List.mem_singleton.1 hq
        simpa using free.1
      · exact before q hq
    · simp [none_given]
  exact ⟨perm.nodup_iff.1 distinct, fun port hport => allowed port (perm.mem_iff.2 hport)⟩

end HostPorts

/-- The ports that a match binds are different, and not in use on the agent. -/
theorem Matching.ports_match? {gpus : GpuPolicy} {o : Offer α} {runSpec : RunSpec α}
    {known : List Instance} {s : Selector} {request : VolumeRequest α} {m : ResourceMatch α}
    (h : match? gpus o runSpec known s request = .ok m) :
    m.assignedPorts.Nodup ∧ ∀ port ∈ m.assignedPorts, port ∉ HostPorts.inUse o.agentId known := by
  obtain ⟨volumes, scalars, pool, rfl, rfl, assigned, -, -, -⟩ := match?_eq_ok h
  have frame := frame_takeScalars s o request runSpec.totalResources
  exact HostPorts.bound_assign? (List.flatMap_eq_nil_iff.2 (Pool.takenPorts_of_frame frame)) assigned

/-! ## Ports of a match -/

namespace Pool

/-- A disk of which something is left is no port resource, for ports have no amount. -/
theorem portless_takeExisting? (small : ¬(Amount.tolerance : α) < 0) {ids : List VolumeId}
    {resources rs : List (Resource α)} {p' : Pool α}
    (h : (ofResources resources).takeExisting? ids = some (rs, p')) : Portless rs := by
  obtain ⟨rs', found, heq⟩ := Option.map_eq_some_iff.1 h
  obtain ⟨rfl, -⟩ := Prod.mk.inj heq
  intro r hr
  rw [← filterMap_of_mapM found] at hr
  obtain ⟨v, -, hfound⟩ := List.mem_filterMap.1 hr
  obtain ⟨-, c, hc, rfl, held⟩ := resourceOfVolume?_eq_some hfound
  obtain ⟨r, -, rfl⟩ := List.mem_map.1 hc
  cases value : r.value with
  | scalar amount =>
    rw [portRanges, value]
    rfl
  | ranges ranges =>
    rw [Resource.amount, value] at held
    exact absurd held small

end Pool

namespace Matching

theorem portless_takeVolumes (small : ¬(Amount.tolerance : α) < 0) (s : Selector) (o : Offer α)
    (request : VolumeRequest α) :
    Portless (takeVolumes s (Pool.ofResources o.resources) request).existing ∧
      Portless ((takeVolumes s (Pool.ofResources o.resources) request).created.map (·.2)) := by
  unfold takeVolumes
  split
  · exact ⟨portless_nil, portless_nil⟩
  · next volumes => exact ⟨portless_nil, (Pool.pieces_takeVolumes s volumes _).2.2⟩
  · next ids =>
    split
    · next found => exact ⟨Pool.portless_takeExisting? small found, portless_nil⟩
    · exact ⟨portless_nil, portless_nil⟩

/-- The parts of a match hold the ports that it binds, each once. -/
theorem portsOf_match? (small : ¬(Amount.tolerance : α) < 0) {gpus : GpuPolicy} {o : Offer α}
    {runSpec : RunSpec α} {known : List Instance} {s : Selector} {request : VolumeRequest α}
    {m : ResourceMatch α} (h : match? gpus o runSpec known s request = .ok m) :
    (portsOf m.resources).Perm m.assignedPorts := by
  have distinct := (ports_match? h).1
  obtain ⟨volumes, scalars, pool, rfl, rfl, assigned, resources, -, -⟩ := match?_eq_ok h
  obtain ⟨existing, created⟩ := portless_takeVolumes small s o request
  obtain ⟨-, -, scalars⟩ := pieces_takeScalars s runSpec.totalResources scalarNames
    (takeVolumes s (Pool.ofResources o.resources) request).reasons
    (takeVolumes s (Pool.ofResources o.resources) request).pool
  have frame := frame_takeScalars s o request runSpec.totalResources
  have given := (HostPorts.gives_assign? assigned).given
  have untouched : Pool.given _ = [] := List.flatMap_eq_nil_iff.2 (Pool.takenPorts_of_frame frame)
  rw [untouched, List.append_nil] at given
  rw [resources, portsOf_append, portsOf_eq_nil ((existing.append scalars).append created),
    List.nil_append]
  exact (Pool.portsOf_consumedPorts (given.nodup_iff.2 distinct)).trans given

end Matching

/-! ## Ports of portions -/

namespace Portion

/-- No port is handed out with an amount. -/
theorem portsOf_takeScalar (name : ResourceName) (missing : α) (parts : List (Resource α)) :
    Portless (takeScalar name missing parts).1 ∧
      portsOf (takeScalar name missing parts).2 = portsOf parts := by
  induction parts generalizing missing with
  | nil => exact ⟨portless_nil, rfl⟩
  | cons r rest ih =>
    have later : ∀ {l : List (Resource α)}, portsOf l = portsOf rest →
        portsOf (r :: l) = portsOf (r :: rest) :=
      fun same => congrArg (PortRange.allPorts r.portRanges ++ ·) same
    unfold takeScalar
    split
    · exact ⟨portless_nil, rfl⟩
    · split
      · next amount _ value =>
        simp only
        split
        · exact ⟨(ih missing).1, later (ih missing).2⟩
        · obtain ⟨taken, left⟩ := ih (missing - Amount.least amount missing)
          have bare : r.portRanges = [] := by
            rw [portRanges, value]
            rfl
          refine ⟨taken.withScalar r _, Eq.trans ?_ (later left)⟩
          rw [portsOf, portsOf, List.flatMap_cons, List.flatMap_cons, bare, portRanges_withScalar]
      · exact ⟨(ih missing).1, later (ih missing).2⟩

theorem portsOf_takeScalars (required : Requirements α) (names : List ResourceName)
    (parts : List (Resource α)) :
    Portless (takeScalars required names parts).1 ∧
      portsOf (takeScalars required names parts).2 = portsOf parts := by
  induction names generalizing parts with
  | nil => exact ⟨portless_nil, rfl⟩
  | cons name rest ih =>
    obtain ⟨taken, left⟩ := portsOf_takeScalar name (required.of name) parts
    obtain ⟨more, left'⟩ := ih (takeScalar name (required.of name) parts).2
    exact ⟨taken.append more, left'.trans left⟩

theorem portsOf_take (required : Requirements α) (parts : List (Resource α)) :
    Portless (take required parts).1 ∧ portsOf (take required parts).2 = portsOf parts :=
  portsOf_takeScalars required _ parts

omit [Amount α] in
/-- Bound ports that some part holds are handed out, each by itself and in their order. -/
theorem portsOf_ports_of_mem {hostPorts : List (Option Port)} {parts : List (Resource α)}
    (held : ∀ port ∈ hostPorts.filterMap id, port ∈ portsOf parts) :
    portsOf (ports hostPorts parts) = hostPorts.filterMap id := by
  unfold ports
  generalize hostPorts.filterMap id = bound at held ⊢
  induction bound with
  | nil => rfl
  | cons port rest ih =>
    obtain ⟨here, later⟩ := List.forall_mem_cons.1 held
    obtain ⟨r, hr, holds⟩ := mem_portsOf.1 here
    obtain ⟨first, found⟩ := Option.isSome_iff_exists.1 (List.find?_isSome
      (p := fun r : Resource α => PortRange.anyContains r.portRanges port) |>.2
        ⟨r, hr, PortRange.mem_allPorts.1 holds⟩)
    rw [List.filterMap_cons, found, Option.map_some, portsOf, List.flatMap_cons,
      portRanges_withRanges, PortRange.allPorts_single]
    exact congrArg (port :: ·) (ih later)

end Portion

/-! ## New instances -/

namespace Decision

variable {runSpec : RunSpec α} {o : Offer α} {instanceId : InstanceId} {now : Timestamp}

/-- The members of a task group take the bound ports one after another. -/
theorem ports_of_groupMembers {containers : List (ContainerSpec α)} {hostPorts : List (Option Port)}
    {parts : List (Resource α)} {infos : List (TaskInfo α)} {ops : List StateOp}
    (h : groupMembers runSpec o instanceId now containers hostPorts parts = .ok (infos, ops)) :
    ∃ tasks : List Task, ops = tasks.map .launchEphemeral ∧
      (tasks.flatMap (·.hostPorts)).Sublist (hostPorts.filterMap id) := by
  induction containers generalizing hostPorts parts infos ops with
  | nil =>
    obtain ⟨-, rfl⟩ := Prod.mk.inj (Except.ok.inj h)
    exact ⟨[], rfl, List.nil_sublist _⟩
  | cons c rest ih =>
    obtain ⟨taskId, infos', ops', -, others, -, rfl⟩ := groupMembers_cons_eq_ok h
    obtain ⟨tasks, rfl, later⟩ := ih others
    refine ⟨newTask taskId runSpec o (.fresh .created now)
      ((hostPorts.take c.endpoints.length).filterMap (·)) :: tasks, rfl, ?_⟩
    have cut : hostPorts.filterMap id = (hostPorts.take c.endpoints.length).filterMap id ++
        (hostPorts.drop c.endpoints.length).filterMap id := by
      rw [← List.filterMap_append, List.take_append_drop]
    rw [cut, List.flatMap_cons]
    exact (List.Sublist.refl _).append later

/-- A new instance launches tasks that have the ports of its match, each port once. -/
theorem bound_of_made {m : ResourceMatch α} {op : InstanceOp α}
    (made : (if runSpec.isPod then launchGroup runSpec o m instanceId now
      else launchTask runSpec o m instanceId now) = .ok op) :
    ∃ tasks, Launches runSpec o instanceId now op tasks ∧
      (tasks.flatMap (·.hostPorts)).Sublist m.assignedPorts := by
  obtain ⟨tasks, launches⟩ := launches_of_made made
  refine ⟨tasks, launches, ?_⟩
  have recorded := launches.stateOps
  have same : ∀ ts : List Task, ts.map StateOp.launchEphemeral = tasks.map .launchEphemeral →
      ts = tasks :=
    fun _ h => List.map_injective_iff.2 (fun _ _ => StateOp.launchEphemeral.inj) h
  split at made
  · obtain ⟨infos, ops, members, rfl⟩ := launchGroup_eq_ok made
    obtain ⟨ts, rfl, ports⟩ := ports_of_groupMembers members
    obtain rfl := same ts recorded
    exact ports
  · obtain rfl := InstanceOp.ofTask_eq_ok made
    obtain rfl := same [newTask (.forInstance runSpec.id instanceId) runSpec o
      (.fresh .created now) m.assignedPorts] recorded
    rw [List.flatMap_cons, List.flatMap_nil, List.append_nil]
    exact List.Sublist.refl _

end Decision

end Placement
