/-
What is sent for a launch and what is recorded of it name the same ports.

A match binds the ports of all tasks of an instance in one list. `Decision.Member` is a task with its slice
of this list, and `Decision.Member.Agrees` says that wherever the payload and the state op speak of ports
they mean those of the slice: the resources hold them, the environment and the discovery name them beside
the right definitions, and they are recorded. `Decision.agrees_evaluate` has it for all tasks of every
launch that is decided on.
-/
import Placement.Proofs.Assignment
import Placement.Proofs.Environment
import Placement.Proofs.Isolation

namespace Placement

open Resource

variable {α : Type}

/-- The host ports that a state op records. -/
def StateOp.recordedPorts : StateOp → List Port
  | launchEphemeral t => t.hostPorts
  | launchOnReservation _ _ _ hostPorts => hostPorts
  | _ => []

/-- A match answers the requests of all ports of an instance. -/
theorem Matching.answers_match? [Amount α] {gpus : GpuPolicy} {o : Offer α} {runSpec : RunSpec α}
    {known : List Instance} {s : Selector} {request : VolumeRequest α} {m : ResourceMatch α}
    (h : match? gpus o runSpec known s request = .ok m) :
    List.Forall₂ HostPorts.Answers runSpec.portRequests m.hostPorts := by
  obtain ⟨volumes, scalars, pool, -, -, assigned, -⟩ := match?_eq_ok h
  exact HostPorts.answers_assign? assigned

namespace Decision

/-! ## Discovery -/

section

variable {definitions : List PortDefinition} {hostPorts : List (Option Port)}

/-- The bound ports are announced in their order. -/
theorem number_discoveryPorts (same : definitions.length = hostPorts.length) :
    (discoveryPorts definitions hostPorts).map (·.number) = hostPorts.filterMap id := by
  induction definitions generalizing hostPorts with
  | nil =>
    obtain rfl := List.eq_nil_of_length_eq_zero same.symm
    rfl
  | cons d ds ih =>
    cases hostPorts with
    | nil => cases same
    | cons h hs =>
      have later := ih (Nat.succ.inj same)
      cases h with
      | none => exact later
      | some port => exact congrArg (port :: ·) later

/-- Each bound port is announced beside its own definition. -/
theorem getElem?_discoveryPorts {i : Nat} {d : PortDefinition} {port : Port}
    (bound : hostPorts[i]? = some (some port)) (defined : definitions[i]? = some d) :
    (discoveryPorts definitions hostPorts)[((hostPorts.take i).filterMap id).length]? =
      some ⟨port, d.name, d.protocol, d.labels⟩ := by
  induction i generalizing definitions hostPorts with
  | zero =>
    obtain ⟨hs, rfl⟩ := List.head?_eq_some_iff.1 (List.head?_eq_getElem?.trans bound)
    obtain ⟨ds, rfl⟩ := List.head?_eq_some_iff.1 (List.head?_eq_getElem?.trans defined)
    rfl
  | succ i ih =>
    cases hostPorts with
    | nil => cases bound
    | cons h hs =>
      cases definitions with
      | nil => cases defined
      | cons first ds =>
        have later := @ih ds hs bound defined
        cases h with
        | none => exact later
        | some port => exact later

end

/-! ## Tasks of a launch -/

/-- A task that is launched: its container, if its instance is a task group, the host ports that are bound
for it, what is sent and what is recorded. -/
structure Member (α : Type) where
  container : Option (ContainerSpec α)
  hostPorts : List (Option Port)
  info : TaskInfo α
  stateOp : StateOp

/-- The ports among them, in order. -/
def Member.bound (x : Member α) : List Port := x.hostPorts.filterMap id

/-- What is sent and what is recorded agree on the task and on its ports. -/
structure Member.Agrees (runSpec : RunSpec α) (o : Offer α) (x : Member α) : Prop where
  /-- Each declared port has its place, and is bound as it asks for. -/
  answers : List.Forall₂ HostPorts.Answers ((declaredPorts runSpec x.container).map (·.hostPort))
    x.hostPorts
  taskId : x.info.taskId = x.stateOp.taskId
  agentId : x.info.agentId = o.agentId
  recorded : x.stateOp.recordedPorts = x.bound
  held : (portsOf x.info.resources).Perm x.bound
  announced : x.info.discovery.ports.map (·.number) = x.bound
  /-- As many ports are announced before a port as are bound before it. -/
  described : ∀ i port d, x.hostPorts[i]? = some (some port) →
    (declaredPorts runSpec x.container)[i]? = some d →
      x.info.discovery.ports[((x.hostPorts.take i).filterMap id).length]? =
        some ⟨port, d.name, d.protocol, d.labels⟩
  told : ∀ i, x.info.command.environment.find? (portVariable i) =
    (userVariable? runSpec x.container (portVariable i)).or
      ((portAt? (declaredPorts runSpec x.container) x.hostPorts i).map portText)

/-- The payloads and the state ops are those of these members: one for each of the containers, in order, all
of one instance, with the host ports shared out among them. -/
structure Comprises (runSpec : RunSpec α) (o : Offer α) (instanceId : InstanceId)
    (containers : List (Option (ContainerSpec α))) (hostPorts : List (Option Port))
    (infos : List (TaskInfo α)) (ops : List StateOp) (members : List (Member α)) : Prop where
  payloads : members.map (·.info) = infos
  stateOps : members.map (·.stateOp) = ops
  containers : members.map (·.container) = containers
  slices : members.flatMap (·.hostPorts) = hostPorts
  agree : ∀ x ∈ members, x.Agrees runSpec o
  named : ∀ x ∈ members, x.info.taskId.instanceId = instanceId ∧ ∀ c, x.container = some c →
    TaskId.forContainer runSpec.id instanceId c.name = .ok x.info.taskId

variable [Amount α] {runSpec : RunSpec α} {o : Offer α} {now : Timestamp} {instanceId : InstanceId}
  {op : InstanceOp α}

/-- All places at which a payload speaks of ports are filled from the same list. -/
theorem agrees_taskInfo (o : Offer α) {container : Option (ContainerSpec α)} {taskId : TaskId}
    (stateOp : StateOp) {resources : List (Resource α)} {hostPorts : List (Option Port)}
    (answers : List.Forall₂ HostPorts.Answers ((declaredPorts runSpec container).map (·.hostPort))
      hostPorts)
    (named : taskId = stateOp.taskId) (recorded : stateOp.recordedPorts = hostPorts.filterMap id)
    (held : (portsOf resources).Perm (hostPorts.filterMap id)) :
    Member.Agrees runSpec o
      ⟨container, hostPorts, taskInfo runSpec o taskId container resources hostPorts, stateOp⟩ where
  answers := answers
  taskId := named
  agentId := rfl
  recorded := recorded
  held := held
  announced := number_discoveryPorts (List.length_map .. ▸ answers.length_eq)
  described _ _ _ bound defined := getElem?_discoveryPorts bound defined
  told := find?_environment runSpec o taskId container resources hostPorts

section

variable {containers : List (Option (ContainerSpec α))} {hostPorts : List (Option Port)}
  {infos : List (TaskInfo α)} {ops : List StateOp} {members : List (Member α)}

omit [Amount α] in
theorem comprises_nil (runSpec : RunSpec α) (o : Offer α) (instanceId : InstanceId) :
    Comprises runSpec o instanceId [] [] [] [] [] :=
  ⟨rfl, rfl, rfl, rfl, List.forall_mem_nil _, List.forall_mem_nil _⟩

omit [Amount α] in
/-- A member in front has the first slice. -/
theorem Comprises.cons (h : Comprises runSpec o instanceId containers hostPorts infos ops members)
    {x : Member α} (agrees : x.Agrees runSpec o)
    (named : x.info.taskId.instanceId = instanceId ∧ ∀ c, x.container = some c →
      TaskId.forContainer runSpec.id instanceId c.name = .ok x.info.taskId) :
    Comprises runSpec o instanceId (x.container :: containers) (x.hostPorts ++ hostPorts)
      (x.info :: infos) (x.stateOp :: ops) (x :: members) where
  payloads := congrArg (_ :: ·) h.payloads
  stateOps := congrArg (_ :: ·) h.stateOps
  containers := congrArg (_ :: ·) h.containers
  slices := congrArg (_ ++ ·) h.slices
  agree := List.forall_mem_cons.2 ⟨agrees, h.agree⟩
  named := List.forall_mem_cons.2 ⟨named, h.named⟩

end

/-- The members of a task group share the host ports out among them. -/
theorem comprises_groupMembers {containers : List (ContainerSpec α)} {hostPorts : List (Option Port)}
    {parts : List (Resource α)} {infos : List (TaskInfo α)} {ops : List StateOp}
    (answers : List.Forall₂ HostPorts.Answers
      ((containers.flatMap (·.endpoints)).map (·.hostPort)) hostPorts)
    (held : ∀ port ∈ hostPorts.filterMap id, port ∈ portsOf parts)
    (h : groupMembers runSpec o instanceId now containers hostPorts parts = .ok (infos, ops)) :
    ∃ members, Comprises runSpec o instanceId (containers.map some) hostPorts infos ops members := by
  induction containers generalizing hostPorts parts infos ops with
  | nil =>
    obtain ⟨rfl, rfl⟩ := Prod.mk.inj (Except.ok.inj h)
    cases answers
    exact ⟨[], comprises_nil runSpec o instanceId⟩
  | cons c rest ih =>
    obtain ⟨taskId, infos', ops', named, remaining, rfl, rfl⟩ := groupMembers_cons_eq_ok h
    obtain ⟨name, rfl⟩ := forContainer_eq_ok named
    -- The first slice is as long as the container has endpoints.
    rw [List.flatMap_cons, List.map_append] at answers
    have own := List.forall₂_take c.endpoints.length answers
    have others := List.forall₂_drop c.endpoints.length answers
    rw [List.take_left' (List.length_map _)] at own
    rw [List.drop_left' (List.length_map _)] at others
    have slices : hostPorts.take c.endpoints.length ++ hostPorts.drop c.endpoints.length =
        hostPorts := List.take_append_drop ..
    obtain ⟨scalars, left⟩ := Portion.portsOf_take c.resources parts
    rw [← slices, List.filterMap_append, ← left] at held
    obtain ⟨first, later⟩ := List.forall_mem_append.1 held
    obtain ⟨members, comprises⟩ := ih others later remaining
    have bound : portsOf ((Portion.take c.resources parts).1 ++
        Portion.ports (hostPorts.take c.endpoints.length) (Portion.take c.resources parts).2) =
          (hostPorts.take c.endpoints.length).filterMap id := by
      rw [portsOf_append, portsOf_eq_nil scalars, List.nil_append,
        Portion.portsOf_ports_of_mem first]
    have agrees : Member.Agrees runSpec o ⟨some c, hostPorts.take c.endpoints.length, _, _⟩ :=
      agrees_taskInfo o (.launchEphemeral (newTask ⟨runSpec.id, instanceId, some name⟩ runSpec o
        (.fresh .created now) ((hostPorts.take c.endpoints.length).filterMap (·)))) own rfl rfl
        (.of_eq bound)
    have all := comprises.cons agrees ⟨rfl, fun d hd => Option.some.inj hd ▸ named⟩
    rw [slices] at all
    exact ⟨_, all⟩

/-! ## All launches -/

section

variable {gpus : GpuPolicy} {known : List Instance} {s : Selector} {request : VolumeRequest α}
  {m : ResourceMatch α}

/-- The ports of the members are those of the match. -/
theorem Comprises.distinct {containers : List (Option (ContainerSpec α))} {infos : List (TaskInfo α)}
    {ops : List StateOp} {members : List (Member α)}
    (h : Comprises runSpec o instanceId containers m.hostPorts infos ops members)
    (found : Matching.match? gpus o runSpec known s request = .ok m) :
    (members.flatMap (·.bound)).Nodup := by
  have shared : members.flatMap (·.bound) = m.assignedPorts := by
    rw [ResourceMatch.assignedPorts, ← h.slices, List.filterMap_flatMap]
    rfl
  rw [shared]
  exact (Matching.ports_match? found).1

/-- The only task of an instance has all ports of a match. -/
theorem comprises_single (small : ¬(Amount.tolerance : α) < 0) (single : runSpec.isPod = false)
    (found : Matching.match? gpus o runSpec known s request = .ok m) (stateOp : StateOp)
    (recorded : stateOp.recordedPorts = m.assignedPorts) :
    ∃ members, Comprises runSpec o stateOp.taskId.instanceId [none] m.hostPorts
      [taskInfo runSpec o stateOp.taskId none m.resources m.hostPorts] [stateOp] members := by
  have answers := Matching.answers_match? found
  rw [RunSpec.portRequests, RunSpec.portDefinitions, single] at answers
  have agrees : Member.Agrees runSpec o ⟨none, m.hostPorts, _, _⟩ :=
    agrees_taskInfo o stateOp answers rfl recorded (Matching.portsOf_match? small found)
  have comprises := (comprises_nil runSpec o stateOp.taskId.instanceId).cons agrees ⟨rfl, nofun⟩
  rw [List.append_nil] at comprises
  exact ⟨_, comprises⟩

/-- The containers of a task group share the ports of a match out among them. -/
theorem comprises_launchGroup (small : ¬(Amount.tolerance : α) < 0) (pod : runSpec.isPod = true)
    (found : Matching.match? gpus o runSpec known s request = .ok m)
    (made : launchGroup runSpec o m instanceId now = .ok op) :
    ∃ members, Comprises runSpec o instanceId (runSpec.containers.map some) m.hostPorts op.payloads
      op.stateOps members := by
  have answers := Matching.answers_match? found
  rw [RunSpec.portRequests, RunSpec.portDefinitions, if_pos pod] at answers
  obtain ⟨infos, ops, members, rfl⟩ := launchGroup_eq_ok made
  refine comprises_groupMembers answers (fun port hport => ?_) members
  rw [(Portion.portsOf_take Requirements.executor m.resources).2]
  exact (Matching.portsOf_match? small found).mem_iff.2 hport

end

/-- Every launch that an offer comes to tells the tasks of the instance which ports are recorded of them:
those that a match has bound for them, no port twice. -/
theorem agrees_evaluate (small : ¬(Amount.tolerance : α) < 0) {policy : LaunchPolicy}
    {gpus : GpuPolicy} {known : List Instance} {additional : Nat} {ids ids' : IdSupply}
    (h : evaluate policy gpus runSpec o known additional now ids = (.ok (.op op), ids'))
    (launch : op.isLaunch = true) :
    ∃ s request m instanceId members, Matching.match? gpus o runSpec known s request = .ok m ∧
      Comprises runSpec o instanceId
        (if runSpec.isPod then runSpec.containers.map some else [none]) m.hostPorts op.payloads
        op.stateOps members ∧
      (members.flatMap (·.bound)).Nodup := by
  cases (reached_evaluate h).2 with
  | launched m ephemeral found made =>
    split at made
    · next pod =>
      obtain ⟨members, comprises⟩ := comprises_launchGroup small pod found made
      refine ⟨_, _, m, ids.nextId.1, members, found, ?_, comprises.distinct found⟩
      rw [if_pos pod]
      exact comprises
    · next single =>
      obtain rfl := InstanceOp.ofTask_eq_ok made
      obtain ⟨members, comprises⟩ := comprises_single small (Bool.eq_false_iff.2 single) found
        (.launchEphemeral (newTask (.forInstance runSpec.id ids.nextId.1) runSpec o
          (.fresh .created now) m.assignedPorts)) rfl
      refine ⟨_, _, m, ids.nextId.1, members, found, ?_, comprises.distinct found⟩
      rw [if_neg single]
      exact comprises
  | relaunched i t m resident hi own alone waits found =>
    have single := isPod_eq_false_of_evaluate resident h
    obtain ⟨members, comprises⟩ := comprises_single small single found
      (.launchOnReservation t.id runSpec.version (.fresh .created now) m.assignedPorts) rfl
    refine ⟨_, _, m, t.id.instanceId, members, found, ?_, comprises.distinct found⟩
    rw [single]
    exact comprises
  | reserved => cases launch

/-- The amounts that the rules run on allow an error that is not negative. -/
example : ¬(Amount.tolerance : Float) < 0 := by decide

end Decision

namespace Sample

/-- One container has a port of the host and one of its own, which it calls by another number; the other has
no port in its first place. -/
def mixed : RunSpec Rat :=
  { RunSpec.ofId ⟨"/mixed", by decide⟩ 1 ⟨0, 0⟩ with
    containers := [
      ⟨"web", ⟨1, 0, 0, 0⟩, [(PortDefinition.ofHostPort .dynamic).named "http",
        ⟨some "1", .none, some 9090, .tcp, ∅⟩], .none, OrderedMap.ofList [("PORT1", "90")]⟩,
      ⟨"side", ⟨1, 0, 0, 0⟩, [.ofHostPort .none, ⟨some "dns", .fixed 31001, none, .udp, ∅⟩], .none, ∅⟩] }

def wideOffer : Offer Rat :=
  { portOffer with
    resources := [.scalar .cpus 4, .scalar .mem 128, .scalar .disk 128, .ports [⟨31000, 31002⟩]] }

def mixedDecision : Decision.Result Rat :=
  Decision.evaluate .usual .restricted mixed wideOffer [] 1 ⟨0, 0⟩ (.numbered ⟨5, 0⟩)

/-- What the tasks of a launch are told of their first two ports. -/
def told? (op : InstanceOp Rat) : Option (List (List (Option String))) :=
  if op.isLaunch then
    some (op.payloads.map fun info => ["PORT0", "PORT1"].map info.command.environment.find?)
  else none

end Sample

/-- The user's variable stands over the one of the container port. -/
theorem Decision.agrees_evaluate_sample : ∃ op ids,
    ¬(Amount.tolerance : Rat) < 0 ∧ Sample.mixedDecision = (.ok (.op op), ids) ∧
      op.isLaunch = true ∧
      Sample.told? op = some [[some "31000", some "90"], [none, some "31001"]] ∧
      ∃ s request m instanceId members,
        Matching.match? .restricted Sample.wideOffer Sample.mixed [] s request = .ok m ∧
        Comprises Sample.mixed Sample.wideOffer instanceId (Sample.mixed.containers.map some)
          m.hostPorts op.payloads op.stateOps members ∧
        (members.flatMap (·.bound)).Nodup := by
  have small : ¬(Amount.tolerance : Rat) < 0 := by decide
  have told : Sample.mixedDecision.1.map (fun d => d.op?.bind Sample.told?) =
      .ok (some [[some "31000", some "90"], [none, some "31001"]]) := by
    decide +kernel
  obtain ⟨op, ids, decided, told⟩ := exists_op told
  have launch : op.isLaunch = true := by
    unfold Sample.told? at told
    split at told
    · assumption
    · cases told
  exact ⟨op, ids, small, decided, launch, told, agrees_evaluate small decided launch⟩

end Placement
