/-
Who has the host ports of an agent, and what ops make of that.

* `Tracker.Holds` says that a task in some condition has a port of an agent.
* `Tracker.Places` is what taking an offer does: tasks that run keep their ports, and a task that comes
  up has its ports to itself among the active ones (`Decision.Reached.places`).
* `Tracker.Ages` is what all other ops do (`Books.ages_processAll`): nothing comes up, and what still runs
  keeps its ports.
* `Tracker.Located` says that the tasks of an instance are on one agent. Ports in use are looked for
  instance by instance, so the ports of all active tasks are found only because of it
  (`Located.mem_inUse`).
-/
import Placement.Proofs.Fresh
import Placement.Proofs.Ports

namespace Placement

/-! ## Who has a port -/

namespace Condition

def isInactive (c : Condition) : Bool := c == .unreachableInactive

/-- The task has been launched and has not come to its end. -/
def isOngoing (c : Condition) : Bool := c.isActive || c.isInactive

theorem isOngoing_iff {c : Condition} : c.isOngoing = true ↔ c ≠ .reserved ∧ c.isTerminal = false := by
  cases c <;> decide

theorem not_isInactive_of_isActive {c : Condition} (h : c.isActive = true) : c.isInactive = false := by
  revert h
  cases c <;> decide

end Condition

open Condition (isActive isInactive isOngoing)

namespace Tracker

/-- A task in a condition that passes a test has a port of an agent. -/
def Holds (t : Tracker) (test : Condition → Bool) (agent : AgentId) (port : Port) (id : TaskId) :
    Prop :=
  ∃ u, t.task? id = some u ∧ test u.condition = true ∧ u.agent.agentId = agent ∧ port ∈ u.hostPorts

variable {t t' t'' : Tracker} {test : Condition → Bool} {agent : AgentId} {port : Port} {id : TaskId}

instance (t : Tracker) (test : Condition → Bool) (agent : AgentId) (port : Port) (id : TaskId) :
    Decidable (t.Holds test agent port id) :=
  decidable_of_iff ((t.task? id).any fun u =>
      test u.condition && u.agent.agentId == agent && u.hostPorts.contains port) <| by
    simp only [Option.any_eq_true, Bool.and_eq_true, beq_iff_eq, List.contains_iff_mem, and_assoc,
      Holds]

theorem Holds.of_task? (h : t.Holds test agent port id) (same : t'.task? id = t.task? id) :
    t'.Holds test agent port id := by
  obtain ⟨u, known, rest⟩ := h
  exact ⟨u, same.trans known, rest⟩

theorem holds_ongoing_iff : t.Holds isOngoing agent port id ↔
    t.Holds isActive agent port id ∨ t.Holds isInactive agent port id := by
  constructor
  · rintro ⟨u, known, ongoing, rest⟩
    rcases Bool.or_eq_true_iff.1 ongoing with active | inactive
    · exact .inl ⟨u, known, active, rest⟩
    · exact .inr ⟨u, known, inactive, rest⟩
  · rintro (⟨u, known, active, rest⟩ | ⟨u, known, inactive, rest⟩)
    · exact ⟨u, known, Bool.or_eq_true_iff.2 (.inl active), rest⟩
    · exact ⟨u, known, Bool.or_eq_true_iff.2 (.inr inactive), rest⟩

theorem Holds.not_inactive (h : t.Holds isActive agent port id) :
    ¬ t.Holds isInactive agent port id := by
  obtain ⟨u, known, active, -⟩ := h
  rintro ⟨v, known', inactive, -⟩
  obtain rfl := Option.some.inj (known.symm.trans known')
  rw [Condition.not_isInactive_of_isActive active] at inactive
  cases inactive

/-! ## Offers: tasks come up -/

/-- Tasks that hold the port go on holding it, and one that comes up is the only active one to. -/
structure Places (agent : AgentId) (port : Port) (t t' : Tracker) : Prop where
  active : ∀ id, t.Holds isActive agent port id → t'.Holds isActive agent port id
  inactive : ∀ id, t.Holds isInactive agent port id → t'.Holds isInactive agent port id
  placed : ∀ id, t'.Holds isOngoing agent port id → t.Holds isOngoing agent port id ∨
    t'.Holds isActive agent port id ∧ ∀ other, other ≠ id → ¬ t'.Holds isActive agent port other

theorem Places.refl (agent : AgentId) (port : Port) (t : Tracker) : t.Places agent port t :=
  ⟨fun _ h => h, fun _ h => h, fun _ h => .inl h⟩

theorem Places.trans (h : Places agent port t t') (h' : Places agent port t' t'') :
    Places agent port t t'' := by
  refine ⟨fun id => h'.active id ∘ h.active id, fun id => h'.inactive id ∘ h.inactive id, ?_⟩
  intro id ongoing
  rcases h'.placed id ongoing with before | last
  · rcases h.placed id before with before | ⟨active, alone⟩
    · exact .inl before
    · right
      have later := h'.active id active
      refine ⟨later, fun other different active' => ?_⟩
      -- Another active one had been there, or it is alone.
      rcases h'.placed other (holds_ongoing_iff.2 (.inl active')) with before' | ⟨-, alone'⟩
      · rcases holds_ongoing_iff.1 before' with earlier | inactive
        · exact alone other different earlier
        · exact active'.not_inactive (h'.inactive other inactive)
      · exact alone' id different.symm later
  · exact .inr last

/-- The task can come up: it has not been running, and no active task holds its ports. -/
structure Vacant (t : Tracker) (new : Task) : Prop where
  waits : ∀ u, t.task? new.id = some u → u.condition = .reserved
  free : new.condition = .reserved ∨ new.condition.isActive = true ∧
    ∀ q ∈ new.hostPorts, ∀ id, ¬ t.Holds isActive new.agent.agentId q id

theorem Places.of_task? {new : Task} (others : ∀ k, k ≠ new.id → t'.task? k = t.task? k)
    (put : t'.task? new.id = some new) (vacant : t.Vacant new) : Places agent port t t' := by
  have running : ∀ {test : Condition → Bool} {id}, test .reserved = false →
      t.Holds test agent port id → id ≠ new.id := by
    rintro test id excluded ⟨u, known, passes, -⟩ rfl
    rw [vacant.waits u known, excluded] at passes
    cases passes
  refine ⟨fun id h => h.of_task? (others id (running rfl h)),
    fun id h => h.of_task? (others id (running rfl h)), ?_⟩
  intro id ongoing
  by_cases hid : id = new.id
  · right
    obtain ⟨u, known, condition, agent_eq, held⟩ := ongoing
    rw [hid, put] at known
    obtain rfl := Option.some.inj known
    rcases vacant.free with reserved | ⟨active, free⟩
    · rw [reserved] at condition
      cases condition
    · refine ⟨⟨new, hid ▸ put, active, agent_eq, held⟩, fun other different active' => ?_⟩
      have before := active'.of_task? (others other (hid ▸ different)).symm
      exact free port held other (agent_eq ▸ before)
  · exact .inl (ongoing.of_task? (others id hid).symm)

/-- Nothing happens where all tasks stay as they are. -/
theorem Places.of_same (same : ∀ k, t'.task? k = t.task? k) : Places agent port t t' :=
  ⟨fun id h => h.of_task? (same id), fun id h => h.of_task? (same id),
    fun id h => .inl (h.of_task? (same id).symm)⟩

/-! ## Reports and scans: tasks age -/

/-- Nothing comes up: each task was there before, and if it runs, it ran on the same ports. -/
def Ages (t t' : Tracker) : Prop :=
  ∀ id u', t'.task? id = some u' → ∃ u, t.task? id = some u ∧ u'.agent = u.agent ∧
    (u'.condition.isOngoing = true → u.condition.isOngoing = true ∧ u'.hostPorts = u.hostPorts)

theorem Ages.refl (t : Tracker) : t.Ages t := fun _ u known => ⟨u, known, rfl, fun h => ⟨h, rfl⟩⟩

theorem Ages.trans (h : t.Ages t') (h' : t'.Ages t'') : t.Ages t'' := by
  intro id u'' known
  obtain ⟨u', known, agent', before'⟩ := h' id u'' known
  obtain ⟨u, known, agent, before⟩ := h id u' known
  refine ⟨u, known, agent'.trans agent, fun ongoing => ?_⟩
  obtain ⟨ongoing', ports'⟩ := before' ongoing
  obtain ⟨ongoing, ports⟩ := before ongoing'
  exact ⟨ongoing, ports'.trans ports⟩

theorem Ages.holds (h : t.Ages t') (ongoing : t'.Holds isOngoing agent port id) :
    t.Holds isOngoing agent port id := by
  obtain ⟨u', known, ongoing, agent_eq, held⟩ := ongoing
  obtain ⟨u, known, same, before⟩ := h id u' known
  obtain ⟨ongoing, ports⟩ := before ongoing
  exact ⟨u, known, ongoing, same ▸ agent_eq, ports ▸ held⟩

/-- An instance that was not known does not become known. -/
theorem Ages.find?_eq_none (h : t.Ages t') (assembled : t'.Assembled) {k : InstanceId}
    (unknown : t.instances.find? k = none) : t'.instances.find? k = none := by
  rw [Option.eq_none_iff_forall_ne_some]
  intro i hi
  obtain ⟨id, u', known, hinstance, -⟩ := exists_task? assembled hi
  obtain ⟨u, known, -⟩ := h id u' known
  rw [task?_eq, hinstance, unknown] at known
  cases known

/-! ## One agent for the tasks of an instance -/

/-- The tasks of the instance are on the agent. -/
def LocatedAt (t : Tracker) (k : InstanceId) (agent : AgentInfo) : Prop :=
  ∀ id u, id.instanceId = k → t.task? id = some u → u.agent = agent

/-- The tasks of each instance are on one agent. -/
def Located (t : Tracker) : Prop := ∀ k, ∃ agent, t.LocatedAt k agent

theorem locatedAt_of_unknown {k : InstanceId} (unknown : t.instances.find? k = none)
    (agent : AgentInfo) : t.LocatedAt k agent := by
  intro id u hinstance known
  rw [task?_eq, hinstance, unknown] at known
  cases known

theorem Ages.located (h : t.Ages t') (located : t.Located) : t'.Located := by
  intro k
  obtain ⟨agent, there⟩ := located k
  refine ⟨agent, fun id u' hinstance known => ?_⟩
  obtain ⟨u, known, same, -⟩ := h id u' known
  exact same.trans (there id u hinstance known)

/-- The ports that active tasks hold are in use on their agent. -/
theorem Located.mem_inUse {known : List Instance} (perm : known.Perm t.snapshot)
    (located : t.Located) (assembled : t.Assembled) (h : t.Holds isActive agent port id) :
    port ∈ HostPorts.inUse agent known := by
  obtain ⟨u, hu, active, agent_eq, held⟩ := h
  have there := hu
  obtain ⟨i, hi, hu⟩ := Option.bind_eq_some_iff.1 hu
  obtain ⟨k, v, hv, -, first⟩ := Instance.exists_first (assembled _ i hi).derived
  obtain ⟨-, hk⟩ := (assembled _ i hi).keyed k v hv
  have leads : t.task? k = some v := by
    rw [task?_eq, hk, hi, Option.bind_some, hv]
  obtain ⟨common, one⟩ := located id.instanceId
  have same : u.agent = i.agent :=
    (one id u rfl there).trans ((one k v hk leads).symm.trans first)
  exact HostPorts.mem_inUse.2 ⟨i, perm.mem_iff.2 (OrderedMap.mem_values.2 ⟨_, hi⟩), same ▸ agent_eq, u,
    OrderedMap.mem_values.2 ⟨id, hu⟩, active, held⟩

end Tracker

/-! ## Ops -/

namespace StateOp

/-- The task that an op makes if it is not known. -/
def newcomer? : StateOp → Option Task
  | launchEphemeral t => some t
  | reserve t => some t
  | _ => none

theorem newcomer?_of_resolve_none {op : StateOp} {u : Task}
    (h : (op.resolve none).follow none = some u) : op.newcomer? = some u ∧ u.id = op.taskId := by
  cases op with
  | launchEphemeral t => exact ⟨h, (congrArg Task.id (Option.some.inj h)).symm⟩
  | reserve t => exact ⟨h, (congrArg Task.id (Option.some.inj h)).symm⟩
  | _ => cases h

/-- The op is of a kind that decisions on offers come to. -/
def isPlacing : StateOp → Bool
  | launchEphemeral _ => true
  | reserve _ => true
  | launchOnReservation _ _ _ _ => true
  | _ => false

theorem newcomer?_eq_none {op : StateOp} (h : op.isPlacing = false) : op.newcomer? = none := by
  cases op <;> first | rfl | cases h

end StateOp

/-- Only a launch makes a task run, and no other op gives it ports. -/
theorem Task.Step.ages {t u : Task} {op : StateOp} (h : t.Step op (some u))
    (passive : op.isPlacing = false) : u.agent = t.agent ∧
      (u.condition.isOngoing = true → t.condition.isOngoing = true ∧ u.hostPorts = t.hostPorts) := by
  refine ⟨h.continues.agent, fun ongoing => ?_⟩
  cases h with
  | kept => exact ⟨ongoing, rfl⟩
  | launched => cases passive
  | suspended => cases ongoing
  | moved id r now runs live stays => exact ⟨Condition.isOngoing_iff.2 ⟨runs, live⟩, rfl⟩
  | inactive id unreachable => exact ⟨by rw [unreachable]; rfl, rfl⟩

namespace Books

variable {b : Books} {limit : Span} {op : StateOp} {ops : List StateOp}

theorem faultless_recordAll (h : b.Sound) (faultless : b.repository.writeFaults = []) :
    (b.recordAll limit ops).2.repository.writeFaults = [] := by
  induction ops generalizing b with
  | nil => exact faultless
  | cons op rest ih =>
    have step := (task?_process_faultless h.assembled faultless limit op).1
    rw [recordAll_cons]
    split
    · exact step
    · exact ih (frame_process h limit op).2 step

/-- A task that is known after an op was known before, or the op makes it. -/
theorem origin_process (h : b.Sound) (faultless : b.repository.writeFaults = []) {id : TaskId}
    {u : Task} (known : (b.process limit op).2.tracker.task? id = some u) :
    (∃ w, b.tracker.task? id = some w ∧ w.Step op (some u)) ∨
      op.newcomer? = some u ∧ u.id = id := by
  by_cases hid : id = op.taskId
  · subst hid
    rcases (task?_process_faultless h.assembled faultless limit op).2 with same | follows
    · exact .inl ⟨u, same.symm.trans known, .kept op⟩
    · rw [follows, change] at known
      cases before : b.tracker.task? op.taskId with
      | none =>
        rw [before] at known
        exact .inr (StateOp.newcomer?_of_resolve_none known)
      | some w =>
        rw [before] at known
        exact .inl ⟨w, rfl, known ▸ Task.step_resolve w op⟩
  · exact .inl ⟨u, ((frame_process h limit op).1.tracker id hid).symm.trans known, .kept op⟩

/-- Tasks of an instance stay on its agent, if new ones are made there. -/
theorem locatedAt_process {k : InstanceId} {agent : AgentInfo} (h : b.Sound)
    (faultless : b.repository.writeFaults = []) (there : b.tracker.LocatedAt k agent)
    (made : ∀ u, op.newcomer? = some u → u.instanceId = k → u.agent = agent) :
    (b.process limit op).2.tracker.LocatedAt k agent := by
  intro id u hinstance known
  rcases origin_process h faultless known with ⟨w, before, step⟩ | ⟨newcomer, rfl⟩
  · exact step.continues.agent.trans (there id w hinstance before)
  · exact made u newcomer hinstance

theorem locatedAt_recordAll {k : InstanceId} {agent : AgentInfo} (h : b.Sound)
    (faultless : b.repository.writeFaults = []) (there : b.tracker.LocatedAt k agent)
    (made : ∀ op ∈ ops, ∀ u, op.newcomer? = some u → u.instanceId = k → u.agent = agent) :
    (b.recordAll limit ops).2.tracker.LocatedAt k agent := by
  induction ops generalizing b with
  | nil => exact there
  | cons op rest ih =>
    obtain ⟨first, others⟩ := List.forall_mem_cons.1 made
    have step : (b.process limit op).2.tracker.LocatedAt k agent :=
      locatedAt_process h faultless there first
    rw [recordAll_cons]
    split
    · exact step
    · exact ih (frame_process h limit op).2
        (task?_process_faultless h.assembled faultless limit op).1 step others

/-- The tasks that are made are of one instance, and on the agent of those that it has. -/
theorem located_recordAll {k : InstanceId} {agent : AgentInfo} (h : b.Sound)
    (faultless : b.repository.writeFaults = []) (located : b.tracker.Located)
    (there : b.tracker.LocatedAt k agent)
    (made : ∀ op ∈ ops, ∀ u, op.newcomer? = some u → u.instanceId = k ∧ u.agent = agent) :
    (b.recordAll limit ops).2.tracker.Located := by
  intro j
  by_cases same : j = k
  · exact ⟨agent, locatedAt_recordAll h faultless (same ▸ there)
      fun op hop u newcomer _ => (made op hop u newcomer).2⟩
  · obtain ⟨agent', there'⟩ := located j
    refine ⟨agent', locatedAt_recordAll h faultless there' fun op hop u newcomer hj => ?_⟩
    exact absurd (hj.symm.trans (made op hop u newcomer).1) same

/-- An op that no decision comes to lets tasks age. -/
theorem ages_process (h : b.Sound) (faultless : b.repository.writeFaults = [])
    (passive : op.isPlacing = false) : b.tracker.Ages (b.process limit op).2.tracker := by
  intro id u known
  rcases origin_process h faultless known with ⟨w, before, step⟩ | ⟨newcomer, -⟩
  · exact ⟨w, before, step.ages passive⟩
  · rw [StateOp.newcomer?_eq_none passive] at newcomer
    cases newcomer

theorem ages_processAll (limit : Span) (h : b.Sound) (faultless : b.repository.writeFaults = [])
    (passive : ∀ op ∈ ops, op.isPlacing = false) :
    (b.processAll limit ops).2.Sound ∧ (b.processAll limit ops).2.repository.writeFaults = [] ∧
      b.tracker.Ages (b.processAll limit ops).2.tracker := by
  induction ops generalizing b with
  | nil => exact ⟨h, faultless, .refl _⟩
  | cons op rest ih =>
    obtain ⟨first, others⟩ := List.forall_mem_cons.1 passive
    obtain ⟨sound, later, ages⟩ := ih (frame_process h limit op).2
      (task?_process_faultless h.assembled faultless limit op).1 others
    exact ⟨sound, later, (ages_process h faultless first).trans ages⟩

variable {agent : AgentId} {port : Port}

/-- An op brings a task up that can come up, or leaves all tasks as they are. -/
theorem places_process (new : Task) (h : b.Sound) (faultless : b.repository.writeFaults = [])
    (named : new.id = op.taskId)
    (comes : (b.change op).follow (b.tracker.task? op.taskId) = b.tracker.task? op.taskId ∨
      (b.change op).follow (b.tracker.task? op.taskId) = some new ∧ b.tracker.Vacant new) :
    b.tracker.Places agent port (b.process limit op).2.tracker := by
  have others := (frame_process h limit op).1.tracker
  have quiet : (b.process limit op).2.tracker.task? op.taskId = b.tracker.task? op.taskId →
      b.tracker.Places agent port (b.process limit op).2.tracker := by
    intro same
    refine .of_same fun k => ?_
    by_cases hk : k = op.taskId
    · rw [hk, same]
    · exact others k hk
  rcases (task?_process_faultless h.assembled faultless limit op).2 with same | follows
  · exact quiet same
  · rcases comes with same | ⟨put, vacant⟩
    · exact quiet (follows.trans same)
    · exact .of_task? (named ▸ others) (named ▸ follows.trans put) vacant

/-- A launch of a task whose ports no active task holds. -/
theorem places_launch {u : Task} (h : b.Sound) (faultless : b.repository.writeFaults = [])
    (active : u.condition.isActive = true)
    (free : ∀ q ∈ u.hostPorts, ∀ id, ¬ b.tracker.Holds isActive u.agent.agentId q id) :
    b.tracker.Places agent port (b.process limit (.launchEphemeral u)).2.tracker := by
  refine places_process u h faultless rfl ?_
  rw [change, show (StateOp.launchEphemeral u).taskId = u.id from rfl]
  cases known : b.tracker.task? u.id with
  | none =>
    refine .inr ⟨rfl, fun w hw => ?_, .inr ⟨active, free⟩⟩
    cases known.symm.trans hw
  | some w =>
    -- The id is taken, so the launch is refused.
    left
    simp only [StateOp.resolve]
    split <;> rfl

/-- Launches of tasks on one agent that have no port twice, and none that an active task holds. -/
theorem places_recordAll_launches {ts : List Task} {on : AgentId} (h : b.Sound)
    (faultless : b.repository.writeFaults = [])
    (made : ∀ u ∈ ts, u.condition.isActive = true ∧ u.agent.agentId = on)
    (distinct : (ts.flatMap (·.hostPorts)).Nodup)
    (free : ∀ q ∈ ts.flatMap (·.hostPorts), ∀ id, ¬ b.tracker.Holds isActive on q id) :
    b.tracker.Places agent port (b.recordAll limit (ts.map .launchEphemeral)).2.tracker := by
  induction ts generalizing b with
  | nil => exact .refl _ _ _
  | cons u rest ih =>
    obtain ⟨⟨active, there⟩, others⟩ := List.forall_mem_cons.1 made
    rw [List.flatMap_cons] at distinct free
    obtain ⟨-, distinct, apart⟩ := List.nodup_append.1 distinct
    have step : ∀ agent port, b.tracker.Places agent port
        (b.process limit (.launchEphemeral u)).2.tracker := by
      intro agent port
      refine places_launch h faultless active fun q hq id => ?_
      rw [there]
      exact free q (List.mem_append_left _ hq) id
    rw [List.map_cons, recordAll_cons]
    split
    · exact step agent port
    · refine (step agent port).trans (ih (frame_process h limit (.launchEphemeral u)).2
        (task?_process_faultless h.assembled faultless limit _).1 others distinct ?_)
      rintro q hq id ⟨v, known, active', agent', held⟩
      -- The port is held by the task that has just come up, or by one that was there.
      rcases origin_process h faultless known with ⟨w, before, same⟩ | ⟨newcomer, -⟩
      · cases same
        exact free q (List.mem_append_right _ hq) id ⟨v, before, active', agent', held⟩
      · obtain rfl := Option.some.inj newcomer
        exact apart q held q hq rfl

end Books

/-! ## Offers -/

namespace Decision

variable {α : Type} [Amount α] {policy : LaunchPolicy} {gpus : GpuPolicy} {runSpec : RunSpec α}
  {o : Offer α} {now : Timestamp} {ids ids' : IdSupply} {op : InstanceOp α} {b : Books}
  {known : List Instance}

/-- No active task on the agent holds a port that a match binds. -/
theorem not_holds_of_match? {s : Selector} {request : VolumeRequest α} {m : ResourceMatch α}
    (perm : known.Perm b.tracker.snapshot) (sound : b.Sound) (located : b.tracker.Located)
    (found : Matching.match? gpus o runSpec known s request = .ok m) :
    ∀ q ∈ m.assignedPorts, ∀ id, ¬ b.tracker.Holds isActive o.agentId q id :=
  fun q hq _ active =>
    (Matching.ports_match? found).2 q hq (located.mem_inUse perm sound.assembled active)

/-- The tasks of a new instance come up on the agent of the offer, each on its own ports of the match. -/
theorem Launches.places {k : InstanceId} {tasks : List Task} {s : Selector}
    {request : VolumeRequest α} {m : ResourceMatch α} (launches : Launches runSpec o k now op tasks)
    (ports : (tasks.flatMap (·.hostPorts)).Sublist m.assignedPorts)
    (perm : known.Perm b.tracker.snapshot)
    (found : Matching.match? gpus o runSpec known s request = .ok m) (sound : b.Sound)
    (faultless : b.repository.writeFaults = []) (located : b.tracker.Located)
    (unknown : b.tracker.instances.find? k = none) (limit : Span) :
    (b.recordAll limit op.stateOps).2.tracker.Located ∧
      ∀ agent port, b.tracker.Places agent port (b.recordAll limit op.stateOps).2.tracker := by
  refine ⟨Books.located_recordAll sound faultless located
    (Tracker.locatedAt_of_unknown unknown o.agent) ?_, fun agent port => ?_⟩
  · intro s hs u newcomer
    obtain ⟨t, -, rfl, -, hinstance, container, hostPorts, rfl⟩ := launches.stateOp hs
    obtain rfl := Option.some.inj newcomer
    exact ⟨hinstance, rfl⟩
  · rw [launches.stateOps]
    refine Books.places_recordAll_launches sound faultless ?_
      (ports.nodup (Matching.ports_match? found).1)
      fun q hq => not_holds_of_match? perm sound located found q (ports.subset hq)
    intro u hu
    obtain ⟨container, hostPorts, rfl⟩ := launches.made u hu
    exact ⟨rfl, rfl⟩

/-- A task that waits on the agent of the offer comes up on the ports of the match. -/
theorem places_launchOnReservation {u : Task} {s : Selector} {request : VolumeRequest α}
    {m : ResourceMatch α} (tracked : b.tracker.task? u.id = some u) (waits : u.isReserved = true)
    (there : u.agent.agentId = o.agentId) (perm : known.Perm b.tracker.snapshot)
    (found : Matching.match? gpus o runSpec known s request = .ok m) (sound : b.Sound)
    (faultless : b.repository.writeFaults = []) (located : b.tracker.Located) (limit : Span)
    (version : Timestamp) (agent : AgentId) (port : Port) :
    b.tracker.Places agent port (b.process limit
      (.launchOnReservation u.id version (.fresh .created now) m.assignedPorts)).2.tracker := by
  refine Books.places_process (u.onReservation version (.fresh .created now) m.assignedPorts)
    sound faultless rfl (.inr ⟨?_, ?_, .inr ⟨rfl, ?_⟩⟩)
  · rw [Books.change_launchOnReservation _ _ _ tracked waits]
    rfl
  · intro v hv
    obtain rfl := Option.some.inj (tracked.symm.trans hv)
    exact beq_iff_eq.1 waits
  · intro q hq id active
    exact not_holds_of_match? perm sound located found q hq id (there ▸ active)

/-- Recording an operation keeps the tasks of each instance on one agent, and brings tasks up on ports of
their own. -/
theorem Reached.places (h : Reached policy gpus runSpec o known now ids op ids')
    (perm : known.Perm b.tracker.snapshot) (sound : b.Sound)
    (faultless : b.repository.writeFaults = []) (located : b.tracker.Located)
    (unknown : ids.ulidsGiven < ids'.ulidsGiven → b.tracker.instances.find? ids.nextId.1 = none)
    (limit : Span) : (b.recordAll limit op.stateOps).2.tracker.Located ∧
      ∀ agent port, b.tracker.Places agent port (b.recordAll limit op.stateOps).2.tracker := by
  cases h with
  | launched m ephemeral found made =>
    obtain ⟨tasks, launches, ports⟩ := bound_of_made made
    exact launches.places ports perm found sound faultless located (unknown (Nat.lt_succ_self _)) limit
  | relaunched i u m resident hi own alone waits found =>
    obtain ⟨-, -, -, only⟩ := Tracker.find?_of_alone sound.assembled (perm.mem_iff.1 hi) alone
    have tracked : b.tracker.task? u.id = some u := (only u.id rfl).trans (if_pos rfl)
    simp only [waitsOn, Bool.and_eq_true, beq_iff_eq] at waits
    obtain ⟨agent, there⟩ := located u.instanceId
    refine ⟨Books.located_recordAll sound faultless located there ?_, fun agent port => ?_⟩
    · intro s hs v newcomer
      obtain rfl := List.mem_singleton.1 hs
      cases newcomer
    · rw [InstanceOp.stateOps, Books.recordAll_singleton]
      exact places_launchOnReservation tracked waits.1.1.1 waits.1.1.2 perm found sound faultless
        located limit runSpec.version agent port
  | reserved m volumes deadline resident room found created timed =>
    have fresh := unknown (given_of_createVolumes created)
    have absent : b.tracker.task? (.forInstance runSpec.id ids.nextId.1) = none := by
      rw [Tracker.task?_eq]
      exact congrArg (Option.bind · _) fresh
    refine ⟨Books.located_recordAll sound faultless located
      (Tracker.locatedAt_of_unknown fresh o.agent) ?_, fun agent port => ?_⟩
    · intro s hs u newcomer
      obtain rfl := List.mem_singleton.1 hs
      obtain rfl := Option.some.inj newcomer
      exact ⟨rfl, rfl⟩
    · have comes : b.change (.reserve (foundedTask runSpec o (.forInstance runSpec.id ids.nextId.1)
          (volumes.map (·.1)) now deadline)) = .update _ none := Books.change_reserve absent
      rw [InstanceOp.stateOps, Books.recordAll_singleton]
      refine Books.places_process _ sound faultless rfl (.inr ⟨?_, ?_, .inl rfl⟩)
      · rw [comes]
        rfl
      · intro v hv
        cases absent.symm.trans hv

end Decision

end Placement
