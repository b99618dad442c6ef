/-
The lifecycle of one task: what holds of every task that comes of state ops, whatever is reported of
it and whenever.

* `Task.Step` lists what an op can do to a known task, and `Task.step_resolve` says that nothing else
  happens. Every statement below is a case analysis on it.
* `Task.Phase` is the invariant: a task runs without a reservation, waits on one, or runs on one.
* `lawful_followAll` is the main result. It reads the laws of a lifecycle off the phase, for every
  task on the way from nothing.

The ops that make a task, or launch one on its reservation, have to be planned (`StateOp.IsPlanned`);
they come from decisions on offers. All other ops are arbitrary.
-/
import Placement.Change

namespace Placement

/-! ## What an op does to a known task -/

/-- What can become of a known task by an op: the op, and the task after it. -/
inductive Task.Step (t : Task) : StateOp → Option Task → Prop where
  | kept (op : StateOp) : t.Step op (some t)
  | forgotten (id : TaskId) : t.Step (.forceExpunge id) none
  | lapsed (id : TaskId) (waits : t.condition = .reserved) : t.Step (.reservationTimeout id) none
  | lost (id : TaskId) (r : StatusReport) (now : Timestamp) (live : t.condition.isTerminal = false)
      (free : t.reservation = none) (ends : r.state.condition.isTerminal = true)
      (gone : r.state.condition.isLost = true) : t.Step (.report id r now) none
  | launched (id : TaskId) (version : Timestamp) (status : TaskStatus) (hostPorts : List Port)
      (waits : t.condition = .reserved) :
      t.Step (.launchOnReservation id version status hostPorts) (some { t with
        runSpecVersion := version
        status := status
        hostPorts := hostPorts
        reservation := t.reservation.map fun r => { r with state := .launched } })
  | suspended (id : TaskId) (r : StatusReport) (now : Timestamp) (reservation : Reservation)
      (runs : t.condition ≠ .reserved) (live : t.condition.isTerminal = false)
      (holds : t.reservation = some reservation) (ends : r.state.condition.isTerminal = true) :
      t.Step (.report id r now) (some { t with
        status := { t.status with report := some r, condition := .reserved, since := now }
        hostPorts := []
        reservation := some { reservation with state := .suspended none } })
  | moved (id : TaskId) (r : StatusReport) (now : Timestamp)
      (runs : t.condition ≠ .reserved) (live : t.condition.isTerminal = false)
      (stays : r.state.condition.isTerminal = true →
        t.reservation = none ∧ r.state.condition.isLost = false) :
      t.Step (.report id r now) (some { t with
        status := {
          stagedAt := t.status.stagedAt
          startedAt :=
            if r.state.condition = .running ∧ t.status.startedAt.isNone then some now
            else t.status.startedAt
          condition := r.state.condition
          since := if r.state.condition = t.condition then t.status.since else now
          report := some r } })
  | inactive (id : TaskId) (unreachable : t.condition = .unreachable) :
      t.Step (.markUnreachableInactive id)
        (some { t with status := { t.status with condition := .unreachableInactive } })

namespace Task

/-- A report on a task that is not terminal does one of the listed things. -/
theorem step_applyReport {t : Task} (live : t.condition.isTerminal = false) (id : TaskId)
    (r : StatusReport) (now : Timestamp) :
    t.Step (.report id r now) ((StateOp.applyReport t r now).follow (some t)) := by
  unfold StateOp.applyReport
  simp only
  split
  · exact .kept _
  · next runs =>
    split
    · exact .kept _
    · split
      · exact .kept _
      · split
        · next reservation ends holds => exact .suspended id r now reservation runs live holds ends
        · next h =>
          -- Here a report of an end meets a task without a reservation.
          have free : r.state.condition.isTerminal = true → t.reservation = none := fun ends =>
            Option.eq_none_iff_forall_ne_some.2 fun reservation holds => h _ ends holds
          split
          · next gone =>
            rw [Bool.and_eq_true] at gone
            exact .lost id r now live (free gone.1) gone.1 gone.2
          · next stays =>
            refine .moved id r now runs live fun ends => ⟨free ends, ?_⟩
            simpa [ends] using stays

/-- An op on a task that is not terminal does one of the listed things. -/
theorem step_resolveLive {t : Task} (live : t.condition.isTerminal = false) (op : StateOp) :
    t.Step op ((op.resolveLive t).follow (some t)) := by
  cases op with
  | launchEphemeral new => exact .kept _
  | reserve new => simp only [StateOp.resolveLive]; split <;> exact .kept _
  | launchOnReservation id version status hostPorts =>
    simp only [StateOp.resolveLive]
    split
    · next waits => exact .launched id version status hostPorts (by simpa [isReserved] using waits)
    · exact .kept _
  | report id r now => exact step_applyReport live id r now
  | reservationTimeout id =>
    simp only [StateOp.resolveLive]
    split
    · next waits => exact .lapsed id (by simpa [isReserved] using waits)
    · exact .kept _
  | forceExpunge id => exact .forgotten id
  | markUnreachableInactive id =>
    simp only [StateOp.resolveLive]
    split
    · next h => exact .inactive id h
    · exact .kept _

/-- An op on a known task does one of the listed things. -/
theorem step_resolve (t : Task) (op : StateOp) :
    t.Step op ((op.resolve (some t)).follow (some t)) := by
  cases h : t.condition.isTerminal with
  | false =>
    have live := step_resolveLive h op
    cases op with
    | forceExpunge id => exact .forgotten id
    | _ => simpa [StateOp.resolve, h] using live
  | true =>
    cases op with
    | forceExpunge id => exact .forgotten id
    | _ => simpa [StateOp.resolve, h, Change.follow] using Step.kept _

end Task

/-! ## The laws of a lifecycle -/

/-- The reservation waits for a launch. -/
def ReservationState.Waits : ReservationState → Prop
  | new _ => True
  | launched => False
  | suspended _ => True

namespace Task

/-- What holds of a task at any point of its life. -/
structure Lawful (t : Task) : Prop where
  /-- A task is reserved as long as its reservation waits for a launch. -/
  reserved_iff : t.condition = .reserved ↔ ∃ r, t.reservation = some r ∧ r.state.Waits
  /-- A reservation that does not wait has been launched on. -/
  launched : ∀ r, t.reservation = some r → t.condition ≠ .reserved → r.state = .launched
  /-- A task that holds a reservation does not come to its end. -/
  live : t.isResident = true → t.condition.isTerminal = false
  /-- A task without a reservation is forgotten rather than gone, dropped or unknown. -/
  known : t.isResident = false →
    t.condition ≠ .reserved ∧ t.condition ≠ .gone ∧ t.condition ≠ .dropped ∧ t.condition ≠ .unknown
  noPorts : t.condition = .reserved → t.hostPorts = []

/-- The phase a task is in. Each op keeps a task in its phase, or takes it from waiting to launched
and back. -/
inductive Phase (t : Task) : Prop where
  | ephemeral (free : t.reservation = none) (running : t.condition ≠ .reserved)
      (known : t.condition ≠ .gone ∧ t.condition ≠ .dropped ∧ t.condition ≠ .unknown)
  | waiting (r : Reservation) (holds : t.reservation = some r) (waits : r.state.Waits)
      (reserved : t.condition = .reserved) (noPorts : t.hostPorts = [])
  | launched (r : Reservation) (holds : t.reservation = some r) (used : r.state = .launched)
      (running : t.condition ≠ .reserved) (live : t.condition.isTerminal = false)

theorem Phase.lawful {t : Task} (h : t.Phase) : t.Lawful := by
  cases h with
  | ephemeral free running known =>
    exact ⟨by simp [running, free], by simp [free], by simp [isResident, free],
      fun _ => ⟨running, known⟩, fun h => absurd h running⟩
  | waiting r holds waits reserved noPorts =>
    refine ⟨⟨fun _ => ⟨r, holds, waits⟩, fun _ => reserved⟩, fun _ _ h => absurd reserved h, ?_, ?_,
      fun _ => noPorts⟩
    · intro _
      rw [reserved]
      rfl
    · simp [isResident, holds]
  | launched r holds used running live =>
    refine ⟨⟨fun h => absurd h running, ?_⟩, ?_, fun _ => live, ?_, fun h => absurd h running⟩
    · rintro ⟨r', h, waits⟩
      obtain rfl : r = r' := Option.some.inj (holds.symm.trans h)
      rw [used] at waits
      exact waits.elim
    · intro r' h _
      obtain rfl : r = r' := Option.some.inj (holds.symm.trans h)
      exact used
    · simp [isResident, holds]

/-- A later value of a task: what it is known by, where it runs and what it holds are the same. -/
structure Continues (t u : Task) : Prop where
  id : u.id = t.id
  agent : u.agent = t.agent
  resident : u.isResident = t.isResident
  volumeIds : u.volumeIds = t.volumeIds

theorem Continues.refl (t : Task) : t.Continues t := ⟨rfl, rfl, rfl, rfl⟩

theorem Continues.trans {t u v : Task} (h : t.Continues u) (h' : u.Continues v) : t.Continues v :=
  ⟨h'.id.trans h.id, h'.agent.trans h.agent, h'.resident.trans h.resident,
    h'.volumeIds.trans h.volumeIds⟩

/-- A change of the reservation's state alone leaves its presence and its volumes. -/
theorem Continues.of_reservation {t u : Task} (hid : u.id = t.id) (hagent : u.agent = t.agent)
    (h : u.reservation.map (·.volumeIds) = t.reservation.map (·.volumeIds)) : t.Continues u := by
  refine ⟨hid, hagent, ?_, by rw [Task.volumeIds, Task.volumeIds, h]⟩
  have presence := congrArg Option.isSome h
  simpa [isResident] using presence

/-- No op turns a task into another one. -/
theorem Step.continues {t u : Task} {op : StateOp} (h : t.Step op (some u)) : t.Continues u := by
  cases h with
  | kept => exact Continues.refl t
  | launched id version status hostPorts waits =>
    refine Continues.of_reservation rfl rfl ?_
    simp [Function.comp_def]
  | suspended id r now reservation runs live holds ends =>
    exact Continues.of_reservation rfl rfl (by simp [holds])
  | moved id r now runs live stays => exact Continues.of_reservation rfl rfl rfl
  | inactive id unreachable => exact Continues.of_reservation rfl rfl rfl

end Task

/-! ## Planned ops -/

/-- Ops that make a task or launch one are as decisions on offers make them; others are arbitrary. -/
def StateOp.IsPlanned : StateOp → Prop
  | launchEphemeral t => t.condition = .created ∧ t.reservation = none
  | reserve t =>
    t.condition = .reserved ∧ t.hostPorts = [] ∧
      ∃ volumeIds timeout, t.reservation = some ⟨volumeIds, .new timeout⟩
  | launchOnReservation _ _ status _ => status.condition = .created
  | report _ _ _ => True
  | reservationTimeout _ => True
  | forceExpunge _ => True
  | markUnreachableInactive _ => True

namespace Task

/-- No report puts a task into the condition `reserved`. -/
theorem condition_report_ne_reserved (s : ReportedState) : s.condition ≠ .reserved := by
  cases s <;> decide

/-- An end that is not the loss of the task is a failure, a kill or a success. -/
theorem known_of_not_isLost {c : Condition} (h : c.isTerminal = true → c.isLost = false) :
    c ≠ .gone ∧ c ≠ .dropped ∧ c ≠ .unknown := by
  revert h; cases c <;> decide

/-- A planned op leaves a known task in some phase. -/
theorem Step.phase {t u : Task} {op : StateOp} (h : t.Step op (some u)) (planned : op.IsPlanned)
    (ht : t.Phase) : u.Phase := by
  cases h with
  | kept => exact ht
  | launched id version status hostPorts waits =>
    have created : status.condition = .created := planned
    cases ht with
    | ephemeral free running known => exact absurd waits running
    | waiting r holds =>
      exact .launched { r with state := .launched } (by simp [holds]) rfl
        (by simp [condition, created]) (by simp [condition, created, Condition.isTerminal])
    | launched r holds used running => exact absurd waits running
  | suspended id r now reservation runs live holds ends =>
    exact .waiting { reservation with state := .suspended none } rfl trivial rfl rfl
  | moved id r now runs live stays =>
    have running := condition_report_ne_reserved r.state
    cases ht with
    | ephemeral free =>
      exact .ephemeral free running (known_of_not_isLost fun ends => (stays ends).2)
    | waiting _ _ _ reserved => exact absurd reserved runs
    | launched reservation holds used _ _ =>
      refine .launched reservation holds used running ?_
      -- An end would have suspended the reservation.
      rw [← Bool.not_eq_true]
      intro ends
      rw [(stays ends).1] at holds
      exact absurd holds (by simp)
  | inactive id unreachable =>
    cases ht with
    | ephemeral free => exact .ephemeral free (by simp [condition]) (by simp [condition])
    | waiting _ _ _ reserved => rw [reserved] at unreachable; exact absurd unreachable (by decide)
    | launched reservation holds used =>
      exact .launched reservation holds used (by simp [condition])
        (by simp [condition, Condition.isTerminal])

end Task

namespace StateOp

/-- A task made by a planned op starts in some phase, under the id of the op. -/
theorem phase_of_resolve_none {op : StateOp} (planned : op.IsPlanned) {t : Task}
    (h : (op.resolve none).follow none = some t) : t.Phase ∧ t.id = op.taskId := by
  cases op with
  | launchEphemeral new =>
    obtain rfl : new = t := Option.some.inj h
    obtain ⟨created, free⟩ := planned
    exact ⟨.ephemeral free (by simp [created]) (by simp [created]), rfl⟩
  | reserve new =>
    obtain rfl : new = t := Option.some.inj h
    obtain ⟨reserved, noPorts, volumeIds, timeout, holds⟩ := planned
    exact ⟨.waiting _ holds trivial reserved noPorts, rfl⟩
  | _ => exact absurd h (by simp [resolve, Change.follow])

/-! ## Runs -/

/-- The task after ops taken one after another, each followed by its change. -/
def followAll (ops : List StateOp) (current : Option Task) : Option Task :=
  ops.foldl (fun current op => (op.resolve current).follow current) current

theorem followAll_append (ops ops' : List StateOp) (current : Option Task) :
    followAll (ops ++ ops') current = followAll ops' (followAll ops current) :=
  List.foldl_append

/-- What holds of no task, and of every task that an op leaves, holds along a run. -/
theorem followAll_induction {P : Task → Prop} {ops : List StateOp}
    (step : ∀ op ∈ ops, ∀ current t, (∀ u, current = some u → P u) →
      (op.resolve current).follow current = some t → P t)
    {current : Option Task} (start : ∀ u, current = some u → P u) {t : Task}
    (h : followAll ops current = some t) : P t := by
  induction ops generalizing current with
  | nil => exact start t h
  | cons op rest ih =>
    refine ih (fun op' hop' => step op' (List.mem_cons_of_mem _ hop')) ?_ h
    intro u hu
    exact step op List.mem_cons_self current u start hu

/-- Planned ops keep a task in its phases, under the id they are for. -/
theorem phase_followAll {id : TaskId} {ops : List StateOp}
    (h : ∀ op ∈ ops, op.taskId = id ∧ op.IsPlanned) {t : Task}
    (ht : followAll ops none = some t) : t.Phase ∧ t.id = id := by
  refine followAll_induction (P := fun t => t.Phase ∧ t.id = id) ?_ (by simp) ht
  intro op hop current t hcurrent hstep
  obtain ⟨hid, planned⟩ := h op hop
  cases current with
  | none =>
    obtain ⟨phase, hid'⟩ := phase_of_resolve_none planned hstep
    exact ⟨phase, hid'.trans hid⟩
  | some u =>
    obtain ⟨phase, hid'⟩ := hcurrent u rfl
    have step := Task.step_resolve u op
    rw [hstep] at step
    exact ⟨step.phase planned phase, step.continues.id.trans hid'⟩

/-- As long as a task is known, ops leave it the same task. -/
theorem continues_followAll {ops : List StateOp} {t u : Task}
    (known : ∀ pre, pre <+: ops → followAll pre (some t) ≠ none)
    (hu : followAll ops (some t) = some u) : t.Continues u := by
  induction ops generalizing t with
  | nil =>
    obtain rfl : t = u := Option.some.inj hu
    exact Task.Continues.refl t
  | cons op rest ih =>
    have step := Task.step_resolve t op
    cases hv : (op.resolve (some t)).follow (some t) with
    | none =>
      refine absurd ?_ (known [op] ⟨rest, rfl⟩)
      simpa [followAll] using hv
    | some v =>
      rw [hv] at step
      refine step.continues.trans (ih ?_ ?_)
      · intro pre hpre
        obtain ⟨rest', rfl⟩ := hpre
        have := known (op :: pre) ⟨rest', rfl⟩
        simpa [followAll, hv] using this
      · simpa [followAll, hv] using hu

/-- Every task on the way of planned ops for one id, from nothing, is lawful and has that id. From
any point on, as long as it is not forgotten, it stays on its agent and keeps its reservation, or
stays without one, with the volumes it had. -/
theorem lawful_followAll (id : TaskId) (ops : List StateOp)
    (h : ∀ op ∈ ops, op.taskId = id ∧ op.IsPlanned) :
    (∀ pre, pre <+: ops → ∀ t, followAll pre none = some t → t.Lawful ∧ t.id = id) ∧
    ∀ pre mid, pre ++ mid <+: ops →
      (∀ part, part <+: mid → followAll (pre ++ part) none ≠ none) →
      ∀ t u, followAll pre none = some t → followAll (pre ++ mid) none = some u →
        t.Continues u := by
  constructor
  · intro pre hpre t ht
    have sub : ∀ op ∈ pre, op ∈ ops := fun op hop => hpre.subset hop
    obtain ⟨phase, hid⟩ := phase_followAll (fun op hop => h op (sub op hop)) ht
    exact ⟨phase.lawful, hid⟩
  · intro pre mid _ known t u ht hu
    rw [followAll_append, ht] at hu
    refine continues_followAll ?_ hu
    intro part hpart
    have := known part hpart
    rwa [followAll_append, ht] at this

end StateOp

/-! ## A run -/

/-- A task that waits on a new reservation of one volume. -/
def Sample.waitingTask : Task where
  id := .forInstance ⟨"/web", by decide⟩ ⟨.ofNat 1⟩
  agent := ⟨⟨.ofNat 2⟩, "host", ∅⟩
  runSpecVersion := ⟨0, 0⟩
  status := .fresh .reserved ⟨0, 0⟩
  hostPorts := []
  reservation := some ⟨[⟨⟨"/web", by decide⟩, "data", .ofNat 3, by decide⟩], .new none⟩
  unreachableStrategy := .usual

/-- The volume that it has. -/
def Sample.volume : VolumeId := ⟨⟨"/web", by decide⟩, "data", .ofNat 3, by decide⟩

/-- The task is launched on its reservation and comes to its end. -/
def Sample.ops : List StateOp :=
  [.launchOnReservation Sample.waitingTask.id ⟨1, 0⟩ (.fresh .created ⟨1, 0⟩) [8080],
    .report Sample.waitingTask.id (.ofState .finished ⟨2, 0⟩) ⟨2, 0⟩]

theorem lawful_followAll_sample :
    (∀ op ∈ .reserve Sample.waitingTask :: Sample.ops,
      op.taskId = Sample.waitingTask.id ∧ op.IsPlanned) ∧
    ∃ t, StateOp.followAll (.reserve Sample.waitingTask :: Sample.ops) none = some t ∧
      t.condition = .reserved ∧ t.Lawful ∧ Sample.waitingTask.Continues t := by
  have planned : ∀ op ∈ .reserve Sample.waitingTask :: Sample.ops,
      op.taskId = Sample.waitingTask.id ∧ op.IsPlanned := by
    intro op hop
    simp only [Sample.ops, List.mem_cons, List.not_mem_nil, or_false] at hop
    rcases hop with rfl | rfl | rfl
    · exact ⟨rfl, rfl, rfl, _, _, rfl⟩
    · exact ⟨rfl, rfl⟩
    · exact ⟨rfl, trivial⟩
  obtain ⟨laws, same⟩ := StateOp.lawful_followAll _ _ planned
  refine ⟨planned, _, rfl, rfl, (laws _ List.prefix_rfl _ rfl).1, ?_⟩
  refine same [.reserve Sample.waitingTask] Sample.ops List.prefix_rfl ?_ _ _ rfl rfl
  intro part hpart
  have cut : part = Sample.ops.take part.length := List.prefix_iff_eq_take.1 hpart
  have short : part.length ≤ 2 := hpart.length_le
  rw [cut]
  revert short
  generalize part.length = n
  intro short
  obtain rfl | rfl | rfl : n = 0 ∨ n = 1 ∨ n = 2 := by omega
  all_goals exact nofun

end Placement
