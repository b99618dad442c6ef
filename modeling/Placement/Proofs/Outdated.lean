/-
Ops that the monitor chose on an outdated copy of a task.

A scan looks at all tasks once, and asks for its ops one after another. Until an op is taken, other ops may
have been taken on the same task. Which tasks can be lost by that?

* A reservation that is to lapse, and a task that has come to its end, stay as they were seen until the one
  is launched on or either is forgotten (`Task.Step.eq_of_reserved`, `Task.Step.eq_of_isTerminal`).
* A task that was seen as inactive holds no reservation, so it is never reserved (`Task.Step.isFree`), and
  it is active again only after a report of that (`Task.Step.isAway`). It is forgotten all the same, since
  forgetting a task asks for no condition.

`Monitor.removed_of_outdated` is the main result: it says what has to have happened in between when an op
removes an active task, or a reservation that is not over.
-/
import Placement.Proofs.Housekeeping

namespace Placement

/-! ## What lasts until a task is forgotten -/

namespace StateOp

/-- The task is forgotten on the way of some ops; after that it may have been made again. -/
def Forget (ops : List StateOp) (t : Task) : Prop :=
  ∃ part, part <+: ops ∧ followAll part (some t) = none

/-- One of the ops launches the task on its reservation. -/
def Relaunch (ops : List StateOp) : Prop := ∃ op ∈ ops, op.kind = .launchOnReservation

/-- One of the ops reports that the task is active. -/
def ReportActive (ops : List StateOp) : Prop :=
  ∃ id r now, .report id r now ∈ ops ∧ r.state.condition.isActive = true

/-- What no op on the way takes from a task holds at the end, unless the task is forgotten on the way. -/
theorem keeps_or_forget {P : Task → Prop} {ops : List StateOp}
    (step : ∀ op ∈ ops, ∀ v w, P v → v.Step op (some w) → P w) {t u : Task} (start : P t)
    (known : followAll ops (some t) = some u) : P u ∨ Forget ops t := by
  induction ops generalizing t with
  | nil => exact .inl (Option.some.inj known ▸ start)
  | cons op rest ih =>
    have first := Task.step_resolve t op
    cases hv : (op.resolve (some t)).follow (some t) with
    | none => exact .inr ⟨[op], ⟨rest, rfl⟩, hv⟩
    | some v =>
      have next : ∀ part, followAll (op :: part) (some t) = followAll part (some v) := by
        intro part
        rw [followAll, List.foldl_cons, hv]
        rfl
      rw [hv] at first
      rw [next] at known
      have kept := step op List.mem_cons_self t v start first
      rcases ih (fun op' hop' => step op' (List.mem_cons_of_mem op hop')) kept known with
        kept | ⟨part, hpart, gone⟩
      · exact .inl kept
      · exact .inr ⟨op :: part, List.cons_prefix_cons.2 ⟨rfl, hpart⟩, (next part).trans gone⟩

end StateOp

theorem Condition.isActive_of_isTerminal {c : Condition} (h : c.isTerminal = true) :
    c.isActive = false := by
  revert h
  cases c <;> decide

namespace Task

variable {t u : Task} {op : StateOp}

/-- A task that has come to its end stays as it is. -/
theorem Step.eq_of_isTerminal (h : t.Step op (some u)) (terminal : t.condition.isTerminal = true) :
    u = t := by
  cases h with
  | kept => rfl
  | launched id version status hostPorts waits =>
    rw [waits] at terminal
    cases terminal
  | suspended id r now reservation runs live =>
    rw [terminal] at live
    cases live
  | moved id r now runs live =>
    rw [terminal] at live
    cases live
  | inactive id unreachable =>
    rw [unreachable] at terminal
    cases terminal

/-- A task that waits on its reservation stays as it is until it is launched. -/
theorem Step.eq_of_reserved (h : t.Step op (some u)) (waits : t.condition = .reserved)
    (other : op.kind ≠ .launchOnReservation) : u = t := by
  cases h with
  | kept => rfl
  | launched => exact absurd rfl other
  | suspended id r now reservation runs => exact absurd waits runs
  | moved id r now runs => exact absurd waits runs
  | inactive id unreachable =>
    rw [waits] at unreachable
    cases unreachable

/-- The task neither holds a reservation nor waits on one. -/
def IsFree (t : Task) : Prop := t.reservation = none ∧ t.condition ≠ .reserved

theorem Step.isFree (h : t.Step op (some u)) (free : t.IsFree) : u.IsFree := by
  obtain ⟨none, runs⟩ := free
  cases h with
  | kept => exact ⟨none, runs⟩
  | launched id version status hostPorts waits => exact absurd waits runs
  | suspended id r now reservation _ live holds =>
    rw [none] at holds
    cases holds
  | moved id r now => exact ⟨none, condition_report_ne_reserved r.state⟩
  | inactive => exact ⟨none, by simp [condition]⟩

/-- The task runs without a reservation, and is not active. -/
structure IsAway (t : Task) : Prop where
  free : t.IsFree
  passive : t.condition.isActive = false

/-- A task that is not active is brought back by a report alone. -/
theorem Step.isAway (h : t.Step op (some u)) (away : t.IsAway)
    (silent : ∀ id r now, op = .report id r now → r.state.condition.isActive = false) :
    u.IsAway := by
  refine ⟨h.isFree away.free, ?_⟩
  cases h with
  | kept => exact away.passive
  | launched id version status hostPorts waits => exact absurd waits away.free.2
  | suspended => rfl
  | moved id r now => exact silent id r now rfl
  | inactive => rfl

end Task

/-! ## What an outdated op removes -/

namespace Monitor

variable {m : MonitorSettings} {now : Timestamp} {t u : Task} {op : StateOp} {between : List StateOp}

/-- An op that a scan chose for a task as it was seen, and that is taken after any other ops, removes an
active task only if the task was seen as inactive and has been reported active since, or if it has been
forgotten and made again since. It removes a task that waits on a reservation which is not over only if
the task has been launched on its reservation since, or forgotten and made again. -/
theorem removed_of_outdated (chosen : housekeepingOp? m now t = some op)
    (known : StateOp.followAll between (some t) = some u)
    (removed : (op.resolve (some u)).follow (some u) = none) :
    (u.condition.isActive = true →
      (t.condition = .unreachableInactive ∧ StateOp.ReportActive between) ∨
        StateOp.Forget between t) ∧
    (u.condition = .reserved → ¬u.IsOver now →
      (t.condition = .reserved ∧ StateOp.Relaunch between) ∨ StateOp.Forget between t) := by
  have step := Task.step_resolve u op
  rw [removed] at step
  cases housekeepingOp?_eq_some_iff.1 chosen with
  | lapsed waits expired =>
    refine ⟨fun active => ?_, fun _ notOver => ?_⟩
    · -- The op asks for the condition again.
      cases step with
      | lapsed id waits' =>
        rw [waits'] at active
        cases active
    · by_cases launched : StateOp.Relaunch between
      · exact .inl ⟨waits, launched⟩
      · have stays : ∀ op ∈ between, ∀ v w, v = t → v.Step op (some w) → w = t := by
          rintro op hop v w rfl next
          exact next.eq_of_reserved waits fun kind => launched ⟨op, hop, kind⟩
        rcases StateOp.keeps_or_forget stays rfl known with rfl | forgotten
        · exact absurd expired notOver
        · exact .inr forgotten
  | ended terminal past =>
    have stays : ∀ op ∈ between, ∀ v w, v = t → v.Step op (some w) → w = t := by
      rintro op hop v w rfl next
      exact next.eq_of_isTerminal terminal
    rcases StateOp.keeps_or_forget stays rfl known with rfl | forgotten
    · refine ⟨fun active => ?_, fun waits _ => ?_⟩
      · rw [Condition.isActive_of_isTerminal terminal] at active
        cases active
      · rw [waits] at terminal
        cases terminal
    · exact ⟨fun _ => .inr forgotten, fun _ _ => .inr forgotten⟩
  | unreachable free condition past => cases step
  | inactive free condition past =>
    have free : t.IsFree := ⟨by simpa [Task.isResident] using free, by simp [condition]⟩
    refine ⟨fun active => ?_, fun waits _ => ?_⟩
    · by_cases reported : StateOp.ReportActive between
      · exact .inl ⟨condition, reported⟩
      · have stays : ∀ op ∈ between, ∀ v w : Task, v.IsAway → v.Step op (some w) → w.IsAway := by
          intro op hop v w away next
          refine next.isAway away fun id r at_ hr => ?_
          rw [← Bool.not_eq_true]
          exact fun activeReport => reported ⟨id, r, at_, hr ▸ hop, activeReport⟩
        rcases StateOp.keeps_or_forget stays ⟨free, by rw [condition]; rfl⟩ known with
          away | forgotten
        · rw [away.passive] at active
          cases active
        · exact .inr forgotten
    · rcases StateOp.keeps_or_forget (fun _ _ _ _ free next => next.isFree free) free known with
        free | forgotten
      · exact absurd waits free.2
      · exact .inr forgotten

end Monitor

/-! ## Tasks that are lost -/

/-- A task that has been launched without a reservation. -/
def Sample.launchedTask : Task :=
  { Sample.waitingTask with
    status := .fresh .created ⟨0, 0⟩
    hostPorts := [8080]
    reservation := none }

/-- The task is launched, lost from sight and inactive after a while. -/
def Sample.retirement : List StateOp :=
  [.launchEphemeral Sample.launchedTask,
    .report Sample.launchedTask.id (.ofState .unreachable ⟨1, 0⟩) ⟨1, 0⟩,
    .markUnreachableInactive Sample.launchedTask.id]

/-- The task is seen again. -/
def Sample.recovery : List StateOp :=
  [.report Sample.launchedTask.id (.ofState .running ⟨601, 0⟩) ⟨601, 0⟩]

/-- A task that waits on a new reservation until five minutes have passed. -/
def Sample.limitedTask : Task :=
  { Sample.waitingTask with
    reservation := some ⟨[Sample.volume], .new (some ⟨⟨0, 0⟩, ⟨300, 0⟩⟩)⟩ }

/-- The task that runs again is forgotten, and it had been seen as inactive and reported active since. -/
theorem removed_of_outdated_sample : ∃ t u op,
    Monitor.housekeepingOp? .usual ⟨601, 0⟩ t = some op ∧
      StateOp.followAll Sample.recovery (some t) = some u ∧
      (op.resolve (some u)).follow (some u) = none ∧ u.condition.isActive = true ∧
      ((t.condition = .unreachableInactive ∧ StateOp.ReportActive Sample.recovery) ∨
        StateOp.Forget Sample.recovery t) := by
  let t : Task :=
    { Sample.launchedTask with
      status := ⟨⟨0, 0⟩, none, .unreachableInactive, ⟨1, 0⟩, some (.ofState .unreachable ⟨1, 0⟩)⟩ }
  have chosen : Monitor.housekeepingOp? .usual ⟨601, 0⟩ t = some (.forceExpunge t.id) := rfl
  obtain ⟨u, known, active⟩ : ∃ u, StateOp.followAll Sample.recovery (some t) = some u ∧
      u.condition.isActive = true := ⟨_, rfl, rfl⟩
  have removed : ((StateOp.forceExpunge t.id).resolve (some u)).follow (some u) = none := rfl
  have why := Monitor.removed_of_outdated chosen known removed
  exact ⟨t, u, _, chosen, known, removed, active, why.1 active⟩

/-- An op that the monitor chooses is taken too late. A task that runs again is forgotten; and so is one
that has been launched on its reservation, has come to its end and waits without a deadline. -/
theorem Sample.lost_tasks :
    (∃ t u op, (∀ op ∈ Sample.retirement, op.taskId = t.id ∧ op.IsPlanned) ∧
      StateOp.followAll Sample.retirement none = some t ∧
      Monitor.housekeepingOp? .usual ⟨601, 0⟩ t = some op ∧
      StateOp.followAll Sample.recovery (some t) = some u ∧ u.condition.isActive = true ∧
      (op.resolve (some u)).follow (some u) = none) ∧
    ∃ t u op, (StateOp.reserve Sample.limitedTask).IsPlanned ∧
      StateOp.followAll [.reserve Sample.limitedTask] none = some t ∧
      Monitor.housekeepingOp? .usual ⟨300, 0⟩ t = some op ∧
      StateOp.followAll Sample.ops (some t) = some u ∧ u.condition = .reserved ∧
      u.reservationDeadline = none ∧ (op.resolve (some u)).follow (some u) = none := by
  refine ⟨⟨_, _, _, ?_, rfl, rfl, rfl, rfl, rfl⟩,
    ⟨_, _, _, ⟨rfl, rfl, _, _, rfl⟩, rfl, rfl, rfl, rfl, rfl, rfl⟩⟩
  intro op hop
  simp only [Sample.retirement, List.mem_cons, List.not_mem_nil, or_false] at hop
  rcases hop with rfl | rfl | rfl
  · exact ⟨rfl, rfl, rfl⟩
  · exact ⟨rfl, trivial⟩
  · exact ⟨rfl, trivial⟩

end Placement
