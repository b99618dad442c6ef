/-
How long a task has been out of sight.

A task is out of sight when it is unreachable, and still when it is inactive after that. The time since which
it is in its condition is kept on the way from the one to the other, and by all reports that change nothing:
so it is the time of the report that lost the task (`StateOp.LostSince`).

* `Task.outOfSight_of_resolve` says what an op did that leaves a task out of sight: it lost the task just now, or
  the task was out of sight before and its time is kept.
* `StateOp.lostSince_followAll` is the induction, on the last op of a run.
* `Monitor.lost_for_expunge` is the main result. The monitor gives up an inactive task only when it has been
  out of sight for as long as its strategy says.
-/
import Mathlib.Data.List.Induction
import Placement.Proofs.Outdated
import Placement.Proofs.Round

namespace Placement

/-! ## Out of sight -/

/-- The task is unreachable, for a short or a long time. -/
def Task.IsOutOfSight (t : Task) : Prop :=
  t.condition = .unreachable ∨ t.condition = .unreachableInactive

namespace StateOp

/-- A launch makes a created task, and a reservation a reserved one; other ops are arbitrary. -/
def IsLabelled : StateOp → Prop
  | launchEphemeral t => t.condition = .created
  | reserve t => t.condition = .reserved
  | launchOnReservation _ _ status _ => status.condition = .created
  | _ => True

/-- On a run from nothing a report at this time made the task unreachable, which was known and in sight
before, and ever since the task has been known and out of sight. -/
inductive LostSince (since : Timestamp) : List StateOp → Prop where
  | at_ {before after : List StateOp} {id : TaskId} {r : StatusReport} {seen lost : Task}
      (known : followAll before none = some seen) (inSight : ¬seen.IsOutOfSight)
      (reported : followAll (before ++ [.report id r since]) none = some lost)
      (unreachable : lost.condition = .unreachable)
      (ever : ∀ part, part <+: after → ∃ u,
        followAll (before ++ .report id r since :: part) none = some u ∧ u.IsOutOfSight) :
      LostSince since (before ++ .report id r since :: after)

variable {ops : List StateOp} {op : StateOp} {since : Timestamp} {t : Task}

theorem followAll_concat (ops : List StateOp) (op : StateOp) (current : Option Task) :
    followAll (ops ++ [op]) current =
      (op.resolve (followAll ops current)).follow (followAll ops current) :=
  followAll_append ops [op] current

/-- A task that is still out of sight has been so since the same time. -/
theorem LostSince.concat (h : LostSince since ops) (known : followAll (ops ++ [op]) none = some t)
    (away : t.IsOutOfSight) : LostSince since (ops ++ [op]) := by
  cases h with
  | at_ seen inSight reported unreachable ever =>
    rw [List.append_assoc, List.cons_append] at known ⊢
    refine .at_ seen inSight reported unreachable fun part hpart => ?_
    rcases List.prefix_concat_iff.1 hpart with rfl | hpart
    · exact ⟨t, known, away⟩
    · exact ever part hpart

end StateOp

namespace Task

variable {t u : Task} {op : StateOp}

/-- A report of a task as unreachable does nothing once it is inactive. -/
theorem follow_report_of_inactive (inactive : t.condition = .unreachableInactive) {id : TaskId}
    {r : StatusReport} {now : Timestamp} (lost : r.state.condition = .unreachable) :
    ((StateOp.report id r now).resolve (some t)).follow (some t) = some t := by
  simp [StateOp.resolve, StateOp.resolveLive, StateOp.applyReport, inactive, lost,
    Condition.isTerminal, Change.follow]

/-- No report is one of an inactive task. -/
theorem condition_report_ne_inactive (s : ReportedState) : s.condition ≠ .unreachableInactive := by
  cases s <;> decide

/-- An op that leaves a task out of sight keeps the time since which it is so, or makes it unreachable by a
report at that time. -/
theorem outOfSight_of_resolve (labelled : op.IsLabelled)
    (h : (op.resolve (some t)).follow (some t) = some u) (away : u.IsOutOfSight) :
    (t.IsOutOfSight ∧ u.status.since = t.status.since) ∨
      (¬t.IsOutOfSight ∧ u.condition = .unreachable ∧
        ∃ id r, op = .report id r u.status.since) := by
  have step := step_resolve t op
  rw [h] at step
  cases step with
  | kept => exact .inl ⟨away, rfl⟩
  | launched id version status hostPorts waits =>
    have created : status.condition = .created := labelled
    simp [IsOutOfSight, condition, created] at away
  | suspended id r now reservation runs live holds ends =>
    simp [IsOutOfSight, condition] at away
  | moved id r now runs live stays =>
    have lost : r.state.condition = .unreachable :=
      away.resolve_right (condition_report_ne_inactive r.state)
    by_cases same : t.condition = .unreachable
    · exact .inl ⟨.inl same, by simp [lost, same]⟩
    · by_cases inactive : t.condition = .unreachableInactive
      -- The step alone would let the task become unreachable again, with a new time.
      · have stays : ((StateOp.report id r now).resolve (some t)).follow (some t) = some t :=
          follow_report_of_inactive inactive lost
        rw [h] at stays
        exact .inl ⟨.inr inactive, congrArg (·.status.since) (Option.some.inj stays)⟩
      · refine .inr ⟨not_or.2 ⟨same, inactive⟩, lost, id, r, ?_⟩
        simp [lost, Ne.symm same]
  | inactive id unreachable => exact .inl ⟨.inl unreachable, rfl⟩

end Task

namespace StateOp

variable {ops : List StateOp} {t : Task}

/-- A task that an op makes is in sight. -/
theorem inSight_of_resolve_none {op : StateOp} (labelled : op.IsLabelled)
    (h : (op.resolve none).follow none = some t) : ¬t.IsOutOfSight := by
  cases op with
  | launchEphemeral new =>
    obtain rfl : new = t := Option.some.inj h
    have created : new.condition = .created := labelled
    simp [Task.IsOutOfSight, created]
  | reserve new =>
    obtain rfl : new = t := Option.some.inj h
    have reserved : new.condition = .reserved := labelled
    simp [Task.IsOutOfSight, reserved]
  | _ => exact absurd h (by simp [resolve, Change.follow])

/-- A task that is out of sight has been so since the time that it says. -/
theorem lostSince_followAll (labelled : ∀ op ∈ ops, op.IsLabelled)
    (known : followAll ops none = some t) (away : t.IsOutOfSight) :
    LostSince t.status.since ops := by
  induction ops using List.reverseRecOn generalizing t with
  | nil => cases known
  | append_singleton ops op ih =>
    obtain ⟨earlier, last⟩ := List.forall_mem_append.1 labelled
    have last : op.IsLabelled := last op (List.mem_singleton.2 rfl)
    have step := known
    rw [followAll_concat] at step
    cases before : followAll ops none with
    | none =>
      rw [before] at step
      exact absurd away (inSight_of_resolve_none last step)
    | some v =>
      rw [before] at step
      rcases Task.outOfSight_of_resolve last step away with
        ⟨away', since⟩ | ⟨inSight, unreachable, id, r, rfl⟩
      · rw [since]
        exact (ih earlier before away').concat known away
      -- The run ends with the report that lost the task.
      · refine .at_ before inSight known unreachable fun part hpart => ?_
        obtain rfl := List.prefix_nil.1 hpart
        exact ⟨t, known, away⟩

end StateOp

/-! ## When the monitor gives up a task -/

namespace Timestamp

/-- Nanoseconds since 1970, leap seconds apart. -/
def nanosSince1970 (t : Timestamp) : Int := t.seconds * 1000000000 + t.nanos

/-- Outside of leap seconds, what has passed from one moment to a later one is the difference of the two. -/
theorem elapsed_eq {a b : Timestamp} (ha : a.nanos < 1000000000) (hb : b.nanos < 1000000000)
    (order : a.atMost b = true) : (elapsed a b : Int) = b.nanosSince1970 - a.nanosSince1970 := by
  have between : nanosBetween a b = b.nanosSince1970 - a.nanosSince1970 := by
    simp only [nanosBetween, if_neg (Nat.not_le.2 ha), if_neg (Nat.not_le.2 hb), ite_self,
      nanosSince1970]
    omega
  rw [elapsed, between]
  simp only [atMost, Bool.or_eq_true, Bool.and_eq_true, decide_eq_true_eq, beq_iff_eq] at order
  simp only [nanosSince1970]
  omega

end Timestamp

namespace Monitor

variable {id : TaskId} {ops : List StateOp} {t : Task}

/-- A task that is out of sight came out of sight by a report, at the time since which it is in its
condition, and has been so without a break. So a scan, in whatever order it finds the instances, asks to
forget an inactive task only when the time its strategy grants has passed since that report. -/
theorem lost_for_expunge (labelled : ∀ op ∈ ops, op.taskId = id ∧ op.IsLabelled)
    (known : StateOp.followAll ops none = some t) (away : t.IsOutOfSight) :
    StateOp.LostSince t.status.since ops ∧
      ∀ (α : Type) (s after : Scheduler α) (m : MonitorSettings) (now : Timestamp) (r : ScanReport),
        s.books.tracker.Assembled → s.books.tracker.task? id = some t →
        t.condition = .unreachableInactive → t.status.since.atMost now = true →
        Scans m now s r after → .forceExpunge id ∈ r.replies.map Prod.fst →
        t.unreachableStrategy.expungeAfter.nanos ≤ Timestamp.elapsed t.status.since now ∧
          (t.status.since.nanos < 1000000000 → now.nanos < 1000000000 →
            t.status.since.nanosSince1970 + t.unreachableStrategy.expungeAfter.nanos ≤
              now.nanosSince1970) := by
  refine ⟨StateOp.lostSince_followAll (fun op hop => (labelled op hop).2) known away, ?_⟩
  intro α s after m now r assembled tracked inactive order scans member
  obtain ⟨u, hu, due⟩ := scans.due assembled member
  obtain rfl := Option.some.inj (tracked.symm.trans hu)
  have due := due_of_dueOp? due
  have past : t.unreachableStrategy.expungeAfter.nanos ≤ Timestamp.elapsed t.status.since now := by
    generalize hop : StateOp.forceExpunge id = op at due
    cases due with
    | lapsed => cases hop
    | ended terminal =>
      rw [inactive] at terminal
      cases terminal
    | unreachable => cases hop
    | inactive free condition past => exact past
  refine ⟨past, fun hsince hnow => ?_⟩
  have difference := Timestamp.elapsed_eq hsince hnow order
  omega

end Monitor

/-! ## A task that does not come back -/

/-- The task is lost a second after its launch. Reports of its health and of its loss follow, and before the
last of them it becomes inactive. -/
def Sample.absence : List StateOp :=
  [.launchEphemeral Sample.launchedTask,
    .report Sample.launchedTask.id (.ofState .unreachable ⟨1, 0⟩) ⟨1, 0⟩,
    .report Sample.launchedTask.id ⟨.lost, some false, none, ⟨2, 0⟩⟩ ⟨2, 0⟩,
    .markUnreachableInactive Sample.launchedTask.id,
    .report Sample.launchedTask.id ⟨.unreachable, some true, none, ⟨400, 0⟩⟩ ⟨400, 0⟩]

/-- A scheduler that has seen all that. -/
def Sample.searcher : Scheduler Rat :=
  { Sample.scheduler with books := (Books.empty.processAll Sample.limit Sample.absence).2 }

/-- Ten minutes after its loss the task is given up. -/
theorem lost_for_expunge_sample :
    (∀ op ∈ Sample.absence, op.taskId = Sample.launchedTask.id ∧ op.IsLabelled) ∧
    ∃ t, StateOp.followAll Sample.absence none = some t ∧ t.IsOutOfSight ∧
      StateOp.LostSince ⟨1, 0⟩ Sample.absence ∧
      .forceExpunge Sample.launchedTask.id ∈
        (Monitor.scan .usual ⟨601, 0⟩ Sample.searcher).1.replies.map Prod.fst ∧
      t.status.since.nanosSince1970 + t.unreachableStrategy.expungeAfter.nanos ≤
        Timestamp.nanosSince1970 ⟨601, 0⟩ := by
  have labelled : ∀ op ∈ Sample.absence, op.taskId = Sample.launchedTask.id ∧ op.IsLabelled := by
    intro op hop
    simp only [Sample.absence, List.mem_cons, List.not_mem_nil, or_false] at hop
    rcases hop with rfl | rfl | rfl | rfl | rfl
    · exact ⟨rfl, rfl⟩
    all_goals exact ⟨rfl, trivial⟩
  obtain ⟨t, known, inactive, since, tracked⟩ : ∃ t, StateOp.followAll Sample.absence none = some t ∧
      t.condition = .unreachableInactive ∧ t.status.since = ⟨1, 0⟩ ∧
      Sample.searcher.books.tracker.task? Sample.launchedTask.id = some t := by
    refine ⟨_, rfl, rfl, rfl, ?_⟩
    decide +kernel
  have asked : .forceExpunge Sample.launchedTask.id ∈
      (Monitor.scan .usual ⟨601, 0⟩ Sample.searcher).1.replies.map Prod.fst := by
    decide +kernel
  have assembled : Sample.searcher.books.tracker.Assembled :=
    (Books.sound_processAll Books.sound_empty Sample.limit Sample.absence).assembled
  obtain ⟨lost, given⟩ := Monitor.lost_for_expunge labelled known (.inr inactive)
  have past := given Rat Sample.searcher _ .usual ⟨601, 0⟩ _ assembled tracked inactive
    (by rw [since]; rfl) Monitor.scans_scan asked
  refine ⟨labelled, t, known, .inr inactive, since ▸ lost, asked, past.2 ?_ (by decide)⟩
  rw [since]
  decide

end Placement
