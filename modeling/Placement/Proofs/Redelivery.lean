/-
A report that is delivered again changes nothing.

* `StateOp.Settled` lists the states of a task in which a report is no news. They depend on what is
  reported, not on when it is.
* `StateOp.settled_follow`: a report leads to such a state from any other, whether it moves the task, puts
  it back on its reservation, makes it forgotten or is refused. `StateOp.idle_of_settled`: there, the same
  report is refused or gives no change.
* `StateOp.absorbs_report` is the main result: however often a report is delivered again, and at whatever
  times, the task is as it was after the first delivery, and nothing is written.
-/
import Placement.Processor
import Placement.Proofs.Lifecycle

namespace Placement.StateOp

/-- A report is no news in this state of a task: the task is not known, has come to its end or waits on its
reservation, is in the condition and the health that are reported, or is known to be unreachable for
long. -/
inductive Settled (r : StatusReport) : Option Task → Prop where
  | unknown : Settled r none
  | ended {t : Task} (terminal : t.condition.isTerminal = true) : Settled r (some t)
  | waits {t : Task} (waits : t.condition = .reserved) : Settled r (some t)
  | reported {t : Task} (condition : r.state.condition = t.condition)
      (health : r.healthy = t.status.healthy) : Settled r (some t)
  | inactive {t : Task} (condition : t.condition = .unreachableInactive)
      (lost : r.state.condition = .unreachable) : Settled r (some t)

/-- The replies to a report that is no news, for the task of an id in a given state. -/
inductive Idle (id : TaskId) : Option Task → Change → Prop where
  | unknown : Idle id none (.failure (.unknownTask id .report))
  | ended {t : Task} (terminal : t.condition.isTerminal = true) :
      Idle id (some t) (.failure (.terminalTask id t.condition .report))
  | noNews {t : Task} (live : t.condition.isTerminal = false) : Idle id (some t) (.noChange t.id)

variable {id : TaskId} {r : StatusReport} {current : Option Task} {change : Change}

theorem Idle.follow (h : Idle id current change) : change.follow current = current := by
  cases h <;> rfl

theorem Idle.notify (h : Idle id current change) (t : Tracker) : t.notify change = .ok t := by
  cases h <;> rfl

theorem Idle.persist (h : Idle id current change) (limit : Span) (b : Books) :
    (b.persist limit id change).2 = b := by
  cases h <;> rfl

/-- A report leads to a state in which it is no news. -/
theorem settled_follow (id : TaskId) (r : StatusReport) (now : Timestamp) (current : Option Task) :
    Settled r (((report id r now).resolve current).follow current) := by
  cases current with
  | none => exact .unknown
  | some t =>
    simp only [resolve]
    split
    · next terminal => exact .ended terminal
    · show Settled r ((applyReport t r now).follow (some t))
      unfold applyReport
      simp only
      split
      · next waits => exact .waits waits
      · split
        · next same => exact .reported same.1 same.2
        · split
          · next away => exact .inactive away.1 away.2
          · split
            · -- The task has ended; its reservation is kept.
              exact .waits rfl
            · split
              · exact .unknown
              · exact .reported rfl rfl

/-- In such a state the report is refused, or gives no change. -/
theorem idle_of_settled (h : Settled r current) (id : TaskId) (now : Timestamp) :
    Idle id current ((report id r now).resolve current) := by
  cases current with
  | none => exact .unknown
  | some t =>
    simp only [resolve]
    split
    · next terminal => exact .ended terminal
    · next live =>
      have quiet : applyReport t r now = .noChange t.id := by
        unfold applyReport
        cases h with
        | ended terminal => exact absurd terminal live
        | waits waits => simp [waits]
        | reported condition health => simp [condition, health]
        | inactive condition lost => simp [condition, lost]
      show Idle id (some t) (applyReport t r now)
      rw [quiet]
      exact .noNews (Bool.eq_false_iff.2 live)

/-- Deliveries of a report in such a state leave the task as it is. -/
theorem followAll_of_settled (h : Settled r current) (id : TaskId) (times : List Timestamp) :
    followAll (times.map (report id r)) current = current := by
  induction times with
  | nil => rfl
  | cons now rest ih =>
    have same := (idle_of_settled h id now).follow
    rw [List.map_cons, followAll, List.foldl_cons, same]
    exact ih

/-- A processor that gets a report in such a state writes nothing. -/
theorem books_of_settled {b : Books} (h : Settled r (b.tracker.task? id)) (limit : Span)
    (now : Timestamp) : (b.process limit (report id r now)).2 = b := by
  have idle := idle_of_settled h id now
  unfold Books.process Books.processWithin
  split
  · rfl
  · rw [if_neg (Int.lt_irrefl 0), Books.apply]
    simp only [taskId, idle.notify]
    exact idle.persist limit b

/-- Whatever state a task is in, a report that has been delivered once changes it no more: each further
delivery is refused or gives no change, the task is as it was after the first, and a processor that knows
it like this writes nothing. -/
theorem absorbs_report (id : TaskId) (r : StatusReport) (first : Timestamp) (later : List Timestamp)
    (current : Option Task) :
    let once := ((report id r first).resolve current).follow current
    (∀ now, Idle id once ((report id r now).resolve once)) ∧
      followAll ((first :: later).map (report id r)) current = once ∧
      ∀ (b : Books) limit now, b.tracker.task? id = once →
        (b.process limit (report id r now)).2 = b := by
  intro once
  have settled : Settled r once := settled_follow id r first current
  refine ⟨idle_of_settled settled id, followAll_of_settled settled id later, ?_⟩
  intro b limit now known
  exact books_of_settled (known ▸ settled) limit now

end Placement.StateOp

namespace Placement

/-- A task that runs on its reservation. -/
def Sample.runningTask : Task :=
  { Sample.waitingTask with
    status := .fresh .running ⟨1, 0⟩
    hostPorts := [8080]
    reservation := some ⟨[Sample.volume], .launched⟩ }

/-- The report that it has failed. -/
def Sample.failure : StatusReport := .ofState .failed ⟨2, 0⟩

/-- The task fails, which is reported three times. It waits again after the first report, since then, and
the others do not change that; a processor that knows this writes nothing. -/
theorem absorbs_report_sample : ∃ u,
    StateOp.followAll [.report Sample.runningTask.id Sample.failure ⟨2, 0⟩]
        (some Sample.runningTask) = some u ∧
      u.condition = .reserved ∧ u.status.since = ⟨2, 0⟩ ∧
      StateOp.followAll (([⟨2, 0⟩, ⟨3, 0⟩, ⟨5, 0⟩] : List Timestamp).map
        (.report Sample.runningTask.id Sample.failure)) (some Sample.runningTask) = some u ∧
      (Books.process (.ofSeconds 5) (.report Sample.runningTask.id Sample.failure ⟨3, 0⟩)
        { Books.empty with tracker := .ofTasks [u] }).2 =
          { Books.empty with tracker := .ofTasks [u] } := by
  obtain ⟨-, same, written⟩ := StateOp.absorbs_report Sample.runningTask.id Sample.failure
    ⟨2, 0⟩ [⟨3, 0⟩, ⟨5, 0⟩] (some Sample.runningTask)
  exact ⟨_, rfl, rfl, rfl, same, written _ _ _ (by decide +kernel)⟩

end Placement
