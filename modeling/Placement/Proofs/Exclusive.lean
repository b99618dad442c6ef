/-
Host ports are exclusive on an agent, as long as no task comes back from being inactive.

A task is launched on ports that no active task of the agent holds. A task that is unreachable for long is
inactive and no longer active, so its ports are given away again; and a report can still make it active.
So two active tasks share a port only if one of them was inactive when the other one came up
(`Scheduler.Replaces`), and `Scheduler.exclusive_run` says that there is no other way.

The step is `Scheduler.Orderly.handle`, one case for each kind of event, and the runs follow by induction on
the last event.
-/
import Mathlib.Data.List.Induction
import Placement.Proofs.Occupancy
import Placement.Proofs.Round
import Placement.Scheduler.Events

namespace Placement

open Condition (isActive isInactive isOngoing)

/-! ## Rounds and events -/

namespace Scheduler

variable {α : Type} {s s' : Scheduler α} {last : IdSupply}

/-- The books keep their laws and no fault waits, the tasks of each instance are on one agent, and the
identifiers that are given until `last` are fresh. -/
structure Orderly (last : IdSupply) (s : Scheduler α) : Prop where
  sound : s.books.Sound
  faultless : s.books.repository.writeFaults = []
  located : s.books.tracker.Located
  fresh : s.ids.Fresh last s.books.tracker

theorem Orderly.of_ages (h : s.Orderly last) (sound : s'.books.Sound)
    (faultless : s'.books.repository.writeFaults = []) (ids : s'.ids = s.ids)
    (ages : s.books.tracker.Ages s'.books.tracker) : s'.Orderly last := by
  refine ⟨sound, faultless, ages.located h.located, ids ▸ fun n hn hlast => ?_, ids ▸ h.fresh.distinct⟩
  exact ages.find?_eq_none sound.assembled (h.fresh.unknown n hn hlast)

end Scheduler

namespace Round

variable {α : Type} [Amount α] {spec : RunSpec α} {specs : List (RunSpec α)} {additional : Nat}
  {r mid r' : Round α} {op : InstanceOp α} {op? : Option (InstanceOp α)} {done : Bool}
  {s : Scheduler α} {last : IdSupply} {tries : List (Try α)}

theorem Decides.orderly (decides : Decides spec additional r mid op?)
    (h : r.scheduler.Orderly last) : mid.scheduler.Orderly last := by
  refine ⟨?_, ?_, ?_, ?_⟩
  · rw [decides.books]
    exact h.sound
  · rw [decides.books]
    exact h.faultless
  · rw [decides.books]
    exact h.located
  · rw [decides.books]
    exact h.fresh.mono decides.keeps.ids

theorem Decides.places (decides : Decides spec additional r mid (some op))
    (h : r.scheduler.Orderly last) (given : mid.scheduler.ids.ulidsGiven ≤ last.ulidsGiven)
    (records : mid.scheduler.record op = (done, s)) : s.Orderly last ∧
      ∀ agent port, r.scheduler.books.tracker.Places agent port s.books.tracker := by
  have live : r.Live last := ⟨h.sound, h.fresh⟩
  have recorded := (live.recorded decides given records).1
  obtain ⟨located, places⟩ := (decides.reached rfl).places r.scheduler.perm_known h.sound
    h.faultless h.located (h.fresh.next given) mid.scheduler.storeTimeout
  have faultless : (r.scheduler.books.recordAll mid.scheduler.storeTimeout
      op.stateOps).2.repository.writeFaults = [] := Books.faultless_recordAll h.sound h.faultless
  obtain ⟨-, rfl⟩ := Prod.mk.inj records
  rw [← decides.books] at located places faultless
  exact ⟨⟨recorded.sound, faultless, located, recorded.fresh⟩, decides.books ▸ places⟩

/-- A round brings tasks up on ports of their own. -/
theorem Course.places (h : Course specs r tries r') (orderly : r.scheduler.Orderly last)
    (given : r'.scheduler.ids.ulidsGiven ≤ last.ulidsGiven) : r'.scheduler.Orderly last ∧
      ∀ agent port, r.scheduler.books.tracker.Places agent port r'.scheduler.books.tracker := by
  induction h with
  | finished r => exact ⟨orderly, fun _ _ => .refl _ _ _⟩
  | passed rest ih => exact ih orderly given
  | declined decides rest ih =>
    have decided := decides_decideFor decides
    rw [← decided.books]
    exact ih (decided.orderly orderly) given
  | dropped decides fails rest ih =>
    have decided := decides_decideFor decides
    obtain ⟨later, step⟩ := decided.places orderly
      (Nat.le_trans (rest.given fails rfl) given) fails
    obtain ⟨end_, others⟩ := ih later given
    exact ⟨end_, fun agent port => (step agent port).trans (others agent port)⟩
  | reserved decides records reserves rest ih =>
    have decided := decides_decideFor decides
    obtain ⟨later, step⟩ := decided.places orderly
      (Nat.le_trans (rest.given records rfl) given) records
    obtain ⟨end_, others⟩ := ih ⟨later.sound, later.faultless, later.located, later.fresh⟩ given
    exact ⟨end_, fun agent port => (step agent port).trans (others agent port)⟩
  | launched decides records launches rest ih =>
    have decided := decides_decideFor decides
    obtain ⟨later, step⟩ := decided.places orderly
      (Nat.le_trans (rest.given records rfl) given) records
    obtain ⟨end_, others⟩ := ih ⟨later.sound, later.faultless, later.located, later.fresh⟩ given
    exact ⟨end_, fun agent port => (step agent port).trans (others agent port)⟩

end Round

namespace Monitor

variable {m : MonitorSettings} {now : Timestamp}

theorem isPlacing_dueOp? {t : Task} {op : StateOp} (h : dueOp? m now t = some op) :
    op.isPlacing = false := by
  unfold dueOp? housekeepingOp? at h
  simp only at h
  repeat' split at h
  all_goals cases h <;> rfl

end Monitor

namespace Scheduler

variable {α : Type} [Amount α] {s s' : Scheduler α} {last : IdSupply} {event : Event α}

/-- The step, for each event: an offer brings tasks up, and with all else tasks age. -/
theorem Orderly.handle (h : s.Orderly last) (handled : s.handle event = .ok s')
    (given : s'.ids.ulidsGiven ≤ last.ulidsGiven) : s'.Orderly last ∧
      ((∃ o, event = .offer o ∧
        ∀ agent port, s.books.tracker.Places agent port s'.books.tracker) ∨
          s.books.tracker.Ages s'.books.tracker) := by
  cases event with
  | offer o =>
    rw [Scheduler.handle, processOffer] at handled
    cases hr : s.round o with
    | error e =>
      rw [hr] at handled
      cases handled
    | ok r =>
      rw [hr] at handled
      obtain rfl := Except.ok.inj handled
      obtain ⟨tries, course⟩ := Round.course_serveAll hr
      obtain ⟨orderly, places⟩ := course.places h given
      exact ⟨⟨orderly.sound, orderly.faultless, orderly.located, orderly.fresh⟩,
        .inl ⟨o, rfl, places⟩⟩
  | add runSpec count =>
    obtain rfl := Except.ok.inj handled
    exact ⟨⟨h.sound, h.faultless, h.located, h.fresh⟩, .inr (.refl _)⟩
  | remove id =>
    obtain rfl := Except.ok.inj handled
    exact ⟨⟨h.sound, h.faultless, h.located, h.fresh⟩, .inr (.refl _)⟩
  | clock now =>
    obtain rfl := Except.ok.inj handled
    exact ⟨⟨h.sound, h.faultless, h.located, h.fresh⟩, .inr (.refl _)⟩
  | report id report now =>
    obtain rfl := Except.ok.inj handled
    have ages : s.books.tracker.Ages
        (s.books.process s.storeTimeout (.report id report now)).2.tracker :=
      Books.ages_process h.sound h.faultless rfl
    exact ⟨h.of_ages (Books.frame_process h.sound _ _).2
      (Books.task?_process_faultless h.sound.assembled h.faultless _ _).1 rfl ages, .inr ages⟩
  | scan settings now =>
    obtain rfl := Except.ok.inj handled
    have passive : ∀ op ∈ (s.known.flatMap (·.tasks.values)).filterMap
        (Monitor.dueOp? settings now), op.isPlacing = false := by
      intro op hop
      obtain ⟨t, -, due⟩ := List.mem_filterMap.1 hop
      exact Monitor.isPlacing_dueOp? due
    obtain ⟨sound, faultless, ages⟩ :=
      Books.ages_processAll s.storeTimeout h.sound h.faultless passive
    exact ⟨h.of_ages sound faultless rfl ages, .inr ages⟩

theorem given_handle (handled : s.handle event = .ok s') :
    s.ids.ulidsGiven ≤ s'.ids.ulidsGiven := by
  cases event with
  | offer o =>
    rw [Scheduler.handle, processOffer] at handled
    cases hr : s.round o with
    | error e =>
      rw [hr] at handled
      cases handled
    | ok r =>
      rw [hr] at handled
      obtain rfl := Except.ok.inj handled
      obtain ⟨tries, course⟩ := Round.course_serveAll hr
      exact course.keeps.ids.ulidsGiven
  | _ =>
    obtain rfl := Except.ok.inj handled
    exact Nat.le_refl _

/-! ## Runs -/

variable {events : List (Event α)}

theorem run_append_singleton :
    s.run (events ++ [event]) = .ok s' ↔ ∃ mid, s.run events = .ok mid ∧ mid.handle event = .ok s' := by
  induction events generalizing s with
  | nil =>
    simp only [List.nil_append, run]
    cases h : s.handle event with
    | error e => simp [h]
    | ok s₁ => simp [h]
  | cons first rest ih =>
    rw [List.cons_append, run, run]
    cases s.handle first with
    | error e => simp
    | ok s₁ => exact ih

/-- On a run an offer brought one task up on a port with which another was inactive. -/
inductive Replaces (s : Scheduler α) (agent : AgentId) (port : Port) (old new : TaskId) :
    List (Event α) → Prop where
  | at_ {before after : List (Event α)} {o : Offer α} {mid next : Scheduler α}
      (reached : s.run before = .ok mid) (handled : mid.handle (.offer o) = .ok next)
      (inactive : mid.books.tracker.Holds isInactive agent port old)
      (absent : ¬ mid.books.tracker.Holds isActive agent port new)
      (active : next.books.tracker.Holds isActive agent port new) :
      Replaces s agent port old new (before ++ .offer o :: after)

variable {agent : AgentId} {port : Port} {a b : TaskId}

theorem Replaces.append (h : s.Replaces agent port a b events) (more : List (Event α)) :
    s.Replaces agent port a b (events ++ more) := by
  cases h with
  | at_ reached handled inactive absent active =>
    rw [List.append_assoc, List.cons_append]
    exact .at_ reached handled inactive absent active

/-- Of two tasks that have a port of which one had not before the offer, one was inactive. -/
theorem replaces_of_places {mid : Scheduler α} {o : Offer α} (reached : s.run events = .ok mid)
    (handled : mid.handle (.offer o) = .ok s')
    (places : mid.books.tracker.Places agent port s'.books.tracker) (different : a ≠ b)
    (ha : s'.books.tracker.Holds isOngoing agent port a)
    (hb : s'.books.tracker.Holds isOngoing agent port b)
    (new : ¬ mid.books.tracker.Holds isOngoing agent port b) :
    s.Replaces agent port a b (events ++ [.offer o]) := by
  rcases places.placed b hb with before | ⟨active, alone⟩
  · exact absurd before new
  · refine .at_ reached handled ?_ (fun h => new (Tracker.holds_ongoing_iff.2 (.inl h))) active
    rcases places.placed a ha with before | ⟨active', -⟩
    · rcases Tracker.holds_ongoing_iff.1 before with earlier | inactive
      · exact absurd (places.active a earlier) (alone a different)
      · exact inactive
    · exact absurd active' (alone a different)

theorem Orderly.run (start : s.Orderly last) (h : s.run events = .ok s')
    (given : s'.ids.ulidsGiven ≤ last.ulidsGiven) : s'.Orderly last := by
  induction events using List.reverseRecOn generalizing s' with
  | nil => exact Except.ok.inj h ▸ start
  | append_singleton events event ih =>
    obtain ⟨mid, reached, handled⟩ := run_append_singleton.1 h
    have orderly := ih reached (Nat.le_trans (given_handle handled) given)
    exact (orderly.handle handled given).1

/-- Tasks that run have a port in common only if one of them came up while the other was inactive. -/
theorem replaces_of_ongoing (start : s.Orderly last) (empty : s.books.tracker = .empty)
    (h : s.run events = .ok s') (given : s'.ids.ulidsGiven ≤ last.ulidsGiven) (different : a ≠ b)
    (ha : s'.books.tracker.Holds isOngoing agent port a)
    (hb : s'.books.tracker.Holds isOngoing agent port b) :
    s.Replaces agent port a b events ∨ s.Replaces agent port b a events := by
  induction events using List.reverseRecOn generalizing s' with
  | nil =>
    obtain rfl := Except.ok.inj h
    obtain ⟨u, known, -⟩ := ha
    rw [empty] at known
    simp [Tracker.task?, Tracker.empty] at known
  | append_singleton events event ih =>
    obtain ⟨mid, reached, handled⟩ := run_append_singleton.1 h
    have given' := Nat.le_trans (given_handle handled) given
    have earlier : mid.books.tracker.Holds isOngoing agent port a →
        mid.books.tracker.Holds isOngoing agent port b →
        s.Replaces agent port a b (events ++ [event]) ∨
          s.Replaces agent port b a (events ++ [event]) :=
      fun ha hb => (ih reached given' ha hb).imp (·.append _) (·.append _)
    rcases ((start.run reached given').handle handled given).2 with ⟨o, rfl, places⟩ | ages
    · by_cases hb' : mid.books.tracker.Holds isOngoing agent port b
      · by_cases ha' : mid.books.tracker.Holds isOngoing agent port a
        · exact earlier ha' hb'
        · exact .inr (replaces_of_places reached handled (places agent port) different.symm hb ha ha')
      · exact .inl (replaces_of_places reached handled (places agent port) different ha hb hb')
    · exact earlier (ages.holds ha) (ages.holds hb)

/-- On every run from an empty tracker, with all kinds of events in any order, no host port of an agent is
held by two different active tasks, unless one of them was inactive with it when an offer brought the
other one up. The store answers without faults, and the identifiers that are given are different. -/
theorem exclusive_run (sound : s.books.Sound) (faultless : s.books.repository.writeFaults = [])
    (empty : s.books.tracker = .empty) (h : s.run events = .ok s')
    (fresh : s.ids.Fresh s'.ids s.books.tracker) (different : a ≠ b)
    (ha : s'.books.tracker.Holds isActive agent port a)
    (hb : s'.books.tracker.Holds isActive agent port b) :
    s.Replaces agent port a b events ∨ s.Replaces agent port b a events := by
  have unknown : ∀ k, s.books.tracker.instances.find? k = none := by
    rw [empty]
    exact fun _ => OrderedMap.find?_empty _
  have located : s.books.tracker.Located :=
    fun k => ⟨⟨⟨.ofNat 0⟩, "", ∅⟩, Tracker.locatedAt_of_unknown (unknown k) _⟩
  exact replaces_of_ongoing ⟨sound, faultless, located, fresh⟩ empty h (Nat.le_refl _) different
    (Tracker.holds_ongoing_iff.2 (.inl ha)) (Tracker.holds_ongoing_iff.2 (.inl hb))

end Scheduler

/-! ## A port that two tasks share -/

/-- A scheduler that knows nothing and has nothing to do. -/
def Sample.idle : Scheduler Rat := { Sample.scheduler with books := .empty, queue := .empty }

/-- A run spec that needs one port of its host. -/
def Sample.pinned (id : RunSpecId) : RunSpec Rat := Sample.runSpec id [.ofHostPort (.fixed 31000)] []

/-- The task of an instance with the `n`-th identifier. -/
def Sample.taskId (id : RunSpecId) (n : Nat) : TaskId :=
  .forInstance id ⟨IdSupply.numberedUlid ⟨5, 0⟩ n⟩

theorem Sample.first_valid : pathError? "/first".toList = none := by decide

def Sample.first : TaskId := Sample.taskId ⟨"/first", Sample.first_valid⟩ 1

def Sample.second : TaskId := Sample.taskId ⟨"/second", by decide⟩ 2

/-- The first task is lost from sight until it is inactive. The second is launched on its port, and then
the first is seen again. -/
def Sample.events : List (Event Rat) :=
  [.add (Sample.pinned Sample.first.runSpecId) 1, .offer Sample.offer,
    .report Sample.first (.ofState .unreachable ⟨1, 0⟩) ⟨1, 0⟩, .scan .usual ⟨301, 0⟩,
    .add (Sample.pinned Sample.second.runSpecId) 1, .offer Sample.offer,
    .report Sample.first (.ofState .running ⟨302, 0⟩) ⟨302, 0⟩]

theorem Sample.run_events : ∃ s', Sample.idle.run Sample.events = .ok s' ∧
    Sample.idle.ids.Fresh s'.ids Sample.idle.books.tracker ∧
    s'.books.tracker.Holds isActive Sample.offer.agentId 31000 Sample.first ∧
    s'.books.tracker.Holds isActive Sample.offer.agentId 31000 Sample.second := by
  have outcome : (Sample.idle.run Sample.events).map (fun s' =>
      (decide (Sample.idle.ids.Fresh s'.ids Sample.idle.books.tracker),
        decide (s'.books.tracker.Holds isActive Sample.offer.agentId 31000 Sample.first),
        decide (s'.books.tracker.Holds isActive Sample.offer.agentId 31000 Sample.second))) =
      .ok (true, true, true) := by
    decide +kernel
  cases reached : Sample.idle.run Sample.events with
  | error e =>
    rw [reached] at outcome
    cases outcome
  | ok s' =>
    rw [reached] at outcome
    obtain ⟨fresh, holds⟩ := Prod.mk.inj (Except.ok.inj outcome)
    obtain ⟨first, second⟩ := Prod.mk.inj holds
    exact ⟨s', rfl, of_decide_eq_true fresh, of_decide_eq_true first, of_decide_eq_true second⟩

/-- From an empty tracker and without a fault, a run comes to two active tasks on one agent that have a
host port in common. -/
theorem Sample.shared_port : Sample.idle.books.tracker = .empty ∧
    Sample.idle.books.repository.writeFaults = [] ∧ Sample.first ≠ Sample.second ∧
    ∃ s', Sample.idle.run Sample.events = .ok s' ∧
      s'.books.tracker.Holds isActive Sample.offer.agentId 31000 Sample.first ∧
      s'.books.tracker.Holds isActive Sample.offer.agentId 31000 Sample.second := by
  obtain ⟨s', reached, -, first, second⟩ := Sample.run_events
  exact ⟨rfl, rfl, by decide +kernel, s', reached, first, second⟩

/-- On that run an offer brought one of the two up while the other was inactive. -/
theorem exclusive_run_sample : Sample.idle.books.Sound ∧
    Sample.idle.books.repository.writeFaults = [] ∧ Sample.idle.books.tracker = .empty ∧
    Sample.first ≠ Sample.second ∧ ∃ s', Sample.idle.run Sample.events = .ok s' ∧
      Sample.idle.ids.Fresh s'.ids Sample.idle.books.tracker ∧
      s'.books.tracker.Holds isActive Sample.offer.agentId 31000 Sample.first ∧
      s'.books.tracker.Holds isActive Sample.offer.agentId 31000 Sample.second ∧
      (Sample.idle.Replaces Sample.offer.agentId 31000 Sample.first Sample.second Sample.events ∨
        Sample.idle.Replaces Sample.offer.agentId 31000 Sample.second Sample.first
          Sample.events) := by
  have different : Sample.first ≠ Sample.second := by decide +kernel
  obtain ⟨s', reached, fresh, first, second⟩ := Sample.run_events
  exact ⟨Books.sound_empty, rfl, rfl, different, s', reached, fresh, first, second,
    Scheduler.exclusive_run Books.sound_empty rfl rfl reached fresh different first second⟩

end Placement
