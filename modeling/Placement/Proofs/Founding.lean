/-
New reservations are founded for missing instances only.

* `Round.Tried` names the moment of a round at which an operation was decided on: what was tried before it
  leads there. `Course.exists_tried` has one for every try of a course.
* `Tracker.reservedCount_le`: an instance that is reserved has a task that waits on its reservation, and it
  is by these tasks that decisions count.
* `Scheduler.founds_round` is the main result: whatever is known, queued and stored and whatever writes
  fail, a reservation is founded only while a launch is queued, and only if the placed instances and the
  reserved ones are fewer than the run spec asks for. The number of queued launches is no bound, as long as
  it is not zero (`Sample.second_founding`).
-/
import Placement.Proofs.Placed
import Placement.Proofs.Relaunch

namespace Placement

/-! ## Trackers and courses -/

namespace Books

theorem assembled_recordAll {b : Books} (h : b.tracker.Assembled) (limit : Span) (ops : List StateOp) :
    (b.recordAll limit ops).2.tracker.Assembled := by
  induction ops generalizing b with
  | nil => exact h
  | cons op rest ih =>
    have step : (b.process limit op).2.tracker.Assembled :=
      processWithin_induction (P := fun after => after.tracker.Assembled) h fun _ _ handled =>
        handled.tracker_induction (fun _ _ _ ht taken => ht.notify taken) h
    rw [recordAll_cons]
    split
    · exact step
    · exact ih step

end Books

namespace Round

variable {α : Type} [Amount α] {spec : RunSpec α} {specs : List (RunSpec α)} {r mid r' : Round α}
  {before tries : List (Try α)} {t : Try α}

theorem assembled_record {op : InstanceOp α} {done : Bool} {s : Scheduler α} {additional : Nat}
    (h : r.scheduler.books.tracker.Assembled)
    (decides : r.decideFor spec additional = .ok (some op, mid))
    (records : mid.scheduler.record op = (done, s)) : s.books.tracker.Assembled := by
  obtain ⟨-, rfl⟩ := Prod.mk.inj records
  have same := (decides_decideFor decides).books
  exact Books.assembled_recordAll (same ▸ h) _ _

theorem Course.assembled (course : Course specs r tries r') (h : r.scheduler.books.tracker.Assembled) :
    r'.scheduler.books.tracker.Assembled := by
  induction course with
  | finished r => exact h
  | passed rest ih => exact ih h
  | declined decides rest ih => exact ih ((decides_decideFor decides).books ▸ h)
  | dropped decides fails rest ih => exact ih (assembled_record h decides fails)
  | reserved decides records reserves rest ih =>
    have kept := assembled_record h decides records
    exact ih kept
  | launched decides records launches rest ih =>
    have kept := assembled_record h decides records
    exact ih kept

/-! ## The moment of a try -/

/-- Nothing needs to be tried. -/
theorem Course.refl (specs : List (RunSpec α)) (r : Round α) : Course specs r [] r := by
  induction specs with
  | nil => exact .finished r
  | cons spec specs ih => exact .passed ih

/-- The moment at which an operation was decided on for a run spec: what was tried before leads there from
the start, and the decision is taken and recorded there, or cannot be recorded. -/
structure Tried (specs : List (RunSpec α)) (start : Round α) (before : List (Try α)) (t : Try α)
    (spec : RunSpec α) (moment : Round α) : Prop where
  leads : Course specs start before moment
  queued : spec ∈ specs
  decides : ∃ mid s,
    moment.decideFor spec (moment.scheduler.queue.remaining spec.id) = .ok (some t.op, mid) ∧
      mid.scheduler.record t.op = (t.recorded, s)

/-- Of several tries, one that has a moment is the first of them or comes later. -/
theorem exists_tried_cons {first : Try α} {rest after : List (Try α)} {mid : Round α} {s : Scheduler α}
    (split : first :: rest = before ++ t :: after) (queued : spec ∈ specs)
    (decides : r.decideFor spec (r.scheduler.queue.remaining spec.id) = .ok (some first.op, mid))
    (records : mid.scheduler.record first.op = (first.recorded, s))
    (later : ∀ {before}, rest = before ++ t :: after →
      ∃ spec moment, Tried specs r (first :: before) t spec moment) :
    ∃ spec moment, Tried specs r before t spec moment := by
  cases before with
  | nil =>
    obtain ⟨rfl, -⟩ := List.cons.inj split
    exact ⟨spec, r, .refl specs r, queued, mid, s, decides, records⟩
  | cons _ before =>
    obtain ⟨rfl, split'⟩ := List.cons.inj split
    exact later split'

/-- Each try of a course has its moment. -/
theorem Course.exists_tried (course : Course specs r tries r') {after : List (Try α)}
    (split : tries = before ++ t :: after) : ∃ spec moment, Tried specs r before t spec moment := by
  induction course generalizing before with
  | finished r => simp at split
  | passed rest ih =>
    obtain ⟨spec, moment, tried⟩ := ih split
    exact ⟨spec, moment, .passed tried.leads, List.mem_cons_of_mem _ tried.queued, tried.decides⟩
  | declined decides rest ih =>
    obtain ⟨spec, moment, tried⟩ := ih split
    exact ⟨spec, moment, .declined decides tried.leads, List.mem_cons_of_mem _ tried.queued,
      tried.decides⟩
  | dropped decides fails rest ih =>
    refine exists_tried_cons split List.mem_cons_self decides fails fun split => ?_
    obtain ⟨spec, moment, tried⟩ := ih split
    exact ⟨spec, moment, .dropped decides fails tried.leads, List.mem_cons_of_mem _ tried.queued,
      tried.decides⟩
  | reserved decides records reserves rest ih =>
    refine exists_tried_cons split List.mem_cons_self decides records fun split => ?_
    obtain ⟨spec, moment, tried⟩ := ih split
    exact ⟨spec, moment, .reserved decides records reserves tried.leads,
      List.mem_cons_of_mem _ tried.queued, tried.decides⟩
  | launched decides records launches rest ih =>
    -- The run spec may be tried once more.
    refine exists_tried_cons split List.mem_cons_self decides records fun split => ?_
    obtain ⟨spec, moment, tried⟩ := ih split
    exact ⟨spec, moment, .launched decides records launches tried.leads, tried.queued, tried.decides⟩

end Round

/-! ## Reserved instances -/

namespace Tracker

/-- How many instances of a run spec are reserved. -/
def reservedCount (t : Tracker) (id : RunSpecId) : Nat :=
  (t.knownInstances id).countP (·.condition = .reserved)

/-- An instance that is reserved has a task that waits on its reservation. -/
theorem hasReservedTask_of_reserved {t : Tracker} (h : t.Assembled) {i : Instance}
    (hi : i ∈ t.snapshot) (reserved : i.condition = .reserved) : i.hasReservedTask = true := by
  obtain ⟨k, task, hk, condition⟩ := Instance.exists_condition (id_of_mem_snapshot h hi).2.derived
  refine List.any_eq_true.2 ⟨task, OrderedMap.mem_values.2 ⟨k, hk⟩, ?_⟩
  simp [Task.isReserved, condition, reserved]

theorem reservedCount_le {t : Tracker} (h : t.Assembled) (id : RunSpecId) :
    t.reservedCount id ≤ (t.knownInstances id).countP (·.hasReservedTask) := by
  refine List.countP_mono_left fun i hi reserved => ?_
  exact hasReservedTask_of_reserved h (List.mem_filter.1 hi).1 (of_decide_eq_true reserved)

end Tracker

variable {α : Type} [Amount α]

/-- A decision for a reservation counts the reserved instances as if they were placed. -/
theorem Decision.Reached.missing_of_reserves {policy : LaunchPolicy} {gpus : GpuPolicy}
    {spec : RunSpec α} {o : Offer α} {now : Timestamp} {ids ids' : IdSupply} {op : InstanceOp α}
    {t : Tracker} {known : List Instance} (assembled : t.Assembled) (perm : known.Perm t.snapshot)
    (h : Reached policy gpus spec o known now ids op ids') (reserves : op.isLaunch = false) :
    t.placedCount spec.id + t.reservedCount spec.id < spec.instances := by
  cases h with
  | launched m ephemeral found made =>
    obtain ⟨ts, launches⟩ := launches_of_made made
    rw [launches.isLaunch] at reserves
    cases reserves
  | relaunched => cases reserves
  | reserved m volumes deadline resident room found created timed =>
    have waiting := t.reservedCount_le assembled spec.id
    rw [Tracker.length_filter_of_perm perm, Tracker.length_filter_of_perm perm,
      ← List.countP_eq_length_filter, ← List.countP_eq_length_filter] at room
    exact Nat.lt_of_le_of_lt (Nat.add_le_add_left waiting _) room

/-- Each reservation that a round founds was decided on for a queued run spec, at a moment when a launch
of it was queued and the placed instances and the reserved ones were fewer than it asks for. So where
as many launches are queued as instances are missing, fewer are reserved than are queued. -/
theorem Scheduler.founds_round {s : Scheduler α} {o : Offer α} {r : Round α}
    (assembled : s.books.tracker.Assembled) (h : s.round o = .ok r) :
    ∃ tries, r.operations = Try.kept tries ∧
      Round.Course (s.queue.requests.map (·.runSpec)) ⟨.start o, s⟩ tries r ∧
      ∀ before t after, tries = before ++ t :: after → t.op.isLaunch = false →
        ∃ spec moment,
          Round.Tried (s.queue.requests.map (·.runSpec)) ⟨.start o, s⟩ before t spec moment ∧
          let tracker := moment.scheduler.books.tracker
          let queued := moment.scheduler.queue.remaining spec.id
          0 < queued ∧
          tracker.placedCount spec.id + tracker.reservedCount spec.id < spec.instances ∧
          (spec.instances ≤ tracker.placedCount spec.id + queued →
            tracker.reservedCount spec.id < queued) := by
  obtain ⟨tries, course⟩ := Round.course_serveAll h
  refine ⟨tries, course.operations.trans (List.nil_append _), course, ?_⟩
  intro before t after split reserves
  obtain ⟨spec, moment, tried⟩ := course.exists_tried split
  refine ⟨spec, moment, tried, ?_⟩
  obtain ⟨mid, s', decides, -⟩ := tried.decides
  have decided := Round.decides_decideFor decides
  have missing := (decided.reached rfl).missing_of_reserves (tried.leads.assembled assembled)
    moment.scheduler.perm_known reserves
  exact ⟨(decided.missing rfl).1, missing, fun enough => by omega⟩

/-! ## Two agents and one launch -/

namespace Sample

/-- Two instances are asked for. -/
def caches : RunSpec Rat := { Sample.cache with instances := 2 }

/-- Nothing is known yet, and one launch is queued. -/
def cachesScheduler : Scheduler Rat :=
  { Sample.scheduler with books := .empty, queue := LaunchQueue.empty.add caches 1 }

/-- The same resources on another agent. -/
def secondOffer : Offer Rat := { Sample.cacheOffer with id := ⟨.ofNat 6⟩, agentId := ⟨.ofNat 3⟩ }

/-- The rounds of two offers, one after the other. -/
def twoRounds : Except RoundFault (Round Rat × Round Rat) :=
  match cachesScheduler.round Sample.cacheOffer with
  | .error e => .error e
  | .ok r => (r.scheduler.round secondOffer).map fun r' => (r, r')

theorem exists_twoRounds : ∃ r r', twoRounds = .ok (r, r') ∧
    r.operations.map (·.isLaunch) = [false] ∧ r'.operations.map (·.isLaunch) = [false] ∧
    r.scheduler.books.tracker.reservedCount caches.id = 1 ∧
    r.scheduler.queue.remaining caches.id = 1 := by
  have seen : twoRounds.map (fun (r, r') =>
      (r.operations.map (·.isLaunch), r'.operations.map (·.isLaunch),
        r.scheduler.books.tracker.reservedCount caches.id,
        r.scheduler.queue.remaining caches.id)) = .ok ([false], [false], 1, 1) := by
    decide +kernel
  cases h : twoRounds with
  | error e =>
    rw [h] at seen
    cases seen
  | ok rounds =>
    rw [h] at seen
    have seen := Except.ok.inj seen
    simp only [Prod.mk.injEq] at seen
    exact ⟨rounds.1, rounds.2, rfl, seen⟩

theorem round_of_twoRounds {r r' : Round Rat} (h : twoRounds = .ok (r, r')) :
    cachesScheduler.round Sample.cacheOffer = .ok r ∧ r.scheduler.round secondOffer = .ok r' := by
  unfold twoRounds at h
  split at h
  · cases h
  · next first hfirst =>
    cases hsecond : first.scheduler.round secondOffer with
    | error e =>
      rw [hsecond] at h
      cases h
    | ok second =>
      rw [hsecond] at h
      obtain ⟨rfl, rfl⟩ := Prod.mk.inj (Except.ok.inj h)
      exact ⟨hfirst, hsecond⟩

/-- One instance is reserved and one launch is queued, and yet the next offer founds a second
reservation. -/
theorem second_founding : ∃ r r', cachesScheduler.round Sample.cacheOffer = .ok r ∧
    r.scheduler.round secondOffer = .ok r' ∧ r'.operations.map (·.isLaunch) = [false] ∧
    ¬ r.scheduler.books.tracker.reservedCount caches.id <
      r.scheduler.queue.remaining caches.id := by
  obtain ⟨r, r', rounds, -, founded, reserved, queued⟩ := exists_twoRounds
  obtain ⟨first, second⟩ := round_of_twoRounds rounds
  exact ⟨r, r', first, second, founded, by rw [reserved, queued]; decide⟩

end Sample

/-- The first of the two offers founds a reservation, while both instances are missing. -/
theorem founds_round_sample : Sample.cachesScheduler.books.tracker.Assembled ∧
    ∃ r, Sample.cachesScheduler.round Sample.cacheOffer = .ok r ∧
      r.operations.map (·.isLaunch) = [false] ∧
      ∃ tries, r.operations = Try.kept tries ∧
        ∀ before t after, tries = before ++ t :: after → t.op.isLaunch = false →
          ∃ spec moment, Round.Tried (Sample.cachesScheduler.queue.requests.map (·.runSpec))
              ⟨.start Sample.cacheOffer, Sample.cachesScheduler⟩ before t spec moment ∧
            0 < moment.scheduler.queue.remaining spec.id ∧
            moment.scheduler.books.tracker.placedCount spec.id +
              moment.scheduler.books.tracker.reservedCount spec.id < spec.instances := by
  have assembled : Sample.cachesScheduler.books.tracker.Assembled := Tracker.wellFormed_empty.assembled
  obtain ⟨r, r', rounds, founded, -⟩ := Sample.exists_twoRounds
  obtain ⟨first, -⟩ := Sample.round_of_twoRounds rounds
  obtain ⟨tries, collected, -, bounded⟩ := Scheduler.founds_round assembled first
  refine ⟨assembled, r, first, founded, tries, collected, fun before t after split reserves => ?_⟩
  obtain ⟨spec, moment, tried, queued, missing, -⟩ := bounded before t after split reserves
  exact ⟨spec, moment, tried, queued, missing⟩

end Placement
