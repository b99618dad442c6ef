/-
The course of a round: which operations were decided on, one after another, and which of them were
recorded.

* `Round.Course` is the relation, with one rule for each way a try can end. `course_serveAll` has it
  of every round that returns, and statements about rounds go by induction on it.
* `Round.Decides` says what a decision within a round reads and changes.
* `Course.operations` says that a round collects the operations that were recorded, in order, and
  `Course.keeps` that it leaves alone the agent, the manager and the settings.
* `isOk_serveAll` says that a round returns if the deadline of a new reservation lies in the
  calendar.
-/
import Placement.Proofs.Reached
import Placement.Scheduler

namespace Placement

/-- In whatever order the instances are listed, as many of a run spec pass a test. -/
theorem Tracker.length_filter_of_perm {t : Tracker} {known : List Instance}
    (perm : known.Perm t.snapshot) (id : RunSpecId) (p : Instance → Bool) :
    ((known.filter fun i => i.runSpecId == id).filter p).length =
      ((t.knownInstances id).filter p).length :=
  ((perm.filter _).filter _).length_eq

/-- An operation that was decided on, and whether it was recorded. -/
structure Try (α : Type) where
  op : InstanceOp α
  recorded : Bool

/-- The operations of those tries that were recorded. -/
def Try.kept {α : Type} (tries : List (Try α)) : List (InstanceOp α) :=
  (tries.filter (·.recorded)).map (·.op)

namespace Round

variable {α : Type} [Amount α]

/-! ## Courses -/

/-- What is tried for run specs, in their order, between two states of a round. -/
inductive Course : List (RunSpec α) → Round α → List (Try α) → Round α → Prop where
  | finished (r : Round α) : Course [] r [] r
  /-- Nothing more is tried for the first run spec. -/
  | passed {spec : RunSpec α} {specs : List (RunSpec α)} {r r' : Round α} {tries : List (Try α)}
      (rest : Course specs r tries r') : Course (spec :: specs) r tries r'
  /-- The decision is against an operation. -/
  | declined {spec : RunSpec α} {specs : List (RunSpec α)} {r mid r' : Round α}
      {tries : List (Try α)}
      (decides : r.decideFor spec (r.scheduler.queue.remaining spec.id) = .ok (none, mid))
      (rest : Course specs mid tries r') : Course (spec :: specs) r tries r'
  /-- An operation is decided on and cannot be recorded. -/
  | dropped {spec : RunSpec α} {specs : List (RunSpec α)} {r mid r' : Round α}
      {tries : List (Try α)} {op : InstanceOp α} {s : Scheduler α}
      (decides : r.decideFor spec (r.scheduler.queue.remaining spec.id) = .ok (some op, mid))
      (fails : mid.scheduler.record op = (false, s))
      (rest : Course specs { mid with scheduler := s } tries r') :
      Course (spec :: specs) r (⟨op, false⟩ :: tries) r'
  /-- A new reservation is recorded. -/
  | reserved {spec : RunSpec α} {specs : List (RunSpec α)} {r mid r' : Round α}
      {tries : List (Try α)} {op : InstanceOp α} {s : Scheduler α}
      (decides : r.decideFor spec (r.scheduler.queue.remaining spec.id) = .ok (some op, mid))
      (records : mid.scheduler.record op = (true, s)) (reserves : op.isLaunch = false)
      (rest : Course specs ({ mid with scheduler := s }.collect spec.id op) tries r') :
      Course (spec :: specs) r (⟨op, true⟩ :: tries) r'
  /-- A launch is recorded, and another one may be tried. -/
  | launched {spec : RunSpec α} {specs : List (RunSpec α)} {r mid r' : Round α}
      {tries : List (Try α)} {op : InstanceOp α} {s : Scheduler α}
      (decides : r.decideFor spec (r.scheduler.queue.remaining spec.id) = .ok (some op, mid))
      (records : mid.scheduler.record op = (true, s)) (launches : op.isLaunch = true)
      (rest : Course (spec :: specs) ({ mid with scheduler := s }.collect spec.id op) tries r') :
      Course (spec :: specs) r (⟨op, true⟩ :: tries) r'

variable {spec : RunSpec α} {specs : List (RunSpec α)} {r mid r' : Round α}
  {tries : List (Try α)}

/-- What is tried for one run spec stands before what is tried for those after it. -/
theorem course_serve {count : Nat} (served : r.serve spec count = .ok mid)
    (rest : Course specs mid tries r') :
    ∃ tries', Course (spec :: specs) r (tries' ++ tries) r' := by
  induction count generalizing r with
  | zero =>
    obtain rfl := Except.ok.inj served
    exact ⟨[], .passed rest⟩
  | succ count ih =>
    unfold serve at served
    split at served
    · cases served
    · next again tried =>
      obtain ⟨tries', later⟩ := ih served
      unfold attempt at tried
      split at tried
      · cases tried
      · cases tried
      · next op decided decides =>
        split at tried
        · cases tried
        · next s records =>
          obtain ⟨rfl, launches⟩ := Prod.mk.inj (Except.ok.inj tried)
          exact ⟨⟨op, true⟩ :: tries', .launched decides records launches later⟩
    · next again tried =>
      obtain rfl := Except.ok.inj served
      unfold attempt at tried
      split at tried
      · cases tried
      · next decided decides =>
        obtain ⟨rfl, -⟩ := Prod.mk.inj (Except.ok.inj tried)
        exact ⟨[], .declined decides rest⟩
      · next op decided decides =>
        split at tried
        · next s fails =>
          obtain ⟨rfl, -⟩ := Prod.mk.inj (Except.ok.inj tried)
          exact ⟨[⟨op, false⟩], .dropped decides fails rest⟩
        · next s records =>
          obtain ⟨rfl, reserves⟩ := Prod.mk.inj (Except.ok.inj tried)
          exact ⟨[⟨op, true⟩], .reserved decides records reserves rest⟩

/-- Every round that returns has a course. -/
theorem course_serveAll {requests : List (LaunchRequest α)} (h : r.serveAll requests = .ok r') :
    ∃ tries, Course (requests.map (·.runSpec)) r tries r' := by
  induction requests generalizing r with
  | nil =>
    obtain rfl := Except.ok.inj h
    exact ⟨[], .finished r⟩
  | cons request rest ih =>
    unfold serveAll at h
    split at h
    · cases h
    · next mid served =>
      obtain ⟨tries, later⟩ := ih h
      obtain ⟨tries', course⟩ := course_serve served later
      exact ⟨tries' ++ tries, course⟩

/-! ## Decisions -/

/-- What is the same in a round from its start to its end. -/
structure Keeps (r r' : Round α) : Prop where
  agent : r'.remaining.agent = r.remaining.agent
  policy : r'.scheduler.policy = r.scheduler.policy
  gpus : r'.scheduler.gpus = r.scheduler.gpus
  storeTimeout : r'.scheduler.storeTimeout = r.scheduler.storeTimeout
  manager : r'.scheduler.manager = r.scheduler.manager
  now : r'.scheduler.now = r.scheduler.now
  ids : r.scheduler.ids.Continues r'.scheduler.ids

omit [Amount α] in
theorem Keeps.refl (r : Round α) : r.Keeps r := ⟨rfl, rfl, rfl, rfl, rfl, rfl, .refl _⟩

omit [Amount α] in
theorem Keeps.trans (h : r.Keeps mid) (h' : mid.Keeps r') : r.Keeps r' :=
  ⟨h'.agent.trans h.agent, h'.policy.trans h.policy, h'.gpus.trans h.gpus,
    h'.storeTimeout.trans h.storeTimeout, h'.manager.trans h.manager, h'.now.trans h.now,
    h.ids.trans h'.ids⟩

/-- A decision reads the tracker and what remains of the offer, and changes neither of them. It finds
the instances in the order in which they are listed just then. -/
structure Decides (spec : RunSpec α) (additional : Nat) (r mid : Round α)
    (op? : Option (InstanceOp α)) : Prop where
  keeps : r.Keeps mid
  remaining : mid.remaining = r.remaining
  operations : mid.operations = r.operations
  books : mid.scheduler.books = r.scheduler.books
  queue : mid.scheduler.queue = r.scheduler.queue
  decided : ∀ op, op? = some op → Decision.evaluate r.scheduler.policy r.scheduler.gpus spec r.remaining
    r.scheduler.known additional r.scheduler.now r.scheduler.ids = (.ok (.op op), mid.scheduler.ids)

theorem decides_decideFor {additional : Nat} {op? : Option (InstanceOp α)}
    (h : r.decideFor spec additional = .ok (op?, mid)) : Decides spec additional r mid op? := by
  unfold decideFor at h
  simp only at h
  have continues : r.scheduler.ids.Continues (Decision.evaluate r.scheduler.policy r.scheduler.gpus
    spec r.remaining r.scheduler.known additional r.scheduler.now r.scheduler.ids).2 :=
    Decision.continues_evaluate
  generalize decision : Decision.evaluate r.scheduler.policy r.scheduler.gpus spec r.remaining
    r.scheduler.known additional r.scheduler.now r.scheduler.ids = result at h continues
  obtain ⟨answer, left⟩ := result
  simp only at h
  split at h
  · cases h
  · obtain ⟨rfl, rfl⟩ := Prod.mk.inj (Except.ok.inj h)
    exact ⟨⟨rfl, rfl, rfl, rfl, rfl, rfl, continues⟩, rfl, rfl, rfl, rfl, fun _ hop => nomatch hop⟩
  · obtain ⟨rfl, rfl⟩ := Prod.mk.inj (Except.ok.inj h)
    exact ⟨⟨rfl, rfl, rfl, rfl, rfl, rfl, continues⟩, rfl, rfl, rfl, rfl, fun _ hop => nomatch hop⟩
  · obtain ⟨rfl, rfl⟩ := Prod.mk.inj (Except.ok.inj h)
    exact ⟨⟨rfl, rfl, rfl, rfl, rfl, rfl, continues⟩, rfl, rfl, rfl, rfl, fun _ hop => nomatch hop⟩
  · next op =>
    obtain ⟨rfl, rfl⟩ := Prod.mk.inj (Except.ok.inj h)
    refine ⟨⟨rfl, rfl, rfl, rfl, rfl, rfl, continues⟩, rfl, rfl, rfl, rfl, fun op' hop => ?_⟩
    obtain rfl := Option.some.inj hop
    exact decision

section

variable {additional : Nat} {op? : Option (InstanceOp α)} {op : InstanceOp α}

/-- An operation comes of a decision only where a launch is asked for and an instance is missing. -/
theorem Decides.missing (h : Decides spec additional r mid op?) (operates : op? = some op) :
    0 < additional ∧ ((r.scheduler.books.tracker.knownInstances spec.id).filter
      (·.isPlaced)).length < spec.instances := by
  obtain ⟨asked, few⟩ := (Decision.reached_evaluate (h.decided op operates)).1
  exact ⟨asked, Tracker.length_filter_of_perm r.scheduler.perm_known spec.id _ ▸ few⟩

theorem Decides.reached (h : Decides spec additional r mid op?) (operates : op? = some op) :
    Decision.Reached r.scheduler.policy r.scheduler.gpus spec r.remaining r.scheduler.known
      r.scheduler.now r.scheduler.ids op mid.scheduler.ids :=
  (Decision.reached_evaluate (h.decided op operates)).2

end

/-! ## What a round keeps and collects -/

/-- Recording an operation, and taking it up, changes the books alone of what a decision reads
beside the offer. -/
theorem Decides.keeps_record {additional : Nat} {op : InstanceOp α} {done : Bool} {s : Scheduler α}
    (h : Decides spec additional r mid (some op)) (records : mid.scheduler.record op = (done, s)) :
    r.Keeps { mid with scheduler := s } ∧
      r.Keeps ({ mid with scheduler := s }.collect spec.id op) := by
  obtain ⟨-, rfl⟩ := Prod.mk.inj records
  have keeps := h.keeps
  exact ⟨⟨keeps.agent, keeps.policy, keeps.gpus, keeps.storeTimeout, keeps.manager, keeps.now,
    keeps.ids⟩, ⟨keeps.agent, keeps.policy, keeps.gpus, keeps.storeTimeout, keeps.manager,
    keeps.now, keeps.ids⟩⟩

theorem Course.keeps (h : Course specs r tries r') : r.Keeps r' := by
  induction h with
  | finished r => exact .refl r
  | passed rest ih => exact ih
  | declined decides rest ih => exact (decides_decideFor decides).keeps.trans ih
  | dropped decides fails rest ih => exact ((decides_decideFor decides).keeps_record fails).1.trans ih
  | reserved decides records reserves rest ih =>
    exact ((decides_decideFor decides).keeps_record records).2.trans ih
  | launched decides records launches rest ih =>
    exact ((decides_decideFor decides).keeps_record records).2.trans ih

/-- A round collects the operations that were recorded, in the order in which they were tried. -/
theorem Course.operations (h : Course specs r tries r') :
    r'.operations = r.operations ++ Try.kept tries := by
  induction h with
  | finished r => exact (List.append_nil _).symm
  | passed rest ih => exact ih
  | declined decides rest ih => rw [ih, (decides_decideFor decides).operations]
  | dropped decides fails rest ih => rw [ih, (decides_decideFor decides).operations]; rfl
  | reserved decides records reserves rest ih =>
    rw [ih, collect, (decides_decideFor decides).operations, List.append_assoc]
    rfl
  | launched decides records launches rest ih =>
    rw [ih, collect, (decides_decideFor decides).operations, List.append_assoc]
    rfl

/-! ## Rounds that return -/

end Round

namespace Decision

variable {α : Type} [Amount α] {policy : LaunchPolicy} {gpus : GpuPolicy} {runSpec : RunSpec α}
  {o : Offer α} {known : List Instance} {now : Timestamp} {ids : IdSupply}

omit [Amount α] in
theorem ofOp_ne_deadline (e : Except InstanceOpError (InstanceOp α)) :
    ofOp e ≠ .error .deadlineOutOfRange := by
  cases e <;> exact nofun

/-- A decision is reached if the deadline of a new reservation lies in the calendar. -/
theorem evaluate_ne_deadline {additional : Nat}
    (timed : (now.addMillis? policy.reservationTimeoutMs).isSome = true) :
    (evaluate policy gpus runSpec o known additional now ids).1 ≠
      .error .deadlineOutOfRange := by
  obtain ⟨deadline, timed⟩ := Option.isSome_iff_exists.1 timed
  unfold evaluate Decision.resident Decision.ephemeral launchOnReservation foundReservation
  simp only [timed]
  repeat' split
  all_goals first
    | exact ofOp_ne_deadline _
    | simp

end Decision

namespace Round

variable {α : Type} [Amount α] {spec : RunSpec α} {r : Round α}

/-- The deadline of a new reservation lies in the calendar. -/
def Timed (r : Round α) : Prop :=
  (r.scheduler.now.addMillis? r.scheduler.policy.reservationTimeoutMs).isSome = true

omit [Amount α] in
theorem Timed.of_keeps {r' : Round α} (h : r.Timed) (keeps : r.Keeps r') : r'.Timed := by
  rw [Timed, keeps.now, keeps.policy]
  exact h

theorem isOk_decideFor (h : r.Timed) (spec : RunSpec α) (additional : Nat) :
    ∃ op? mid, r.decideFor spec additional = .ok (op?, mid) := by
  have reached : (Decision.evaluate r.scheduler.policy r.scheduler.gpus spec r.remaining
    r.scheduler.known additional r.scheduler.now r.scheduler.ids).1 ≠
      .error .deadlineOutOfRange := Decision.evaluate_ne_deadline h
  unfold decideFor
  simp only
  split
  · next e => exact absurd e reached
  · exact ⟨_, _, rfl⟩
  · exact ⟨_, _, rfl⟩
  · exact ⟨_, _, rfl⟩
  · exact ⟨_, _, rfl⟩

theorem isOk_attempt (h : r.Timed) (spec : RunSpec α) :
    ∃ r' again, r.attempt spec = .ok (r', again) ∧ r'.Timed := by
  obtain ⟨op?, mid, decides⟩ := isOk_decideFor h spec (r.scheduler.queue.remaining spec.id)
  have decided := decides_decideFor decides
  unfold attempt
  rw [decides]
  cases op? with
  | none => exact ⟨_, _, rfl, h.of_keeps decided.keeps⟩
  | some op =>
    cases records : mid.scheduler.record op with
    | mk done s =>
      obtain ⟨dropped, collected⟩ := decided.keeps_record records
      cases done with
      | false => exact ⟨_, _, by simp only [records]; rfl, h.of_keeps dropped⟩
      | true => exact ⟨_, _, by simp only [records]; rfl, h.of_keeps collected⟩

theorem isOk_serve (h : r.Timed) (spec : RunSpec α) (count : Nat) :
    ∃ r', r.serve spec count = .ok r' ∧ r'.Timed := by
  induction count generalizing r with
  | zero => exact ⟨r, rfl, h⟩
  | succ count ih =>
    obtain ⟨mid, again, tried, timed⟩ := isOk_attempt h spec
    unfold serve
    rw [tried]
    cases again with
    | true => exact ih timed
    | false => exact ⟨mid, rfl, timed⟩

/-- A round returns if the deadline of a new reservation lies in the calendar. -/
theorem isOk_serveAll (h : r.Timed) (requests : List (LaunchRequest α)) :
    ∃ r', r.serveAll requests = .ok r' := by
  induction requests generalizing r with
  | nil => exact ⟨r, rfl⟩
  | cons request rest ih =>
    obtain ⟨mid, served, timed⟩ := isOk_serve h request.runSpec request.runSpec.instances
    unfold serveAll
    rw [served]
    exact ih timed

end Round

end Placement
