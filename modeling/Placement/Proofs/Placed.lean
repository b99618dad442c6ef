/-
No run spec gets more instances than it asks for, and each launch is counted once.

* `Decision.Recorded` says what a launch that was recorded leaves: each of its tasks is known as
  created, on the agent of the offer. `Reached.recorded` has it of every launch.
* `Round.Accounts` is what one stretch of a round does to the counts of one run spec: the places that
  its instances take, those that are placed, and the launches that the queue still waits for.
  Stretches add up (`Accounts.trans`), and each try is one (`Live.accounts_collect`,
  `Live.accounts_dropped`).
* `Scheduler.accounts_processOffer` is the main result.

The counts go by single instances. An operation changes one, and that one was not placed before.
-/
import Mathlib.Data.List.Nodup
import Placement.Proofs.Fresh
import Placement.Proofs.Round

namespace Placement

variable {α : Type}

/-! ## Launches that were recorded -/

namespace Decision

/-- The operation launches these tasks and no others, and they are known afterwards. -/
structure Recorded (b after : Books) (o : Offer α) (op : InstanceOp α) (ts : List Task) : Prop where
  nonempty : ts ≠ []
  stateOps : op.stateOps.map (·.taskId) = ts.map (·.id)
  payloads : op.payloads.map (·.taskId) = ts.map (·.id)
  created : ∀ t ∈ ts, t.condition = .created ∧ t.agent.agentId = o.agentId
  known : ∀ t ∈ ts, after.tracker.task? t.id = some t
  stored : b.tracker.WellFormed → ∀ t ∈ ts, ReadsBack t → after.repository.Holds t.id (some t)

theorem Reached.recorded [Amount α] {policy : LaunchPolicy} {gpus : GpuPolicy} {runSpec : RunSpec α}
    {o : Offer α} {now : Timestamp} {ids ids' : IdSupply} {op : InstanceOp α} {b : Books}
    {limit : Span} {known : List Instance} (perm : known.Perm b.tracker.snapshot)
    (h : Reached policy gpus runSpec o known now ids op ids') (sound : b.Sound) (launches : op.isLaunch = true)
    (done : (b.recordAll limit op.stateOps).1 = true) :
    ∃ ts, Recorded b (b.recordAll limit op.stateOps).2 o op ts := by
  cases h with
  | launched m ephemeral found made =>
    obtain ⟨ts, made⟩ := launches_of_made made
    rw [made.stateOps] at done
    refine ⟨ts, made.nonempty, ?_, made.payloads, ?_, ?_, ?_⟩
    · rw [made.stateOps, List.map_map]
      rfl
    · intro t ht
      obtain ⟨container, hostPorts, rfl⟩ := made.made t ht
      exact ⟨rfl, rfl⟩
    · rw [made.stateOps]
      exact Books.task?_recordAll_launches sound done
    · rw [made.stateOps]
      intro wellFormed t ht readsBack
      exact (Books.stands_recordAll_launches wellFormed sound.keyed done t ht readsBack).2
  | relaunched i u m resident hi own alone waits found =>
    simp only [waitsOn, Bool.and_eq_true, beq_iff_eq] at waits
    obtain ⟨⟨⟨reserved, agent⟩, -⟩, -⟩ := waits
    have known : b.tracker.task? u.id = some u := by
      rw [(Tracker.find?_of_alone sound.assembled (perm.mem_iff.1 hi) alone).2.2.2 u.id rfl,
        if_pos rfl]
    have comes := Books.change_launchOnReservation runSpec.version (.fresh .created now)
      m.assignedPorts known reserved
    obtain ⟨succeeds, after⟩ := Books.recordAll_singleton_true done
    rw [InstanceOp.stateOps, after]
    refine ⟨[u.onReservation runSpec.version (.fresh .created now) m.assignedPorts],
      List.cons_ne_nil _ _, rfl, rfl, ?_, ?_, ?_⟩
    · intro t ht
      rw [List.mem_singleton.1 ht]
      exact ⟨rfl, agent⟩
    · intro t ht
      rw [List.mem_singleton.1 ht]
      exact Books.task?_process_update sound.assembled comes succeeds
    · intro wellFormed t ht readsBack
      rw [List.mem_singleton.1 ht] at readsBack ⊢
      exact (Books.stands_process wellFormed sound.keyed comes readsBack succeeds).2
  | reserved => cases launches

/-- The payloads of a launch name the tasks that it records. -/
theorem Reached.payloads [Amount α] {policy : LaunchPolicy} {gpus : GpuPolicy} {runSpec : RunSpec α}
    {o : Offer α} {known : List Instance} {now : Timestamp} {ids ids' : IdSupply}
    {op : InstanceOp α} (h : Reached policy gpus runSpec o known now ids op ids') :
    op.stateOps ≠ [] ∧ op.payloads.map (·.taskId) =
      if op.isLaunch then op.stateOps.map (·.taskId) else [] := by
  cases h with
  | launched m ephemeral found made =>
    obtain ⟨ts, launches⟩ := launches_of_made made
    rw [launches.isLaunch, launches.payloads, launches.stateOps, if_pos rfl, List.map_map]
    exact ⟨fun h => launches.nonempty (List.map_eq_nil_iff.1 h), rfl⟩
  | relaunched => exact ⟨List.cons_ne_nil _ _, rfl⟩
  | reserved => exact ⟨List.cons_ne_nil _ _, rfl⟩

end Decision

/-! ## Counts of instances -/

namespace Tracker

/-- Where one instance alone changes, a count of instances changes by that instance. -/
theorem countP_knownInstances {t t' : Tracker} {k : InstanceId}
    (others : ∀ j, j ≠ k → t'.instances.find? j = t.instances.find? j) (id : RunSpecId)
    (p : Instance → Bool) :
    (t'.knownInstances id).countP p +
        (if (t.instances.find? k).any fun i => p i && i.runSpecId == id then 1 else 0) =
      (t.knownInstances id).countP p +
        if (t'.instances.find? k).any fun i => p i && i.runSpecId == id then 1 else 0 := by
  have same : t'.instances.erase k = t.instances.erase k := by
    apply OrderedMap.ext_find?
    intro j
    rw [OrderedMap.find?_erase, OrderedMap.find?_erase]
    split
    · rfl
    · next other => exact others j other
  rw [knownInstances, knownInstances, List.countP_filter, List.countP_filter, snapshot, snapshot,
    OrderedMap.countP_values t'.instances k, OrderedMap.countP_values t.instances k, same]
  exact Nat.add_right_comm _ _ _

/-- The instance takes up a place of its run spec: it is placed or, if the run spec is resident, waits
on a reservation. -/
def takesPlace (runSpec : RunSpec α) (i : Instance) : Bool :=
  i.isPlaced || (runSpec.isResident && i.hasReservedTask)

/-- How many places of a run spec are taken. -/
def placesTaken (t : Tracker) (runSpec : RunSpec α) : Nat :=
  (t.knownInstances runSpec.id).countP (takesPlace runSpec)

/-- How many instances of a run spec are placed. -/
def placedCount (t : Tracker) (id : RunSpecId) : Nat := (t.knownInstances id).countP (·.isPlaced)

/-- Places are taken by placed instances and by those that wait. -/
theorem placesTaken_le (t : Tracker) (runSpec : RunSpec α) : t.placesTaken runSpec ≤
    t.placedCount runSpec.id + (t.knownInstances runSpec.id).countP (·.hasReservedTask) := by
  unfold placesTaken placedCount
  induction t.knownInstances runSpec.id with
  | nil => rfl
  | cons i rest ih =>
    have here : takesPlace runSpec i = true → i.isPlaced = true ∨ i.hasReservedTask = true := by
      simp only [takesPlace, Bool.or_eq_true, Bool.and_eq_true]
      exact Or.imp_right And.right
    simp only [List.countP_cons]
    split
    · next takes =>
      rcases here takes with placed | reserved
      · simp only [placed, if_true]
        omega
      · simp only [reserved, if_true]
        omega
    · omega

/-- Only placed instances take places of a run spec that is not resident. -/
theorem placesTaken_ephemeral (t : Tracker) {runSpec : RunSpec α}
    (ephemeral : runSpec.isResident = false) :
    t.placesTaken runSpec = t.placedCount runSpec.id := by
  have same : takesPlace runSpec = (·.isPlaced) := by
    funext i
    simp [takesPlace, ephemeral]
  rw [placesTaken, placedCount, same]

end Tracker

namespace Decision

variable {spec : RunSpec α} {op : InstanceOp α} {k : InstanceId} {b : Books} {limit : Span}

/-- A new instance is decided on only where a place is free. -/
theorem Reached.room [Amount α] {policy : LaunchPolicy} {gpus : GpuPolicy} {o : Offer α}
    {now : Timestamp} {ids ids' : IdSupply} {t : Tracker} {known : List Instance}
    (assembled : t.Assembled) (perm : known.Perm t.snapshot)
    (h : Reached policy gpus spec o known now ids op ids')
    (missing : t.placedCount spec.id < spec.instances) (subject : Subject t spec op k)
    (unknown : t.instances.find? k = none) : t.placesTaken spec < spec.instances := by
  cases h with
  | launched m ephemeral found made =>
    rw [Tracker.placesTaken_ephemeral t ephemeral]
    exact missing
  | relaunched i u m resident hi own alone waits found =>
    have waiting := (Tracker.find?_of_alone assembled (perm.mem_iff.1 hi) alone).1
    rw [show u.instanceId = k from (subject.named _ List.mem_cons_self).1, unknown] at waiting
    cases waiting
  | reserved m volumes deadline resident room found created timed =>
    refine Nat.lt_of_le_of_lt (t.placesTaken_le spec) ?_
    rw [Tracker.placedCount, List.countP_eq_length_filter, List.countP_eq_length_filter,
      ← Tracker.length_filter_of_perm perm, ← Tracker.length_filter_of_perm perm]
    exact room

namespace Subject

/-- Instances of other run specs are counted as before. -/
theorem countP_other (h : Subject b.tracker spec op k) (sound : b.Sound) {id : RunSpecId}
    (other : id ≠ spec.id) (p : Instance → Bool) :
    ((b.recordAll limit op.stateOps).2.tracker.knownInstances id).countP p =
      (b.tracker.knownInstances id).countP p := by
  have count := Tracker.countP_knownInstances
    (fun j hj => h.find?_other sound limit hj) id p
  have ofSpec : ∀ t : Tracker, (∀ i, t.instances.find? k = some i → i.runSpecId = spec.id) →
      ((t.instances.find? k).any fun i => p i && i.runSpecId == id) = false := by
    intro t owned
    cases hi : t.instances.find? k with
    | none => rfl
    | some i => simp [owned i hi, other.symm]
  rw [ofSpec _ fun i hi => (h.before sound.assembled hi).1,
    ofSpec _ fun i hi => h.owned sound hi] at count
  exact count

/-- Of its own run spec, an operation changes a count by the instance that it is for. -/
theorem countP_own (h : Subject b.tracker spec op k) (sound : b.Sound) (limit : Span)
    (p : Instance → Bool) :
    ((b.recordAll limit op.stateOps).2.tracker.knownInstances spec.id).countP p +
        (if (b.tracker.instances.find? k).any p then 1 else 0) =
      (b.tracker.knownInstances spec.id).countP p +
        if ((b.recordAll limit op.stateOps).2.tracker.instances.find? k).any p then 1 else 0 := by
  have count := Tracker.countP_knownInstances
    (fun j hj => h.find?_other sound limit hj) spec.id p
  have ofSpec : ∀ t : Tracker, (∀ i, t.instances.find? k = some i → i.runSpecId = spec.id) →
      ((t.instances.find? k).any fun i => p i && i.runSpecId == spec.id) =
        (t.instances.find? k).any p := by
    intro t owned
    cases hi : t.instances.find? k with
    | none => rfl
    | some i => simp [owned i hi]
  rw [ofSpec _ fun i hi => (h.before sound.assembled hi).1,
    ofSpec _ fun i hi => h.owned sound hi] at count
  exact count

/-- No instance is placed any less. -/
theorem placedCount_own (h : Subject b.tracker spec op k) (sound : b.Sound) :
    (b.recordAll limit op.stateOps).2.tracker.placedCount spec.id =
      b.tracker.placedCount spec.id +
        if ((b.recordAll limit op.stateOps).2.tracker.instances.find? k).any (·.isPlaced)
        then 1 else 0 := by
  have count := h.countP_own sound limit (·.isPlaced)
  have waits : (b.tracker.instances.find? k).any (·.isPlaced) = false := by
    cases hi : b.tracker.instances.find? k with
    | none => rfl
    | some i =>
      rw [Option.any_some, Instance.isPlaced, (h.before sound.assembled hi).2.1]
      rfl
  rw [waits] at count
  exact count

/-- An operation takes no place beyond those that the run spec asks for, recorded or not. -/
theorem placesTaken_own (h : Subject b.tracker spec op k) (sound : b.Sound)
    (room : b.tracker.instances.find? k = none → b.tracker.placesTaken spec < spec.instances) :
    (b.recordAll limit op.stateOps).2.tracker.placesTaken spec ≤
      max (b.tracker.placesTaken spec) spec.instances := by
  have count := h.countP_own sound limit (Tracker.takesPlace spec)
  rw [← Tracker.placesTaken, ← Tracker.placesTaken] at count
  cases hi : b.tracker.instances.find? k with
  | none =>
    have := room hi
    split at count <;> split at count <;> omega
  | some i =>
    have taken : (b.tracker.instances.find? k).any (Tracker.takesPlace spec) = true := by
      rw [hi, Option.any_some, Tracker.takesPlace, (h.known i hi).1,
        (h.before sound.assembled hi).2.2.1]
      simp
    rw [taken, if_pos rfl] at count
    split at count <;> omega

/-- The instance of a launch that was recorded is placed. -/
theorem isPlaced_of_recorded {o : Offer α} {ts : List Task} (h : Subject b.tracker spec op k)
    (sound : b.Sound) (recorded : Recorded b (b.recordAll limit op.stateOps).2 o op ts) :
    ((b.recordAll limit op.stateOps).2.tracker.instances.find? k).any (·.isPlaced) = true := by
  have after : (b.recordAll limit op.stateOps).2.Sound := Books.sound_recordAll sound
  obtain ⟨t, ht⟩ := List.exists_mem_of_ne_nil ts recorded.nonempty
  have known := recorded.known t ht
  have hk : t.id.instanceId = k := by
    obtain ⟨s, hs, heq⟩ := List.mem_map.1 (recorded.stateOps ▸ List.mem_map_of_mem ht)
    exact heq ▸ (h.named s hs).1
  obtain ⟨i, hi, -⟩ := Option.bind_eq_some_iff.1 known
  rw [hk] at hi
  have created : i.condition = .created := by
    refine Tracker.condition_of_task? after.assembled hi ?_
    intro key u hkey hinstance
    obtain ⟨s, hs, rfl⟩ := h.exists_stateOp sound (by rw [hkey]; rfl) hinstance
    obtain ⟨v, hv, heq⟩ := List.mem_map.1 (recorded.stateOps ▸ List.mem_map_of_mem hs)
    rw [← heq, recorded.known v hv] at hkey
    exact Option.some.inj hkey ▸ (recorded.created v hv).1
  rw [hi, Option.any_some, Instance.isPlaced, created]
  rfl

end Subject

end Decision

/-! ## The queue -/

namespace LaunchQueue

/-- How many launches the first request for a run spec waits for. -/
def remainingIn (l : List (LaunchRequest α)) (id : RunSpecId) : Nat :=
  ((l.find? fun q => q.runSpec.id == id).map (·.remaining)).getD 0

theorem remainingIn_eq_zero {l : List (LaunchRequest α)} {id : RunSpecId}
    (h : id ∉ l.map (·.runSpec.id)) : remainingIn l id = 0 := by
  have missing : l.find? (fun q => q.runSpec.id == id) = none := by
    rw [List.find?_eq_none]
    intro q hq heq
    exact h (List.mem_map.2 ⟨q, hq, beq_iff_eq.1 heq⟩)
  rw [remainingIn, missing]
  rfl

/-- Requests that wait for nothing more can leave. -/
theorem remainingIn_filter {l : List (LaunchRequest α)} (distinct : (l.map (·.runSpec.id)).Nodup)
    (id : RunSpecId) : remainingIn (l.filter fun q => 0 < q.remaining) id = remainingIn l id := by
  induction l with
  | nil => rfl
  | cons q rest ih =>
    obtain ⟨other, distinct⟩ := List.nodup_cons.1 distinct
    have ih := ih distinct
    by_cases hq : q.runSpec.id = id
    · by_cases waits : 0 < q.remaining
      · simp [remainingIn, hq, waits]
      · -- Nothing is waited for under this id any more, and no later request has it.
        have none_left : q.remaining = 0 := Nat.eq_zero_of_not_pos waits
        have later : remainingIn rest id = 0 := remainingIn_eq_zero (hq ▸ other)
        rw [List.filter_cons_of_neg (by simpa using waits), ih, later]
        simp [remainingIn, hq, none_left]
    · have here : ∀ l, remainingIn (q :: l) id = remainingIn l id := by
        intro l
        simp [remainingIn, hq]
      by_cases waits : 0 < q.remaining
      · rw [List.filter_cons_of_pos (by simpa using waits), here, here, ih]
      · rw [List.filter_cons_of_neg (by simpa using waits), here, ih]

theorem remainingIn_modify {id : RunSpecId} (l : List (LaunchRequest α)) (id' : RunSpecId) :
    remainingIn (LaunchRequest.modify id (fun q => { q with remaining := q.remaining - 1 }) l) id' =
      if id' = id then remainingIn l id - 1 else remainingIn l id' := by
  induction l with
  | nil => simp [LaunchRequest.modify, remainingIn]
  | cons q rest ih =>
    unfold LaunchRequest.modify
    by_cases hq : q.runSpec.id = id
    · by_cases hid : id' = id
      · simp [remainingIn, hq, hid]
      · have other : ¬ id = id' := fun h => hid h.symm
        simp [remainingIn, hq, hid, other]
    · by_cases hq' : q.runSpec.id = id'
      · have hid : ¬ id' = id := fun h => hq (hq'.trans h)
        simp [remainingIn, hq', hid]
      · rw [if_neg hq]
        simpa [remainingIn, hq, hq'] using ih

/-- A launch is counted once, and for its own run spec alone. -/
theorem remaining_launched (q : LaunchQueue α) (id id' : RunSpecId) :
    (q.launched id).remaining id' =
      if id' = id then q.remaining id - 1 else q.remaining id' := by
  have distinct : ((LaunchRequest.modify id
      (fun q => { q with remaining := q.remaining - 1 }) q.requests).map (·.runSpec.id)).Nodup := by
    rw [LaunchRequest.map_id_modify]
    · exact q.distinct
    · exact fun _ h => h
  exact (remainingIn_filter distinct id').trans (remainingIn_modify q.requests id')

end LaunchQueue

/-! ## Along a round -/

/-- The operation launches tasks of a run spec. -/
def InstanceOp.launches (op : InstanceOp α) (id : RunSpecId) : Bool :=
  op.payloads.any fun info => info.taskId.runSpecId == id

/-- An operation launches tasks of the run spec that it was decided on for, or none at all. -/
theorem Decision.Reached.launches_eq [Amount α] {policy : LaunchPolicy} {gpus : GpuPolicy}
    {runSpec : RunSpec α} {o : Offer α} {known : List Instance} {now : Timestamp}
    {ids ids' : IdSupply} {op : InstanceOp α} {t : Tracker} {k : InstanceId}
    (h : Reached policy gpus runSpec o known now ids op ids') (subject : Subject t runSpec op k)
    (id : RunSpecId) : op.launches id = (op.isLaunch && runSpec.id == id) := by
  obtain ⟨nonempty, payloads⟩ := h.payloads
  have named : op.launches id = (op.payloads.map (·.taskId)).any fun k => k.runSpecId == id := by
    rw [InstanceOp.launches, List.any_map]
    rfl
  rw [named, payloads]
  cases op.isLaunch with
  | false => rfl
  | true =>
    obtain ⟨s, rest, hops⟩ := List.exists_cons_of_ne_nil nonempty
    rw [if_pos rfl, Bool.true_and, List.any_map]
    by_cases own : runSpec.id = id
    · rw [beq_iff_eq.2 own, List.any_eq_true]
      refine ⟨s, by rw [hops]; exact List.mem_cons_self, ?_⟩
      simp [(subject.named s (by rw [hops]; exact List.mem_cons_self)).2, own]
    · rw [beq_eq_false_iff_ne.2 own, List.any_eq_false]
      intro s hs
      simp [(subject.named s hs).2, own]

namespace Round

variable [Amount α] {spec turn : RunSpec α} {specs : List (RunSpec α)} {additional n m : Nat}
  {r mid r' : Round α} {op : InstanceOp α} {done : Bool} {s : Scheduler α} {last : IdSupply}
  {tries : List (Try α)}

/-- What a stretch of a round that launches a run spec `n` times does to its counts. -/
structure Accounts (spec : RunSpec α) (n : Nat) (r r' : Round α) : Prop where
  places : r'.scheduler.books.tracker.placesTaken spec ≤
    max (r.scheduler.books.tracker.placesTaken spec) spec.instances
  missing : n ≤ spec.instances - r.scheduler.books.tracker.placedCount spec.id
  placed : r.scheduler.books.tracker.placedCount spec.id + n ≤
    r'.scheduler.books.tracker.placedCount spec.id
  remaining : r'.scheduler.queue.remaining spec.id + n = r.scheduler.queue.remaining spec.id

omit [Amount α] in
/-- Nothing is launched where books and queue stay as they are. -/
theorem Accounts.of_same (books : r'.scheduler.books = r.scheduler.books)
    (queue : r'.scheduler.queue = r.scheduler.queue) : Accounts spec 0 r r' := by
  refine ⟨?_, Nat.zero_le _, ?_, ?_⟩
  · rw [books]
    exact Nat.le_max_left _ _
  · rw [books]
    exact Nat.le_refl _
  · rw [queue]
    rfl

omit [Amount α] in
theorem Accounts.trans (h : Accounts spec n r mid) (h' : Accounts spec m mid r') :
    Accounts spec (n + m) r r' := by
  have := h.places
  have := h.missing
  have := h.placed
  have := h.remaining
  have := h'.places
  have := h'.missing
  have := h'.placed
  have := h'.remaining
  exact ⟨by omega, by omega, by omega, by omega⟩

omit [Amount α] in
theorem Accounts.of_zero (h : Accounts spec 0 r mid) (h' : Accounts spec n mid r') :
    Accounts spec n r r' := by
  have both := h.trans h'
  rwa [Nat.zero_add] at both

omit [Amount α] in
/-- An operation that has been collected is counted before those that come later. -/
theorem Accounts.collected (h : Accounts spec (if op.launches spec.id then 1 else 0) r mid)
    (h' : Accounts spec ((Try.kept tries).countP (·.launches spec.id)) mid r') :
    Accounts spec ((Try.kept (⟨op, true⟩ :: tries)).countP (·.launches spec.id)) r r' := by
  have both := h.trans h'
  rwa [Nat.add_comm, ← List.countP_cons] at both

/-- Recording an operation places an instance of its run spec if it is a launch, and takes no place too
many. Of all other run specs it changes no count. -/
theorem Live.counts (h : r.Live last) (decides : Decides turn additional r mid (some op))
    (given : mid.scheduler.ids.ulidsGiven ≤ last.ulidsGiven)
    (records : mid.scheduler.record op = (done, s)) (own : spec.id = turn.id → spec = turn) :
    s.books.tracker.placesTaken spec ≤
        max (r.scheduler.books.tracker.placesTaken spec) spec.instances ∧
      r.scheduler.books.tracker.placedCount spec.id +
          (if done && op.launches spec.id then 1 else 0) ≤
        s.books.tracker.placedCount spec.id := by
  obtain ⟨k, subject, -⟩ := h.subject decides given
  have reached := decides.reached rfl
  have launches := reached.launches_eq subject spec.id
  have missing := (decides.missing rfl).2
  rw [← List.countP_eq_length_filter] at missing
  rw [decides.books] at subject
  obtain ⟨hdone, rfl⟩ := Prod.mk.inj records
  rw [decides.books] at hdone ⊢
  by_cases hspec : spec.id = turn.id
  · obtain rfl := own hspec
    refine ⟨subject.placesTaken_own h.sound fun unknown =>
      reached.room h.sound.assembled r.scheduler.perm_known missing subject unknown, ?_⟩
    rw [subject.placedCount_own h.sound]
    split
    · next both =>
      obtain ⟨rfl, launched⟩ := Bool.and_eq_true_iff.1 both
      rw [launches, Bool.and_eq_true] at launched
      obtain ⟨ts, recorded⟩ := reached.recorded r.scheduler.perm_known h.sound launched.1 hdone
      rw [subject.isPlaced_of_recorded h.sound recorded]
      exact Nat.le_refl _
    · exact Nat.le_add_right _ _
  · have other : (turn.id == spec.id) = false := beq_eq_false_iff_ne.2 fun heq => hspec heq.symm
    rw [launches, other, Bool.and_false, Bool.and_false]
    constructor
    · rw [Tracker.placesTaken, subject.countP_other h.sound hspec]
      exact Nat.le_max_left _ _
    · rw [Tracker.placedCount, Tracker.placedCount, subject.countP_other h.sound hspec]
      exact Nat.le_refl _

/-- An operation that cannot be recorded launches nothing. -/
theorem Live.accounts_dropped (h : r.Live last) (decides : Decides turn additional r mid (some op))
    (given : mid.scheduler.ids.ulidsGiven ≤ last.ulidsGiven)
    (fails : mid.scheduler.record op = (false, s)) (own : spec.id = turn.id → spec = turn) :
    Accounts spec 0 r { mid with scheduler := s } := by
  obtain ⟨places, placed⟩ := h.counts decides given fails own
  obtain ⟨-, rfl⟩ := Prod.mk.inj fails
  refine ⟨places, Nat.zero_le _, placed, ?_⟩
  rw [← decides.queue]
  rfl

/-- The queue waits for one launch less of the run spec that is launched, and of no other. -/
theorem remaining_collect (id : RunSpecId) :
    (r.collect turn.id op).scheduler.queue.remaining id =
      if op.isLaunch && turn.id == id then r.scheduler.queue.remaining id - 1
      else r.scheduler.queue.remaining id := by
  cases launch : op.isLaunch with
  | false => simp [collect, launch]
  | true =>
    by_cases own : turn.id = id
    · simp [collect, launch, LaunchQueue.remaining_launched, own]
    · have other : ¬ id = turn.id := fun h => own h.symm
      simp [collect, launch, LaunchQueue.remaining_launched, own, other]

/-- An operation that is recorded is a launch for at most one run spec, of which one was missing and
waited for. -/
theorem Live.accounts_collect (h : r.Live last)
    (decides : Decides turn (r.scheduler.queue.remaining turn.id) r mid (some op))
    (given : mid.scheduler.ids.ulidsGiven ≤ last.ulidsGiven)
    (records : mid.scheduler.record op = (true, s)) (own : spec.id = turn.id → spec = turn) :
    Accounts spec (if op.launches spec.id then 1 else 0) r
      ({ mid with scheduler := s }.collect turn.id op) := by
  obtain ⟨places, placed⟩ := h.counts decides given records own
  obtain ⟨k, subject, -⟩ := h.subject decides given
  have launches := (decides.reached rfl).launches_eq subject spec.id
  obtain ⟨waited, missing⟩ := decides.missing rfl
  rw [← List.countP_eq_length_filter, ← Tracker.placedCount] at missing
  obtain ⟨-, rfl⟩ := Prod.mk.inj records
  rw [Bool.true_and] at placed
  refine ⟨places, ?_, placed, ?_⟩
  · split
    · next launched =>
      rw [launches, Bool.and_eq_true, beq_iff_eq] at launched
      obtain rfl := own launched.2.symm
      omega
    · exact Nat.zero_le _
  · rw [remaining_collect, ← launches, ← decides.queue]
    split
    · next launched =>
      rw [launches, Bool.and_eq_true, beq_iff_eq] at launched
      rw [launched.2, ← decides.queue] at waited
      exact Nat.sub_add_cancel waited
    · rfl

/-- A round launches each run spec as often as the operations that it collects. -/
theorem Course.accounts (h : Course specs r tries r') (spec : RunSpec α)
    (live : r.Live r'.scheduler.ids) (own : ∀ turn ∈ specs, spec.id = turn.id → spec = turn) :
    Accounts spec ((Try.kept tries).countP (·.launches spec.id)) r r' := by
  induction h with
  | finished r => exact .of_same rfl rfl
  | passed rest ih => exact ih live (List.forall_mem_cons.1 own).2
  | declined decides rest ih =>
    have decided := decides_decideFor decides
    exact .of_zero (.of_same decided.books decided.queue)
      (ih (live.decided decided) (List.forall_mem_cons.1 own).2)
  | dropped decides fails rest ih =>
    have decided := decides_decideFor decides
    have given := rest.given fails rfl
    obtain ⟨later, -⟩ := live.recorded decided given fails
    exact .of_zero (live.accounts_dropped decided given fails (own _ List.mem_cons_self))
      (ih later (List.forall_mem_cons.1 own).2)
  | reserved decides records reserves rest ih =>
    have decided := decides_decideFor decides
    have given := rest.given records rfl
    obtain ⟨-, later⟩ := live.recorded decided given records
    exact .collected (live.accounts_collect decided given records (own _ List.mem_cons_self))
      (ih later (List.forall_mem_cons.1 own).2)
  | launched decides records launches rest ih =>
    have decided := decides_decideFor decides
    have given := rest.given records rfl
    obtain ⟨-, later⟩ := live.recorded decided given records
    exact .collected (live.accounts_collect decided given records (own _ List.mem_cons_self))
      (ih later own)

end Round

/-- Taking one offer, whatever faults wait in the store, gives no queued run spec more instances than it
asks for; those beyond, if there are any, had been there before. It launches no more instances than
are missing and than the queue waits for, and the queue then waits for exactly so many less; new
reservations do not count. Identifiers that are given on the way have to be fresh. -/
theorem Scheduler.accounts_processOffer [Amount α] {s s' : Scheduler α} {o : Offer α}
    {answer : Except ManagerError (OfferOutcome α)} (sound : s.books.Sound)
    (h : s.processOffer o = .ok (answer, s')) (fresh : s.ids.Fresh s'.ids s.books.tracker) :
    ∃ r, s.round o = .ok r ∧ ∀ q ∈ s.queue.requests,
      s'.books.tracker.placesTaken q.runSpec ≤
          max (s.books.tracker.placesTaken q.runSpec) q.runSpec.instances ∧
        r.operations.countP (·.launches q.runSpec.id) ≤
          min (s.queue.remaining q.runSpec.id)
            (q.runSpec.instances - s.books.tracker.placedCount q.runSpec.id) ∧
        s'.queue.remaining q.runSpec.id + r.operations.countP (·.launches q.runSpec.id) =
          s.queue.remaining q.runSpec.id := by
  unfold processOffer at h
  cases hr : s.round o with
  | error e =>
    rw [hr] at h
    cases h
  | ok r =>
    rw [hr] at h
    obtain ⟨-, rfl⟩ := Prod.mk.inj (Except.ok.inj h)
    obtain ⟨tries, course⟩ := Round.course_serveAll hr
    refine ⟨r, rfl, fun q hq => ?_⟩
    have own : ∀ turn ∈ s.queue.requests.map (·.runSpec), q.runSpec.id = turn.id →
        q.runSpec = turn := by
      intro turn ht same
      obtain ⟨q', hq', rfl⟩ := List.mem_map.1 ht
      exact congrArg _ (List.inj_on_of_nodup_map s.queue.distinct hq hq' same)
    have accounts := course.accounts q.runSpec ⟨sound, fresh⟩ own
    have collected : r.operations = Try.kept tries := course.operations
    rw [← collected] at accounts
    exact ⟨accounts.places, Nat.le_min.2 ⟨Nat.le.intro
      ((Nat.add_comm _ _).trans accounts.remaining), accounts.missing⟩, accounts.remaining⟩

/-- Of the run specs that wait, one is launched twice and one on its reservation; for one the write
fails, and it waits on. -/
theorem accounts_processOffer_sample : Sample.scheduler.books.Sound ∧
    ∃ answer s', Sample.scheduler.processOffer Sample.offer = .ok (answer, s') ∧
      Sample.scheduler.ids.Fresh s'.ids Sample.scheduler.books.tracker ∧
      ∃ r, Sample.scheduler.round Sample.offer = .ok r ∧
        Sample.scheduler.queue.requests.map (fun q => (q.runSpec.id.path,
            s'.books.tracker.placesTaken q.runSpec,
            r.operations.countP (·.launches q.runSpec.id),
            s'.queue.remaining q.runSpec.id)) =
          [("/first", 0, 0, 1), ("/job", 2, 2, 0), ("/web", 1, 1, 0)] ∧
        ∀ q ∈ Sample.scheduler.queue.requests,
          s'.books.tracker.placesTaken q.runSpec ≤
            max (Sample.scheduler.books.tracker.placesTaken q.runSpec) q.runSpec.instances := by
  have sound : Sample.scheduler.books.Sound :=
    ⟨Sample.wellFormed_books.assembled, Sample.keyed_books⟩
  have outcome : (Sample.scheduler.round Sample.offer).map (fun r =>
      (decide (Sample.scheduler.ids.Fresh r.scheduler.ids Sample.scheduler.books.tracker),
        Sample.scheduler.queue.requests.map fun q => (q.runSpec.id.path,
          r.scheduler.books.tracker.placesTaken q.runSpec,
          r.operations.countP (·.launches q.runSpec.id),
          r.scheduler.queue.remaining q.runSpec.id))) =
      .ok (true, [("/first", 0, 0, 1), ("/job", 2, 2, 0), ("/web", 1, 1, 0)]) := by
    decide +kernel
  cases hr : Sample.scheduler.round Sample.offer with
  | error e =>
    rw [hr] at outcome
    cases outcome
  | ok r =>
    rw [hr] at outcome
    obtain ⟨fresh, counts⟩ := Prod.mk.inj (Except.ok.inj outcome)
    have fresh := of_decide_eq_true fresh
    have processed : Sample.scheduler.processOffer Sample.offer = .ok (r.answer Sample.offer.id) := by
      rw [Scheduler.processOffer, hr]
      rfl
    obtain ⟨r', hr', accounts⟩ := Scheduler.accounts_processOffer sound processed fresh
    obtain rfl := Except.ok.inj (hr.symm.trans hr')
    exact ⟨sound, _, _, processed, fresh, r, rfl, counts, fun q hq => (accounts q hq).1⟩

end Placement
