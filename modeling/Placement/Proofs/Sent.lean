/-
What is sent has been recorded before.

* `Books.Legible` says that all tasks that are known or stored are read back from their stored form.
  Every op keeps it (`legible_recordAll`), whatever faults wait in the store, and books in agreement
  have it (`Agree.legible`).
* `Books.Backs` says what stands behind an operation: the tasks that it launches are known and stored
  as created, and the task of a new reservation is known and stored as waiting, with the volumes that
  are created. `Reached.backs` has it of an operation that has just been recorded, and `Backs.record`
  says that what is tried later leaves it.
* `Scheduler.sends_processOffer` is the main result: one call is made for an offer, it accepts exactly
  what was recorded, and all that it accepts stands.
-/
import Placement.Proofs.Deadline
import Placement.Proofs.Placed
import Placement.Proofs.Restart
import Placement.Proofs.Storable

namespace Placement

namespace Books

/-! ## Books that can be read back -/

/-- All tasks that are known or stored are read back from their stored form. -/
structure Legible (b : Books) : Prop where
  known : ∀ id t, b.tracker.task? id = some t → ReadsBack t
  stored : ∀ id t, b.repository.stored? id = some t → ReadsBack t

theorem Agree.legible {b : Books} (h : b.Agree) : b.Legible := by
  refine ⟨h.readsBack, fun id t ht => h.readsBack id t ?_⟩
  rw [(h.same id).stored?] at ht
  exact ht

section

variable {b after : Books} {op : StateOp} {limit : Span}

/-- Books in which one task alone has changed can be read back if that task can. -/
theorem Legible.of_frame (h : b.Legible) (id : TaskId) (frame : b.Frame id after)
    (known : ∀ t, after.tracker.task? id = some t → ReadsBack t)
    (stored : ∀ t, after.repository.stored? id = some t → ReadsBack t) : after.Legible := by
  refine ⟨fun k t ht => ?_, fun k t ht => ?_⟩
  · by_cases hk : k = id
    · exact known t (hk ▸ ht)
    · rw [frame.tracker k hk] at ht
      exact h.known k t ht
  · by_cases hk : k = id
    · exact stored t (hk ▸ ht)
    · rw [frame.stored? hk] at ht
      exact h.stored k t ht

theorem Attempted.legible (h : b.Legible) (sound : b.Sound) (storable : op.Storable)
    (made : b.Attempted op after) : after.Legible := by
  have readsBack := readsBack_change storable (h.known op.taskId)
  refine h.of_frame op.taskId (made.frame sound.assembled) ?_ ?_
  · rw [made.task? sound.assembled]
    exact readsBack
  · intro t ht
    rcases made.documents with written | same
    · have stands := holds_write (isFor_change sound.assembled op) made.writes readsBack written
      exact readsBack t (stands.stored?.symm.trans ht)
    · rw [Repository.stored?, same] at ht
      exact h.stored op.taskId t ht

/-- However an op ends, what it leaves is read back. -/
theorem Handled.legible {reply : Change} (h : b.Legible) (sound : b.Sound)
    (storable : op.Storable) (handled : b.Handled op reply after) : after.Legible := by
  cases handled with
  | refused e refuses => exact h
  | quiet nothing => exact h
  | settled made there => exact made.legible h sound storable
  | unverified write reload made unread => exact made.legible h sound storable
  | @corrected mid write made found there differs =>
    have legible := made.legible h sound storable
    have corrects := corrected_correct mid
      (fun t => id_of_newTask? (isFor_change sound.assembled op))
      (fun t ht => made.keyed sound.assembled sound.keyed op.taskId t (there.stored?.trans ht))
    generalize mid.correct _ _ = after at corrects ⊢
    cases corrects with
    | followed change tracker hfor taken follows =>
      have assembled := sound.assembled.notify made.tracker
      refine legible.of_frame op.taskId ⟨?_, fun _ _ => rfl⟩ ?_ (legible.stored op.taskId)
      · intro k hk
        exact (Tracker.task?_notify assembled hfor taken k).trans (if_neg hk)
      · intro t ht
        -- The tracker has taken over what was found in the repository.
        rw [Tracker.task?_notify assembled hfor taken, if_pos rfl, follows] at ht
        exact legible.stored op.taskId t (there.stored?.trans ht)
    | refused => exact legible
    | nothing => exact legible

theorem legible_process (h : b.Legible) (sound : b.Sound) (storable : op.Storable) :
    (b.process limit op).2.Legible :=
  processWithin_induction h fun _ _ handled => handled.legible h sound storable

theorem legible_recordAll {ops : List StateOp} (h : b.Legible) (sound : b.Sound)
    (storable : ∀ s ∈ ops, s.Storable) : (b.recordAll limit ops).2.Legible := by
  induction ops generalizing b with
  | nil => exact h
  | cons op rest ih =>
    have step : (b.process limit op).2.Legible :=
      legible_process h sound (storable op List.mem_cons_self)
    have frame := (frame_process sound limit op).2
    rw [recordAll_cons]
    split
    · exact step
    · exact ih step frame fun s hs => storable s (List.mem_cons_of_mem op hs)

end

end Books

/-! ## What stands behind an operation -/

variable {α : Type}

/-- The payloads of the tasks that are launched. -/
def WireOperation.payloads : WireOperation α → List (TaskInfo α)
  | launch tasks => tasks
  | launchGroup group => group.tasks
  | reserve _ => []
  | createVolumes _ => []

theorem InstanceOp.payloads_wireOperations (op : InstanceOp α) :
    op.wireOperations.flatMap (·.payloads) = op.payloads := by
  cases op <;> simp [wireOperations, WireOperation.payloads, payloads]

theorem InstanceOp.wireOperations_ne_nil (op : InstanceOp α) : op.wireOperations ≠ [] := by
  cases op <;> exact List.cons_ne_nil _ _

namespace Books

/-- What the operation sends has been recorded. The tasks that it launches stand as created on the
agent. The task for which it reserves resources and creates volumes stands as reserved, and lists
exactly these volumes in their order. -/
structure Backs (b : Books) (policy : LaunchPolicy) (agentId : AgentId) (op : InstanceOp α) :
    Prop where
  launches : ∀ w ∈ op.wireOperations, ∀ info ∈ w.payloads,
    ∃ t, t.id = info.taskId ∧ b.Stands t ∧ t.condition = .created ∧ t.agent.agentId = agentId
  reserves : ∀ reserve create, op.wireOperations = [.reserve reserve, .createVolumes create] →
    ∃ t, op.stateOps = [.reserve t] ∧ b.Stands t ∧ t.condition = .reserved ∧
      create.map (fun v => v.persistence.map (·.volumeId)) = t.volumeIds.map some ∧
      ∀ x ∈ reserve ++ create,
        x.reservationLabels = some (Decision.reservationLabels policy t.id)

variable {b : Books} {limit : Span} {policy : LaunchPolicy} {agentId : AgentId} {spec : RunSpec α}
  {op op' : InstanceOp α} {k : InstanceId}

/-- What stands behind an operation still does after another one has been tried, unless that one is
for a reservation of the same run spec. -/
theorem Backs.recordAll (h : b.Backs policy agentId op) (sound : b.Sound)
    (subject : Decision.Subject b.tracker spec op' k)
    (apart : op.isLaunch = false → ∀ s ∈ op.stateOps, s.taskId.runSpecId ≠ spec.id) :
    (b.recordAll limit op'.stateOps).2.Backs policy agentId op := by
  refine ⟨?_, ?_⟩
  · intro w hw info hinfo
    obtain ⟨t, hid, stands, created, agent⟩ := h.launches w hw info hinfo
    -- The later operation is for tasks that wait, or are not known yet.
    have busy : t.isReserved = false := by
      rw [Task.isReserved, created]
      rfl
    exact ⟨t, hid, stands.recordAll sound (subject.taskId_ne sound.assembled stands.1 busy), created,
      agent⟩
  · intro reserve create hop
    obtain ⟨t, stateOps, stands, reserved, volumes, labels⟩ := h.reserves reserve create hop
    have reserves : op.isLaunch = false := by
      cases op with
      | reserveAndCreate => rfl
      | _ => cases hop
    have other : t.id.runSpecId ≠ spec.id :=
      apart reserves (.reserve t) (stateOps ▸ List.mem_cons_self)
    refine ⟨t, stateOps, stands.recordAll sound fun s hs same => other ?_, reserved, volumes, labels⟩
    rw [← same]
    exact (subject.named s hs).2

end Books

/-- What has just been recorded stands. -/
theorem Decision.Reached.backs [Amount α] {policy : LaunchPolicy} {gpus : GpuPolicy}
    {spec : RunSpec α} {o : Offer α} {now : Timestamp} {ids ids' : IdSupply} {op : InstanceOp α}
    {b : Books} {known : List Instance} (perm : known.Perm b.tracker.snapshot)
    (h : Reached policy gpus spec o known now ids op ids') (limit : Span)
    (wellFormed : b.tracker.WellFormed) (sound : b.Sound) (legible : b.Legible)
    (dated : Dated policy spec now)
    (unknown : ids.ulidsGiven < ids'.ulidsGiven → b.tracker.instances.find? ids.nextId.1 = none)
    (done : (b.recordAll limit op.stateOps).1 = true) :
    (b.recordAll limit op.stateOps).2.Backs policy o.agentId op := by
  have storable := h.storable dated
  have after : (b.recordAll limit op.stateOps).2.Legible :=
    Books.legible_recordAll legible sound storable
  refine ⟨?_, ?_⟩
  · intro w hw info hinfo
    have hpayload : info ∈ op.payloads := by
      rw [← InstanceOp.payloads_wireOperations]
      exact List.mem_flatMap.2 ⟨w, hw, hinfo⟩
    have launches : op.isLaunch = true := by
      cases op with
      | reserveAndCreate => cases hpayload
      | _ => rfl
    obtain ⟨ts, recorded⟩ := h.recorded perm sound launches done
    obtain ⟨t, ht, hid⟩ := List.mem_map.1 (recorded.payloads ▸ List.mem_map_of_mem hpayload)
    have tracked := recorded.known t ht
    obtain ⟨created, agent⟩ := recorded.created t ht
    exact ⟨t, hid, ⟨tracked, recorded.stored wellFormed t ht (after.known t.id t tracked)⟩, created,
      agent⟩
  · intro reserve create hop
    cases h with
    | launched m ephemeral found made =>
      obtain ⟨ts, launches⟩ := launches_of_made made
      have isLaunch := launches.isLaunch
      cases op with
      | reserveAndCreate => cases isLaunch
      | _ => cases hop
    | relaunched => cases hop
    | reserved m volumes deadline resident room found created timed =>
      obtain ⟨rfl, rfl⟩ : reserve = _ ∧ create = _ := by
        simpa [InstanceOp.wireOperations, eq_comm] using hop
      obtain ⟨listed, held⟩ := volumes_of_createVolumes created
      have missing := unknown (given_of_createVolumes created)
      have fresh : b.tracker.task? (foundedTask spec o (.forInstance spec.id ids.nextId.1)
          (volumes.map (·.1)) now deadline).id = none := by
        rw [Tracker.task?_eq]
        exact congrArg (Option.bind · _) missing
      refine ⟨_, rfl, Books.stands_recordAll_reserve wellFormed sound.keyed fresh
        (storable _ List.mem_cons_self) done, rfl, ?_, ?_⟩
      · rw [volumeIds_foundedTask, List.map_map, List.map_map]
        exact listed
      · intro x hx
        rcases List.mem_append.1 hx with hx | hx
        · obtain ⟨y, -, rfl⟩ := List.mem_map.1 hx
          rfl
        · obtain ⟨v, hv, rfl⟩ := List.mem_map.1 hx
          rw [Resource.reservationLabels, held v hv]
          rfl

/-! ## Along a round -/

namespace Round

variable [Amount α] {spec : RunSpec α} {specs : List (RunSpec α)} {additional : Nat}
  {r mid r' : Round α} {op : InstanceOp α} {done : Bool} {s : Scheduler α} {last : IdSupply}
  {tries : List (Try α)} {agentId : AgentId}

/-- All operations collected so far stand, and the books are fit for those of `specs` that are still
to come. -/
structure Backed (agentId : AgentId) (last : IdSupply) (specs : List (RunSpec α)) (r : Round α) :
    Prop where
  live : r.Live last
  wellFormed : r.scheduler.books.tracker.WellFormed
  legible : r.scheduler.books.Legible
  agent : r.remaining.agentId = agentId
  distinct : (specs.map (·.id)).Nodup
  dated : ∀ spec ∈ specs, Decision.Dated r.scheduler.policy spec r.scheduler.now
  backs : ∀ op ∈ r.operations, r.scheduler.books.Backs r.scheduler.policy agentId op
  apart : ∀ op ∈ r.operations, op.isLaunch = false →
    ∀ s ∈ op.stateOps, s.taskId.runSpecId ∉ specs.map (·.id)

omit [Amount α] in
/-- Nothing more has to come for the first run spec. -/
theorem Backed.tail (h : r.Backed agentId last (spec :: specs)) : r.Backed agentId last specs where
  live := h.live
  wellFormed := h.wellFormed
  legible := h.legible
  agent := h.agent
  distinct := (List.nodup_cons.1 h.distinct).2
  dated := (List.forall_mem_cons.1 h.dated).2
  backs := h.backs
  apart op hop reserves s hs hmem :=
    h.apart op hop reserves s hs (List.mem_cons_of_mem _ hmem)

theorem Backed.decided {op? : Option (InstanceOp α)} (h : r.Backed agentId last specs)
    (decides : Decides spec additional r mid op?) : mid.Backed agentId last specs := by
  have keeps := decides.keeps
  refine ⟨h.live.decided decides, ?_, ?_, ?_, h.distinct, ?_, ?_, ?_⟩
  · rw [decides.books]
    exact h.wellFormed
  · rw [decides.books]
    exact h.legible
  · rw [decides.remaining]
    exact h.agent
  · rw [keeps.policy, keeps.now]
    exact h.dated
  · rw [decides.operations, decides.books, keeps.policy]
    exact h.backs
  · rw [decides.operations]
    exact h.apart

/-- Trying an operation leaves the books fit, and what has been collected before stands. -/
theorem Backed.tried (h : r.Backed agentId last (spec :: specs))
    (decides : Decides spec additional r mid (some op))
    (given : mid.scheduler.ids.ulidsGiven ≤ last.ulidsGiven)
    (records : mid.scheduler.record op = (done, s)) :
    Backed agentId last (spec :: specs) { mid with scheduler := s } := by
  obtain ⟨k, subject, -⟩ := h.live.subject decides given
  have storable := (decides.reached rfl).storable (h.dated spec List.mem_cons_self)
  have live := (h.live.recorded decides given records).1
  have before := h.decided decides
  obtain ⟨-, rfl⟩ := Prod.mk.inj records
  refine ⟨live, Books.wellFormed_recordAll before.wellFormed,
    Books.legible_recordAll before.legible before.live.sound storable, before.agent, before.distinct,
    before.dated, ?_, before.apart⟩
  intro op' hop'
  refine (before.backs op' hop').recordAll before.live.sound subject ?_
  intro reserves x hx same
  exact before.apart op' hop' reserves x hx (same ▸ List.mem_cons_self)

/-- An operation that is recorded stands. -/
theorem Backed.recorded (h : r.Backed agentId last (spec :: specs))
    (decides : Decides spec additional r mid (some op))
    (given : mid.scheduler.ids.ulidsGiven ≤ last.ulidsGiven)
    (records : mid.scheduler.record op = (true, s)) : s.books.Backs s.policy agentId op := by
  obtain ⟨recorded, rfl⟩ := Prod.mk.inj records
  have backs := (decides.reached rfl).backs r.scheduler.perm_known mid.scheduler.storeTimeout
    h.wellFormed h.live.sound h.legible (h.dated spec List.mem_cons_self) (h.live.fresh.next given)
  rw [decides.books] at recorded ⊢
  rw [show ({ mid.scheduler with books := _ } : Scheduler α).policy = r.scheduler.policy from
    decides.keeps.policy, ← h.agent]
  exact backs recorded

omit [Amount α] in
/-- An operation that stands can be collected, unless it is a reservation of a run spec that is still
to come. -/
theorem Backed.append (h : r.Backed agentId last specs)
    (backs : r.scheduler.books.Backs r.scheduler.policy agentId op)
    (apart : op.isLaunch = false → ∀ s ∈ op.stateOps, s.taskId.runSpecId ∉ specs.map (·.id)) :
    ∀ op' ∈ r.operations ++ [op], r.scheduler.books.Backs r.scheduler.policy agentId op' ∧
      (op'.isLaunch = false → ∀ s ∈ op'.stateOps, s.taskId.runSpecId ∉ specs.map (·.id)) := by
  intro op' hop'
  rcases List.mem_append.1 hop' with earlier | this
  · exact ⟨h.backs op' earlier, h.apart op' earlier⟩
  · rw [List.mem_singleton.1 this]
    exact ⟨backs, apart⟩

theorem Backed.collect (h : r.Backed agentId last specs) (id : RunSpecId)
    (backs : r.scheduler.books.Backs r.scheduler.policy agentId op)
    (apart : op.isLaunch = false → ∀ s ∈ op.stateOps, s.taskId.runSpecId ∉ specs.map (·.id)) :
    (r.collect id op).Backed agentId last specs where
  live := ⟨h.live.sound, h.live.fresh⟩
  wellFormed := h.wellFormed
  legible := h.legible
  agent := h.agent
  distinct := h.distinct
  dated := h.dated
  backs op' hop' := (h.append backs apart op' hop').1
  apart op' hop' := (h.append backs apart op' hop').2

/-- At the end of a round all that it has collected stands. -/
theorem Course.backed (h : Course specs r tries r')
    (backed : r.Backed agentId r'.scheduler.ids specs) :
    r'.Backed agentId r'.scheduler.ids [] := by
  induction h with
  | finished r => exact backed
  | passed rest ih => exact ih backed.tail
  | declined decides rest ih => exact ih (backed.decided (decides_decideFor decides)).tail
  | dropped decides fails rest ih =>
    exact ih (backed.tried (decides_decideFor decides) (rest.given fails rfl) fails).tail
  | reserved decides records reserves rest ih =>
    have decided := decides_decideFor decides
    have given := rest.given records rfl
    obtain ⟨k, subject, -⟩ := backed.live.subject decided given
    refine ih ((backed.tried decided given records).tail.collect _
      (backed.recorded decided given records) fun _ x hx hmem => ?_)
    rw [(subject.named x hx).2] at hmem
    exact (List.nodup_cons.1 backed.distinct).1 hmem
  | launched decides records launches rest ih =>
    have decided := decides_decideFor decides
    have given := rest.given records rfl
    refine ih ((backed.tried decided given records).collect _
      (backed.recorded decided given records) fun reserves => ?_)
    rw [launches] at reserves
    cases reserves

end Round

namespace Scheduler

/-- An operation is recorded when each of its state ops succeeds. -/
theorem record_eq_true_iff {s : Scheduler α} {op : InstanceOp α} : (s.record op).1 = true ↔
    ∀ reply ∈ (s.processAll op.stateOps).1, reply.isFailure = false :=
  Books.recordAll_eq_true_iff

/-- The call with which an offer is answered. -/
def answerCall (id : OfferId) (operations : List (InstanceOp α)) : ManagerCall α :=
  if operations.isEmpty then .decline id else .accept id (operations.flatMap (·.wireOperations))

theorem calls_answer (r : Round α) (id : OfferId) : (r.answer id).2.manager.calls =
    answerCall id r.operations :: r.scheduler.manager.calls := by
  unfold Round.answer answerCall Round.wireOperations
  cases r.operations with
  | nil => rfl
  | cons op rest =>
    have sends : (op :: rest).flatMap (·.wireOperations) ≠ [] := by
      rw [List.flatMap_cons]
      exact List.append_ne_nil_of_left_ne_nil op.wireOperations_ne_nil _
    simp only [List.isEmpty_cons, List.isEmpty_eq_false_iff.2 sends, Bool.false_eq_true, if_false]
    rfl

/-- Taking an offer makes exactly one call, whatever the store and the manager do. It declines the
offer if no operation was recorded; else it accepts with the operations that were recorded
(`record_eq_true_iff`), in the order in which they were tried, and with nothing else. When the call is
made, all that it sends stands (`Books.Backs`). The books need not be in agreement for that, if what
is known and stored can be read back (`Agree.legible`).

The offer is answered at all only if the deadline of a new reservation, were one made now, lies in the
calendar (`timed`): a timeout for which it does not ends the round instead. With settings that are admitted
with a timeout that the calendar has room for, it does from 1970 to 9999 (`Settings.Admits.timed`). And the
moments that may be written down, which are now, that deadline and the versions of the queued run specs, are
read back from their stored form (`dated`). -/
theorem sends_processOffer [Amount α] {s : Scheduler α} {o : Offer α}
    (wellFormed : s.books.tracker.WellFormed) (keyed : s.books.repository.Keyed)
    (legible : s.books.Legible)
    (timed : (s.now.addMillis? s.policy.reservationTimeoutMs).isSome = true)
    (dated : ∀ q ∈ s.queue.requests, Decision.Dated s.policy q.runSpec s.now)
    (fresh : ∀ r, s.round o = .ok r → s.ids.Fresh r.scheduler.ids s.books.tracker) :
    ∃ r tries answer s', s.round o = .ok r ∧ s.processOffer o = .ok (answer, s') ∧
      Round.Course (s.queue.requests.map (·.runSpec)) ⟨.start o, s⟩ tries r ∧
      r.operations = Try.kept tries ∧
      s'.manager.calls = answerCall o.id r.operations :: s.manager.calls ∧
      s'.books = r.scheduler.books ∧
      ∀ op ∈ r.operations, s'.books.Backs s.policy o.agentId op := by
  have start : Round.Timed ⟨.start o, s⟩ := timed
  obtain ⟨r, hr⟩ := Round.isOk_serveAll start s.queue.requests
  obtain ⟨tries, course⟩ := Round.course_serveAll hr
  have keeps := course.keeps
  have backed : Round.Backed o.agentId r.scheduler.ids (s.queue.requests.map (·.runSpec))
      ⟨.start o, s⟩ := by
    refine ⟨⟨⟨wellFormed.assembled, keyed⟩, fresh r hr⟩, wellFormed, legible, rfl, ?_, ?_, ?_, ?_⟩
    · rw [List.map_map]
      exact s.queue.distinct
    · intro spec hspec
      obtain ⟨q, hq, rfl⟩ := List.mem_map.1 hspec
      exact dated q hq
    · exact fun _ hop => nomatch hop
    · exact fun _ hop => nomatch hop
  have backs := (course.backed backed).backs
  rw [keeps.policy] at backs
  refine ⟨r, tries, (r.answer o.id).1, (r.answer o.id).2, hr, ?_, course, course.operations, ?_, rfl,
    backs⟩
  · rw [processOffer, round, hr]
    rfl
  · rw [calls_answer, keeps.manager]

end Scheduler

/-- The resource manager fails. -/
def Sample.sender : Scheduler Rat := { Sample.mixedScheduler with manager := ⟨[], true⟩ }

theorem Sample.agree_books : Sample.books.Agree := by
  have storable : (StateOp.reserve Sample.waitingTask).Storable :=
    show ReadsBack Sample.waitingTask by decide +kernel
  exact (Books.agree_processWithin Books.agree_empty Sample.limit 0 storable).addFaults [.reject]

/-- The type of an operation on the wire, with the tasks that it launches, those that it reserves each of its
resources for, or the volumes that it creates. -/
def Sample.gist (w : WireOperation Rat) : String × List String :=
  (w.type, match w with
    | .launch tasks => tasks.map (·.taskId.text)
    | .launchGroup group => group.tasks.map (·.taskId.text)
    | .reserve resources => resources.filterMap fun r =>
      r.reservationLabels.bind (·.find? Decision.taskLabel)
    | .createVolumes volumes => volumes.filterMap fun r => r.persistence.map (·.volumeId.text))

/-- What is sent: two new instances of a run spec, one that waited on its reservation, a task group, and a
processor and a disk that are reserved for an instance, with a volume on the disk. -/
def Sample.gists : List (String × List String) :=
  [("LAUNCH", ["job.inst_00000004W80000000000000002"]),
    ("LAUNCH", ["job.inst_00000004W80000000000000003"]),
    ("LAUNCH", ["web.inst_00000000000000000000000001"]),
    ("LAUNCH_GROUP", ["pod.inst_00000004W80000000000000004.first",
      "pod.inst_00000004W80000000000000004.second"]),
    ("RESERVE", ["store.inst_00000004W80000000000000005", "store.inst_00000004W80000000000000005"]),
    ("CREATE_VOLUMES", ["store#data#00000000-0000-4000-8000-000000000001"])]

/-- All that comes of the offer is sent in one call, and stands, though the first write was refused: the
instance of the first run spec is not among it. -/
theorem sends_processOffer_sample : Sample.sender.books.Legible ∧
    ∃ (r : Round Rat) (answer : _) (s' : _) (sent : List (WireOperation Rat)),
      Sample.sender.processOffer Sample.mixedOffer = .ok (answer, s') ∧
      Sample.sender.ids.Fresh r.scheduler.ids Sample.sender.books.tracker ∧
      s'.manager.calls = [.accept Sample.offer.id sent] ∧ sent.map Sample.gist = Sample.gists ∧
      r.operations.flatMap (·.wireOperations) = sent ∧
      ∀ op ∈ r.operations, s'.books.Backs .usual Sample.offer.agentId op := by
  have outcome : (Sample.sender.round Sample.mixedOffer).map (fun r =>
      (decide (Sample.sender.ids.Fresh r.scheduler.ids Sample.sender.books.tracker),
        r.wireOperations.map Sample.gist)) = .ok (true, Sample.gists) := by
    decide +kernel
  have dated : ∀ q ∈ Sample.sender.queue.requests, q.runSpec.version = ⟨0, 0⟩ := by
    decide +kernel
  have fresh : ∀ r, Sample.sender.round Sample.mixedOffer = .ok r →
      Sample.sender.ids.Fresh r.scheduler.ids Sample.sender.books.tracker := by
    intro r hr
    rw [hr] at outcome
    exact of_decide_eq_true (Prod.mk.inj (Except.ok.inj outcome)).1
  have agree : Sample.sender.books.Agree := Sample.agree_books
  have timed := Sample.admits_usual.timed (by decide)
    (show Sample.sender.now.OnCalendar by decide) (by decide) (by decide)
  obtain ⟨r, tries, answer, s', hr, processed, -, -, calls, -, backs⟩ :=
    Scheduler.sends_processOffer agree.wellFormed agree.keyed agree.legible timed
      (fun q hq => Decision.dated_sample (dated q hq)) fresh
  rw [hr] at outcome
  have gists : (r.operations.flatMap (·.wireOperations)).map Sample.gist = Sample.gists :=
    (Prod.mk.inj (Except.ok.inj outcome)).2
  have collected : r.operations.isEmpty = false := by
    cases hops : r.operations with
    | nil =>
      rw [hops] at gists
      cases gists
    | cons op rest => rfl
  rw [Scheduler.answerCall, collected] at calls
  exact ⟨agree.legible, r, answer, s', _, processed, fresh r hr, calls, gists, rfl, backs⟩

end Placement
