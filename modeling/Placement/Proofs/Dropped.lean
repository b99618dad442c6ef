/-
Operations that are dropped.

An operation is dropped when one of its state ops fails. As long as tracker and repository agree and
reads work, the failed op itself leaves nothing behind, whatever its write meets
(`Books.sameRecords_process`). But the ops before it stay recorded (`Books.recordAll_failed`).

`Scheduler.record_failed` is the main result: it says which tasks of a dropped operation remain. An
operation of one task leaves none. Of a task group those tasks remain that were recorded before the
failure, and `record_failed_sample` has one that does.
-/
import Placement.Proofs.Course
import Placement.Proofs.Recording
import Placement.Proofs.Restart
import Placement.Proofs.Round
import Placement.Proofs.Storable

namespace Placement

namespace Books

/-- The same is known and stored. -/
def SameRecords (b after : Books) : Prop :=
  after.tracker = b.tracker ∧ after.repository.documents = b.repository.documents

theorem SameRecords.refl (b : Books) : b.SameRecords b := ⟨rfl, rfl⟩

section

variable {b : Books} {limit : Span} {op : StateOp} {ops : List StateOp}

/-! ## One op that fails -/

/-- An op that fails leaves what is known and stored as it was, if tracker and repository agree. -/
theorem Handled.sameRecords {reply : Change} {after : Books} (h : b.Agree) (storable : op.Storable)
    (handled : b.Handled op reply after) (fails : reply.isFailure = true) :
    b.SameRecords after := by
  have truthful := handled.truthful h.wellFormed h.keyed (h.readsBack_change storable)
  have frame := handled.frame ⟨h.wellFormed.assembled, h.keyed⟩
  have wellFormed := handled.tracker_induction (fun _ _ _ ht taken => ht.notify taken) h.wellFormed
  cases handled with
  | refused e refuses => exact .refl b
  | quiet nothing => exact .refl b
  | settled made there =>
    have writes := made.writes
    cases hc : b.change op with
    | failure e =>
      rw [hc] at writes
      exact writes.elim
    | _ =>
      rw [hc] at fails
      cases fails
  | unverified write reload made unread => exact absurd (made.readable h storable) (unread h.reads)
  | corrected write made found there differs =>
    obtain ⟨same, stands⟩ := truthful
    refine ⟨Tracker.eq_of_task?_eq wellFormed.assembled h.wellFormed.assembled ?_, same⟩
    intro k
    by_cases hk : k = op.taskId
    · -- The tracker has gone back to what is stored, and that had been known.
      rw [hk, ← stands.stored?, Repository.stored?, same]
      exact (h.same op.taskId).stored?
    · exact frame.tracker k hk

theorem sameRecords_process (h : b.Agree) (storable : op.Storable)
    (fails : (b.process limit op).1.isFailure = true) : b.SameRecords (b.process limit op).2 := by
  unfold process at fails ⊢
  rcases b.processWithin_cases limit 0 op with refused | refused | applied
  · rw [refused]
    exact .refl b
  · rw [refused]
    exact .refl b
  · rw [applied] at fails ⊢
    exact (handled_apply limit op b).sameRecords h storable fails

/-! ## Several ops -/

/-- Where recording fails, it leaves what the ops before the failure make of the books. -/
theorem recordAll_failed (h : b.Agree) (storable : ∀ s ∈ ops, s.Storable)
    (fails : (b.recordAll limit ops).1 = false) :
    ∃ done last rest, ops = done ++ last :: rest ∧ (b.recordAll limit done).1 = true ∧
      (b.recordAll limit done).2.SameRecords (b.recordAll limit ops).2 := by
  induction ops generalizing b with
  | nil => cases fails
  | cons op rest ih =>
    have step := agree_processWithin h limit 0 (storable op List.mem_cons_self)
    by_cases failed : (b.process limit op).1.isFailure = true
    · refine ⟨[], op, rest, rfl, rfl, ?_⟩
      rw [recordAll_cons, if_pos failed]
      exact sameRecords_process h (storable op List.mem_cons_self) failed
    · rw [recordAll_cons, if_neg failed] at fails
      obtain ⟨done, last, rest', rfl, recorded, same⟩ :=
        ih step (fun s hs => storable s (List.mem_cons_of_mem op hs)) fails
      refine ⟨op :: done, last, rest', rfl, ?_, ?_⟩
      · rw [recordAll_cons, if_neg failed]
        exact recorded
      · rw [recordAll_cons, if_neg failed, recordAll_cons, if_neg failed]
        exact same

end

end Books

/-! ## Operations -/

/-- What an operation records is either one op, or the launches of new tasks. -/
theorem Decision.Reached.stateOps_cases {α : Type} [Amount α] {policy : LaunchPolicy}
    {gpus : GpuPolicy} {runSpec : RunSpec α} {o : Offer α} {known : List Instance}
    {now : Timestamp} {ids ids' : IdSupply} {op : InstanceOp α}
    (h : Reached policy gpus runSpec o known now ids op ids') :
    (∃ s, op.stateOps = [s]) ∨ ∃ tasks : List Task, op.stateOps = tasks.map .launchEphemeral := by
  cases h with
  | launched m ephemeral found made =>
    obtain ⟨tasks, launches⟩ := launches_of_made made
    exact .inr ⟨tasks, launches.stateOps⟩
  | relaunched => exact .inl ⟨_, rfl⟩
  | reserved => exact .inl ⟨_, rfl⟩

namespace Scheduler

variable {α : Type} [Amount α]

/-- When an operation that was decided on is dropped, the ops before the one that failed stay
recorded. They are launches of tasks that had not been known, and these tasks stand in the tracker
and in the repository; nothing else has changed. So tracker and repository are as they were before
the operation exactly if its first op is the one that failed. -/
theorem record_failed {s s' : Scheduler α} {policy : LaunchPolicy} {gpus : GpuPolicy}
    {runSpec : RunSpec α} {o : Offer α} {known : List Instance} {additional : Nat}
    {now : Timestamp} {ids ids' : IdSupply} {op : InstanceOp α} (agree : s.books.Agree)
    (dated : Decision.Dated policy runSpec now)
    (decided : Decision.evaluate policy gpus runSpec o known additional now ids =
      (.ok (.op op), ids'))
    (fails : s.record op = (false, s')) :
    ∃ done last rest, op.stateOps = done ++ last :: rest ∧
      (s.books.SameRecords s'.books ↔ done = []) ∧
      (∀ x ∈ done, ∃ t, x = .launchEphemeral t ∧ s.books.tracker.task? t.id = none ∧
        s'.books.Stands t) ∧
      ∀ k, (∀ x ∈ done, x.taskId ≠ k) →
        s'.books.tracker.task? k = s.books.tracker.task? k ∧
          s'.books.repository.documents.find? k = s.books.repository.documents.find? k := by
  have reached := (Decision.reached_evaluate decided).2
  have storable := reached.storable dated
  obtain ⟨failed, rfl⟩ := Prod.mk.inj fails
  obtain ⟨done, last, rest, split, recorded, tracker, documents⟩ :=
    Books.recordAll_failed agree storable failed
  have sound : s.books.Sound := ⟨agree.wellFormed.assembled, agree.keyed⟩
  have remain : ∀ x ∈ done, ∃ t, x = .launchEphemeral t ∧ s.books.tracker.task? t.id = none ∧
      (s.books.recordAll s.storeTimeout op.stateOps).2.Stands t := by
    rcases reached.stateOps_cases with ⟨only, one⟩ | ⟨tasks, launches⟩
    · rw [one, List.singleton_eq_append_iff] at split
      intro x hx
      rcases split with ⟨rfl, -⟩ | ⟨-, impossible⟩
      · cases hx
      · cases impossible
    · obtain ⟨before, after, rfl, rfl, -⟩ := List.map_eq_append_iff.1 (launches ▸ split)
      have readsBack : ∀ t ∈ before, ReadsBack t := fun t ht =>
        storable (.launchEphemeral t) (by
          rw [launches]
          exact List.mem_map.2 ⟨t, List.mem_append_left _ ht, rfl⟩)
      intro x hx
      obtain ⟨t, ht, rfl⟩ := List.mem_map.1 hx
      have unknown := Books.unknown_of_recordAll_launches sound recorded t ht
      obtain ⟨known, stored⟩ := Books.stands_recordAll_launches agree.wellFormed agree.keyed
        recorded t ht (readsBack t ht)
      exact ⟨t, rfl, unknown, tracker ▸ known, stored.of_find? (by rw [documents])⟩
  refine ⟨done, last, rest, split, ⟨?_, ?_⟩, remain, ?_⟩
  · intro same
    cases done with
    | nil => rfl
    | cons x more =>
      obtain ⟨t, -, unknown, stands⟩ := remain x List.mem_cons_self
      have known : s.books.tracker.task? t.id = some t := by
        rw [← same.1]
        exact stands.1
      exact nomatch unknown.symm.trans known
  · rintro rfl
    exact ⟨tracker, documents⟩
  · intro k others
    obtain ⟨tracker', documents'⟩ := Books.frame_recordAll sound s.storeTimeout others
    exact ⟨(congrArg (Tracker.task? · k) tracker).trans tracker',
      (congrArg (OrderedMap.find? · k) documents).trans documents'⟩

end Scheduler

/-! ## A task group of two -/

def Sample.roomyOffer : Offer Rat :=
  { Sample.offer with
    resources := [.scalar .cpus 4, .scalar .mem 128, .scalar .disk 128] }

/-- Nothing is recorded yet. The first write will be done without an answer, the second refused. -/
def Sample.faulty : Scheduler Rat :=
  { Sample.scheduler with books := Books.empty.addFaults [.lostAck, .reject] }

/-- What the offer comes to for the task group. -/
def Sample.groupDecision : Decision.Result Rat :=
  Decision.evaluate .usual .restricted Sample.pod Sample.roomyOffer [] 1 ⟨0, 0⟩
    (.numbered ⟨5, 0⟩)

theorem Sample.agree_faulty : Sample.faulty.books.Agree :=
  Books.agree_empty.addFaults _

/-- How many tasks are known after an operation that cannot be recorded. -/
def Sample.leftBehind? (op : InstanceOp Rat) : Option Nat :=
  if (Sample.faulty.record op).1 then none
  else some (Sample.faulty.record op).2.books.tracker.tasks.length

/-- The second task of the group cannot be recorded, and the first stays known. -/
theorem Sample.exists_dropped : ∃ op ids' s', Sample.groupDecision = (.ok (.op op), ids') ∧
    Sample.faulty.record op = (false, s') ∧ s'.books.tracker.tasks.length = 1 := by
  have outcome : (Sample.groupDecision.1.toOption.bind Decision.op?).bind Sample.leftBehind? =
      some 1 := by
    decide +kernel
  obtain ⟨op, decided, left⟩ := Option.bind_eq_some_iff.1 outcome
  obtain ⟨decision, answered, chosen⟩ := Option.bind_eq_some_iff.1 decided
  have hop : Sample.groupDecision.1 = .ok (.op op) := by
    cases hd : Sample.groupDecision.1 with
    | error e =>
      rw [hd] at answered
      cases answered
    | ok d =>
      rw [hd] at answered
      obtain rfl : d = decision := Option.some.inj answered
      cases d with
      | op op' =>
        obtain rfl := Option.some.inj chosen
        rfl
      | fullyPlaced => cases chosen
      | mismatch reasons => cases chosen
  unfold Sample.leftBehind? at left
  split at left
  · cases left
  · next fails =>
    exact ⟨op, Sample.groupDecision.2, (Sample.faulty.record op).2, Prod.ext hop rfl,
      Prod.ext (Bool.eq_false_iff.2 fails) rfl, Option.some.inj left⟩

/-- Tracker and repository do not go back to what they were before the group. -/
theorem Sample.dropped_group : Sample.faulty.books.Agree ∧ ∃ op ids' s',
    Sample.groupDecision = (.ok (.op op), ids') ∧ Sample.faulty.record op = (false, s') ∧
      ¬Sample.faulty.books.SameRecords s'.books := by
  obtain ⟨op, ids', s', decided, fails, left⟩ := Sample.exists_dropped
  refine ⟨Sample.agree_faulty, op, ids', s', decided, fails, ?_⟩
  intro same
  rw [same.1] at left
  exact absurd left (by decide +kernel)

/-- One op was done before the one that failed, the launch of a task that stands. -/
theorem record_failed_sample : Sample.faulty.books.Agree ∧
    Decision.Dated .usual Sample.pod ⟨0, 0⟩ ∧ ∃ op ids' s',
      Sample.groupDecision = (.ok (.op op), ids') ∧ Sample.faulty.record op = (false, s') ∧
      ∃ t done last rest, op.stateOps = .launchEphemeral t :: done ++ last :: rest ∧
        Sample.faulty.books.tracker.task? t.id = none ∧ s'.books.Stands t := by
  have dated : Decision.Dated .usual Sample.pod ⟨0, 0⟩ := Decision.dated_sample rfl
  obtain ⟨op, ids', s', decided, fails, left⟩ := Sample.exists_dropped
  obtain ⟨done, last, rest, split, unchanged, remain, -⟩ :=
    Scheduler.record_failed Sample.agree_faulty dated decided fails
  refine ⟨Sample.agree_faulty, dated, op, ids', s', decided, fails, ?_⟩
  cases done with
  | nil =>
    rw [(unchanged.2 rfl).1] at left
    exact absurd left (by decide +kernel)
  | cons x more =>
    obtain ⟨t, rfl, unknown, stands⟩ := remain x List.mem_cons_self
    exact ⟨t, more, last, rest, split, unknown, stands⟩

end Placement
