/-
Recording: what it does to the books that state ops are taken one after another, up to the first
that fails.

* `Books.recordAll_eq_true_iff` says when all are recorded: when none of the replies is a failure.
* `Books.frame_recordAll` says that tasks of other ids stay as they were, in the tracker and in the
  repository, recorded or not.
* `Books.stands_recordAll_launches` says what recorded launches leave: every task of them stands in
  the tracker and, if it is read back from its stored form, in the repository.
-/
import Placement.Proofs.Truthful

namespace Placement

/-- A task after its launch on the reservation it holds. -/
def Task.onReservation (t : Task) (version : Timestamp) (status : TaskStatus)
    (hostPorts : List Port) : Task :=
  { t with
    runSpecVersion := version
    status := status
    hostPorts := hostPorts
    reservation := t.reservation.map fun r => { r with state := .launched } }

namespace Books

variable {b : Books} {limit : Span} {op : StateOp} {ops : List StateOp}

/-! ## One op -/

/-- The reply to an op that did not fail is the change that the op comes to. -/
theorem Handled.reply_eq {reply : Change} {after : Books} (handled : b.Handled op reply after)
    (succeeds : reply.isFailure = false) : reply = b.change op := by
  cases handled with
  | refused e refuses => cases succeeds
  | quiet nothing => rfl
  | settled made there => rfl
  | unverified write reload made unread => cases succeeds
  | corrected write made found there differs => cases succeeds

theorem process_eq_change (succeeds : (b.process limit op).1.isFailure = false) :
    (b.process limit op).1 = b.change op :=
  (handled_process succeeds).reply_eq succeeds

/-- An update that did not fail is followed by the tracker. -/
theorem Handled.task?_update {reply : Change} {after : Books} {new : Task} {old : Option Task}
    (h : b.tracker.Assembled) (handled : b.Handled op reply after)
    (comes : b.change op = .update new old) (succeeds : reply.isFailure = false) :
    after.tracker.task? op.taskId = some new := by
  cases handled with
  | refused e refuses => cases succeeds
  | quiet nothing => exact absurd (comes ▸ trivial) nothing
  | settled made there => rw [made.task? h, comes]; rfl
  | unverified write reload made unread => cases succeeds
  | corrected write made found there differs => cases succeeds

theorem task?_process_update {new : Task} {old : Option Task} (h : b.tracker.Assembled)
    (comes : b.change op = .update new old)
    (succeeds : (b.process limit op).1.isFailure = false) :
    (b.process limit op).2.tracker.task? op.taskId = some new :=
  (handled_process succeeds).task?_update h comes succeeds

theorem frame_process (h : b.Sound) (limit : Span) (op : StateOp) :
    b.Frame op.taskId (b.process limit op).2 ∧ (b.process limit op).2.Sound :=
  frame_processWithin h limit 0 op

/-- The task stands in the tracker and in the repository. -/
def Stands (b : Books) (t : Task) : Prop :=
  b.tracker.task? t.id = some t ∧ b.repository.Holds t.id (some t)

/-- An update that did not fail stands, if the task is read back from its stored form. -/
theorem stands_process {new : Task} {old : Option Task} (wellFormed : b.tracker.WellFormed)
    (keyed : b.repository.Keyed) (comes : b.change op = .update new old) (readsBack : ReadsBack new)
    (succeeds : (b.process limit op).1.isFailure = false) : (b.process limit op).2.Stands new := by
  have only : ∀ t, (b.change op).newTask? = some t → ReadsBack t := by
    intro t ht
    rw [comes] at ht
    exact Option.some.inj ht ▸ readsBack
  have truthful := (truthful_processWithin limit 0 op b wellFormed keyed only).1
  have reply := process_eq_change succeeds
  rw [process] at reply
  rw [reply, comes] at truthful
  have hid : new.id = op.taskId := by
    have hfor := isFor_change wellFormed.assembled op
    rw [comes] at hfor
    exact hfor
  rw [Stands, hid]
  exact truthful

/-! ## Several ops -/

theorem recordAll_cons (rest : List StateOp) : b.recordAll limit (op :: rest) =
    if (b.process limit op).1.isFailure then (false, (b.process limit op).2)
    else (b.process limit op).2.recordAll limit rest := rfl

/-- Recording goes on only after an op that did not fail. -/
theorem recordAll_cons_true {rest : List StateOp} (h : (b.recordAll limit (op :: rest)).1 = true) :
    (b.process limit op).1.isFailure = false ∧
      b.recordAll limit (op :: rest) = (b.process limit op).2.recordAll limit rest := by
  rw [recordAll_cons] at h ⊢
  split at h
  · cases h
  · next succeeds => exact ⟨Bool.eq_false_iff.2 succeeds, if_neg succeeds⟩

/-- One op that is recorded is one that did not fail. -/
theorem recordAll_singleton_true (h : (b.recordAll limit [op]).1 = true) :
    (b.process limit op).1.isFailure = false ∧
      (b.recordAll limit [op]).2 = (b.process limit op).2 := by
  obtain ⟨succeeds, goes_on⟩ := recordAll_cons_true h
  exact ⟨succeeds, by rw [goes_on]; rfl⟩

/-- One op is taken, whether it is recorded or not. -/
theorem recordAll_singleton (b : Books) (limit : Span) (op : StateOp) :
    (b.recordAll limit [op]).2 = (b.process limit op).2 := by
  rw [recordAll_cons]
  split <;> rfl

/-- Ops are all recorded when none of the replies to them is a failure. -/
theorem recordAll_eq_true_iff : (b.recordAll limit ops).1 = true ↔
    ∀ reply ∈ (b.processAll limit ops).1, reply.isFailure = false := by
  induction ops generalizing b with
  | nil => simp [recordAll, processAll]
  | cons op rest ih =>
    rw [recordAll_cons]
    simp only [processAll, List.forall_mem_cons]
    by_cases fails : (b.process limit op).1.isFailure = true
    · simp [fails]
    · simp only [fails, Bool.false_eq_true, if_false, ih, true_and]

theorem sound_recordAll (h : b.Sound) : (b.recordAll limit ops).2.Sound := by
  induction ops generalizing b with
  | nil => exact h
  | cons op rest ih =>
    have step := (frame_process h limit op).2
    rw [recordAll_cons]
    split
    · exact step
    · exact ih step

theorem wellFormed_recordAll (h : b.tracker.WellFormed) :
    (b.recordAll limit ops).2.tracker.WellFormed := by
  induction ops generalizing b with
  | nil => exact h
  | cons op rest ih =>
    have step := wellFormed_processWithin h limit 0 op
    rw [recordAll_cons]
    split
    · exact step
    · exact ih step

/-- Recording leaves tasks of other ids as they were. -/
theorem frame_recordAll (h : b.Sound) (limit : Span) {k : TaskId} (others : ∀ s ∈ ops, s.taskId ≠ k) :
    (b.recordAll limit ops).2.tracker.task? k = b.tracker.task? k ∧
      (b.recordAll limit ops).2.repository.documents.find? k =
        b.repository.documents.find? k := by
  induction ops generalizing b with
  | nil => exact ⟨rfl, rfl⟩
  | cons op rest ih =>
    obtain ⟨frame, sound⟩ := frame_process h limit op
    have other : k ≠ op.taskId := (others op List.mem_cons_self).symm
    rw [recordAll_cons]
    split
    · exact ⟨frame.tracker k other, frame.documents k other⟩
    · obtain ⟨tracker, documents⟩ := ih sound fun s hs => others s (List.mem_cons_of_mem op hs)
      exact ⟨tracker.trans (frame.tracker k other), documents.trans (frame.documents k other)⟩

/-- A task that stands still does after other tasks have been recorded. -/
theorem Stands.recordAll {t : Task} (stands : b.Stands t) (h : b.Sound)
    (others : ∀ s ∈ ops, s.taskId ≠ t.id) : (b.recordAll limit ops).2.Stands t := by
  obtain ⟨tracker, documents⟩ := frame_recordAll h limit others
  exact ⟨tracker.trans stands.1, stands.2.of_find? documents⟩

/-! ## Launches -/

/-- A launch that did not fail was of a task that had not been known. -/
theorem change_launch {t : Task} (succeeds : (b.process limit (.launchEphemeral t)).1.isFailure = false) :
    b.tracker.task? t.id = none ∧ b.change (.launchEphemeral t) = .update t none := by
  have reply := process_eq_change succeeds
  rw [reply] at succeeds
  cases known : b.tracker.task? t.id with
  | none =>
    refine ⟨rfl, ?_⟩
    rw [change, show b.tracker.task? (StateOp.launchEphemeral t).taskId = none from known]
    rfl
  | some u =>
    rw [change, show b.tracker.task? (StateOp.launchEphemeral t).taskId = some u from known] at succeeds
    simp only [StateOp.resolve] at succeeds
    split at succeeds <;> cases succeeds

/-- A launch on a reservation changes the task that waits on it. -/
theorem change_launchOnReservation {t : Task} (version : Timestamp) (status : TaskStatus)
    (hostPorts : List Port) (known : b.tracker.task? t.id = some t) (waits : t.isReserved = true) :
    b.change (.launchOnReservation t.id version status hostPorts) =
      .update (t.onReservation version status hostPorts) (some t) := by
  have reserved : t.condition = .reserved := beq_iff_eq.1 waits
  have live : t.condition.isTerminal = false := by
    rw [reserved]
    rfl
  rw [change, show b.tracker.task?
    (StateOp.launchOnReservation t.id version status hostPorts).taskId = some t from known]
  simp only [StateOp.resolve, live, Bool.false_eq_true, if_false, StateOp.resolveLive, waits,
    if_true]
  rfl

/-- A reservation for a task that is not known is remembered as it is. -/
theorem change_reserve {t : Task} (unknown : b.tracker.task? t.id = none) :
    b.change (.reserve t) = .update t none := by
  rw [change, show b.tracker.task? (StateOp.reserve t).taskId = none from unknown]
  rfl

/-- A recorded reservation for a task that was not known stands. -/
theorem stands_recordAll_reserve {t : Task} (wellFormed : b.tracker.WellFormed)
    (keyed : b.repository.Keyed) (unknown : b.tracker.task? t.id = none) (readsBack : ReadsBack t)
    (done : (b.recordAll limit [.reserve t]).1 = true) :
    (b.recordAll limit [.reserve t]).2.Stands t := by
  obtain ⟨succeeds, after⟩ := recordAll_singleton_true done
  rw [after]
  exact stands_process wellFormed keyed (change_reserve unknown) readsBack succeeds

/-- Recorded launches are of tasks that had not been known. -/
theorem unknown_of_recordAll_launches {ts : List Task} (h : b.Sound)
    (done : (b.recordAll limit (ts.map .launchEphemeral)).1 = true) :
    ∀ t ∈ ts, b.tracker.task? t.id = none := by
  induction ts generalizing b with
  | nil => simp
  | cons u rest ih =>
    obtain ⟨succeeds, goes_on⟩ := recordAll_cons_true done
    obtain ⟨unknown, comes⟩ := change_launch succeeds
    obtain ⟨frame, sound⟩ := frame_process h limit (.launchEphemeral u)
    intro t ht
    rcases List.mem_cons.1 ht with rfl | ht
    · exact unknown
    · have later := ih sound (by rw [← goes_on]; exact done) t ht
      by_cases heq : t.id = u.id
      · exact heq ▸ unknown
      · exact (frame.tracker t.id heq).symm.trans later

/-- Launches that are recorded after that of a task are of other tasks. -/
theorem ne_of_recordAll_launches {u : Task} {rest : List Task} (h : b.Sound)
    (done : (b.recordAll limit ((u :: rest).map .launchEphemeral)).1 = true) :
    ∀ s ∈ rest.map StateOp.launchEphemeral, s.taskId ≠ u.id := by
  obtain ⟨succeeds, goes_on⟩ := recordAll_cons_true done
  have known := task?_process_update h.assembled (change_launch succeeds).2 succeeds
  have sound := (frame_process h limit (.launchEphemeral u)).2
  intro s hs heq
  obtain ⟨t, ht, rfl⟩ := List.mem_map.1 hs
  have unknown := unknown_of_recordAll_launches sound (by rw [← goes_on]; exact done) t ht
  rw [show t.id = u.id from heq] at unknown
  exact nomatch unknown.symm.trans known

/-- All tasks of recorded launches are known afterwards. -/
theorem task?_recordAll_launches {ts : List Task} (h : b.Sound)
    (done : (b.recordAll limit (ts.map .launchEphemeral)).1 = true) :
    ∀ t ∈ ts, (b.recordAll limit (ts.map .launchEphemeral)).2.tracker.task? t.id = some t := by
  induction ts generalizing b with
  | nil => simp
  | cons u rest ih =>
    have others := ne_of_recordAll_launches h done
    obtain ⟨succeeds, goes_on⟩ := recordAll_cons_true done
    have known := task?_process_update h.assembled (change_launch succeeds).2 succeeds
    have sound := (frame_process h limit (.launchEphemeral u)).2
    rw [List.map_cons, goes_on] at done ⊢
    intro t ht
    rcases List.mem_cons.1 ht with rfl | ht
    · exact (frame_recordAll sound limit others).1.trans known
    · exact ih sound done t ht

/-- Recorded launches stand, if the tasks are read back from their stored form. -/
theorem stands_recordAll_launches {ts : List Task} (wellFormed : b.tracker.WellFormed)
    (keyed : b.repository.Keyed) (done : (b.recordAll limit (ts.map .launchEphemeral)).1 = true) :
    ∀ t ∈ ts, ReadsBack t → (b.recordAll limit (ts.map .launchEphemeral)).2.Stands t := by
  induction ts generalizing b with
  | nil => simp
  | cons u rest ih =>
    have h : b.Sound := ⟨wellFormed.assembled, keyed⟩
    have others := ne_of_recordAll_launches h done
    obtain ⟨succeeds, goes_on⟩ := recordAll_cons_true done
    have sound := (frame_process h limit (.launchEphemeral u)).2
    rw [List.map_cons, goes_on] at done ⊢
    intro t ht readsBack
    rcases List.mem_cons.1 ht with rfl | ht
    · have stands := stands_process wellFormed keyed (change_launch succeeds).2 readsBack succeeds
      exact stands.recordAll sound others
    · exact ih (wellFormed_processWithin wellFormed limit 0 _) sound.keyed done t ht readsBack

end Books

end Placement
