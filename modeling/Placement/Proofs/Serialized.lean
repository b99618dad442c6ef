/-
Calls at once give no run spec more instances than it asks for, as long as its lock stays in the table.

* `Tracker.HasRoom` says that the places of a run spec stay within a limit also when one more instance
  takes one. It is kept when that instance changes, however it does (`HasRoom.of_others`).
* `Traffic.Limited` is the invariant: there is room for the instance of each op that is still to be
  recorded. A decision makes sure of it (`Limited.decided`). It stays so because no other call has an op
  of the run spec to record (`Limited.recorded`).
* `Traffic.serialized_run` is the main result. `Sample.overrun` has two ways past it: a lock that leaves
  the table while a call holds it, and volumes that leave the declaration of a run spec while an instance
  waits on its reservation.
-/
import Placement.Proofs.Guarded
import Placement.Proofs.Pending
import Placement.Proofs.Placed

namespace Placement

variable {α : Type}

/-! ## Room for an instance -/

namespace Tracker

variable {t t' : Tracker} {runSpec other : RunSpec α} {limit : Nat} {k : InstanceId}

/-- The instance takes up a place of the run spec. -/
def isCounted (t : Tracker) (runSpec : RunSpec α) (k : InstanceId) : Bool :=
  (t.instances.find? k).any fun i => takesPlace runSpec i && i.runSpecId == runSpec.id

/-- The places of the run spec stay within the limit, also when the instance takes one. -/
def HasRoom (t : Tracker) (runSpec : RunSpec α) (limit : Nat) (k : InstanceId) : Prop :=
  t.placesTaken runSpec + (if t.isCounted runSpec k then 0 else 1) ≤ limit

theorem HasRoom.places (h : t.HasRoom runSpec limit k) : t.placesTaken runSpec ≤ limit :=
  Nat.le_trans (Nat.le_add_right _ _) h

/-- Where one instance alone changes, its place is taken or left and no other. -/
theorem placesTaken_of_others (others : ∀ j, j ≠ k → t'.instances.find? j = t.instances.find? j) :
    t'.placesTaken runSpec + (if t.isCounted runSpec k then 1 else 0) =
      t.placesTaken runSpec + if t'.isCounted runSpec k then 1 else 0 :=
  countP_knownInstances others runSpec.id (takesPlace runSpec)

/-- The room for an instance stays, whatever becomes of the instance. -/
theorem HasRoom.of_others (h : t.HasRoom runSpec limit k)
    (others : ∀ j, j ≠ k → t'.instances.find? j = t.instances.find? j) :
    t'.HasRoom runSpec limit k := by
  have places : t'.placesTaken runSpec + (if t.isCounted runSpec k then 1 else 0) =
    t.placesTaken runSpec + if t'.isCounted runSpec k then 1 else 0 := placesTaken_of_others others
  unfold HasRoom at h ⊢
  cases before : t.isCounted runSpec k <;> cases after : t'.isCounted runSpec k <;>
    simp only [before, after, Bool.false_eq_true, if_true, if_false] at h places ⊢ <;> omega

/-- Declarations of one id that agree on volumes count the same places. -/
theorem placesTaken_congr (id : other.id = runSpec.id)
    (resident : other.isResident = runSpec.isResident) :
    t.placesTaken other = t.placesTaken runSpec := by
  have same : takesPlace other = takesPlace runSpec := by
    funext i
    rw [takesPlace, takesPlace, resident]
  rw [placesTaken, placesTaken, id, same]

end Tracker

/-- An op leaves all instances but that of its task as they are. -/
theorem Books.find?_process_other {b : Books} (h : b.Sound) (limit : Span) {op : StateOp}
    {j : InstanceId} (other : j ≠ op.taskId.instanceId) :
    (b.process limit op).2.tracker.instances.find? j = b.tracker.instances.find? j := by
  obtain ⟨frame, sound⟩ := frame_process h limit op
  refine Tracker.find?_eq_of_task?_eq sound.assembled h.assembled fun key hkey => ?_
  refine frame.tracker key ?_
  rintro rfl
  exact other hkey.symm

/-- What is asked for under another declaration of the same id goes with this one. -/
structure RunSpec.Covers (runSpec other : RunSpec α) : Prop where
  resident : other.isResident = runSpec.isResident
  instances : other.instances ≤ runSpec.instances

instance (runSpec other : RunSpec α) : Decidable (runSpec.Covers other) :=
  decidable_of_iff (other.isResident = runSpec.isResident ∧ other.instances ≤ runSpec.instances)
    ⟨fun h => ⟨h.1, h.2⟩, fun h => ⟨h.resident, h.instances⟩⟩

namespace Traffic

variable {t t' : Traffic α} {place : Nat} {call call' : Call α} {runSpec : RunSpec α} {limit : Nat}
  {last : IdSupply}

/-! ## The invariant -/

/-- The places of a run spec stay within the limit, also when what is still to be recorded for it is
recorded. -/
structure Limited (runSpec : RunSpec α) (limit : Nat) (t : Traffic α) : Prop where
  places : t.scheduler.books.tracker.placesTaken runSpec ≤ limit
  room : ∀ place turn ops, t.Has Call.pending? place (turn, ops) → turn.runSpec.id = runSpec.id →
    ∀ s ∈ ops, t.scheduler.books.tracker.HasRoom runSpec limit s.taskId.instanceId

/-- A step that leaves the books alone. -/
theorem Limited.of_books (h : t.Limited runSpec limit)
    (books : t'.scheduler.books = t.scheduler.books) (calls : t'.calls = t.calls.set place call')
    (here : ∀ turn ops, call'.pending? = some (turn, ops) → turn.runSpec.id = runSpec.id →
      ∀ s ∈ ops, t.scheduler.books.tracker.HasRoom runSpec limit s.taskId.instanceId) :
    t'.Limited runSpec limit := by
  constructor
  · rw [books]
    exact h.places
  · intro q turn ops has own s hs
    rw [books]
    rcases has.before calls with ⟨-, has⟩ | ⟨-, has⟩
    · exact here turn ops has own s hs
    · exact h.room q turn ops has own s hs

section

variable [Amount α] {turn : Turn α} {additional : Nat} {r mid : Round α} {op : InstanceOp α}

/-- There is room for the instance that a decision is for: a place is free, or it has one already. -/
theorem Limited.decided (h : t.Limited runSpec limit) (coherent : t.Coherent last)
    (before : r.scheduler = t.scheduler)
    (decides : Round.Decides turn.runSpec additional r mid (some op))
    (given : mid.scheduler.ids.ulidsGiven ≤ last.ulidsGiven) (own : turn.runSpec.id = runSpec.id)
    (covers : runSpec.Covers turn.runSpec) (enough : runSpec.instances ≤ limit) :
    ∀ s ∈ op.stateOps, t.scheduler.books.tracker.HasRoom runSpec limit s.taskId.instanceId := by
  intro s hs
  obtain ⟨k, subject, -⟩ := coherent.subject before decides given
  have places : t.scheduler.books.tracker.placesTaken turn.runSpec =
    t.scheduler.books.tracker.placesTaken runSpec := Tracker.placesTaken_congr own covers.resident
  rw [(subject.named s hs).1, Tracker.HasRoom]
  cases known : t.scheduler.books.tracker.instances.find? k with
  | none =>
    have missing := (decides.missing rfl).2
    have reached := decides.reached rfl
    rw [before] at missing reached
    rw [← List.countP_eq_length_filter, ← Tracker.placedCount] at missing
    have room := reached.room coherent.sound.assembled t.scheduler.perm_known missing subject known
    rw [places] at room
    have instances := covers.instances
    split <;> omega
  | some i =>
    obtain ⟨resident, -⟩ := subject.known i known
    obtain ⟨spec, -, waits, -⟩ := subject.before coherent.sound.assembled known
    have counted : t.scheduler.books.tracker.isCounted runSpec k = true := by
      rw [Tracker.isCounted, known, Option.any_some, Tracker.takesPlace, ← covers.resident, resident,
        waits, spec, own]
      simp
    rw [if_pos counted]
    exact h.places

end

/-- An op of another run spec leaves the places of this one as they are. -/
theorem Coherent.isCounted_eq_false (h : t.Coherent last) {s : StateOp} (inUse : t.InUse s.taskId)
    (other : s.taskId.runSpecId ≠ runSpec.id) {tracker : Tracker} (assembled : tracker.Assembled)
    (before : ∀ k, (tracker.task? k).isSome = true → t.InUse k) :
    tracker.isCounted runSpec s.taskId.instanceId = false := by
  unfold Tracker.isCounted
  cases hi : tracker.instances.find? s.taskId.instanceId with
  | none => rfl
  | some i =>
    obtain ⟨k, u, known, hinstance, spec⟩ := Tracker.exists_task? assembled hi
    have same := h.uniform k s.taskId (before k (by rw [known]; rfl)) inUse hinstance
    have differs : ¬ i.runSpecId = runSpec.id := fun heq => other (same.symm.trans (spec.trans heq))
    simp [differs]

/-- Recording an op of the run spec takes the room that there is for its instance. No other call has an
op of the run spec to record. -/
theorem Limited.recorded_own (h : t.Limited runSpec limit) (coherent : t.Coherent last)
    (locked : t.Locked runSpec.id) {turn : Turn α} {s : StateOp} {rest : List StateOp}
    (own : turn.runSpec.id = runSpec.id) (at_ : t.calls[place]? = some call)
    (calls : t'.calls = t.calls.set place call') (records : t.Records call t' call' turn s rest) :
    t'.Limited runSpec limit := by
  have pending : t.Has Call.pending? place (turn, s :: rest) := ⟨call, at_, records.before⟩
  have room : t'.scheduler.books.tracker.HasRoom runSpec limit s.taskId.instanceId := by
    rw [records.books]
    exact (h.room place turn (s :: rest) pending own s List.mem_cons_self).of_others
      fun j => Books.find?_process_other coherent.sound _
  refine ⟨room.places, fun q turn' ops has own' s' hs' => ?_⟩
  rcases has.before calls with ⟨-, has⟩ | ⟨other, has⟩
  · obtain ⟨rfl, rfl⟩ := Prod.mk.inj (records.after _ has)
    obtain ⟨k, named⟩ := coherent.named place _ _ pending
    rw [(named s' (List.mem_cons_of_mem s hs')).1, ← (named s List.mem_cons_self).1]
    exact room
  · exact absurd (locked.eq_of_held has.held pending.held own' own) other

/-- Recording an op of another run spec changes an instance that is none of this one. -/
theorem Limited.recorded_other (h : t.Limited runSpec limit) (coherent : t.Coherent last)
    {turn : Turn α} {s : StateOp} {rest : List StateOp} (other : turn.runSpec.id ≠ runSpec.id)
    (at_ : t.calls[place]? = some call) (calls : t'.calls = t.calls.set place call')
    (records : t.Records call t' call' turn s rest) : t'.Limited runSpec limit := by
  have pending : t.Has Call.pending? place (turn, s :: rest) := ⟨call, at_, records.before⟩
  have inUse := inUse_of_pending pending List.mem_cons_self
  obtain ⟨k, named⟩ := coherent.named place turn (s :: rest) pending
  have differs : s.taskId.runSpecId ≠ runSpec.id := by
    rw [(named s List.mem_cons_self).2]
    exact other
  have others : ∀ j, j ≠ s.taskId.instanceId → t'.scheduler.books.tracker.instances.find? j =
      t.scheduler.books.tracker.instances.find? j := by
    intro j hj
    rw [records.books]
    exact Books.find?_process_other coherent.sound _ hj
  have assembled : t'.scheduler.books.tracker.Assembled := by
    rw [records.books]
    exact (Books.frame_process coherent.sound _ s).2.assembled
  have counted : t.scheduler.books.tracker.isCounted runSpec s.taskId.instanceId = false :=
    coherent.isCounted_eq_false inUse differs coherent.sound.assembled fun _ => .inl
  have counted' : t'.scheduler.books.tracker.isCounted runSpec s.taskId.instanceId = false :=
    coherent.isCounted_eq_false inUse differs assembled
      fun a known => InUse.of_records coherent.sound at_ calls records (.inl known)
  have places : t'.scheduler.books.tracker.placesTaken runSpec =
      t.scheduler.books.tracker.placesTaken runSpec := by
    have count : t'.scheduler.books.tracker.placesTaken runSpec + _ = _ :=
      Tracker.placesTaken_of_others others
    rw [counted, counted'] at count
    exact count
  refine ⟨places ▸ h.places, fun q turn' ops has' own s' hs' => ?_⟩
  rcases has'.before calls with ⟨-, left⟩ | ⟨-, has'⟩
  · obtain ⟨rfl, -⟩ := Prod.mk.inj (records.after _ left)
    exact absurd own other
  · -- The instance of the other op is not the one that has changed.
    obtain ⟨k', named'⟩ := coherent.named q turn' ops has'
    have apart : s'.taskId.instanceId ≠ s.taskId.instanceId := by
      intro same
      have specs := coherent.uniform _ _ (inUse_of_pending has' hs') inUse same
      rw [(named' s' hs').2, own] at specs
      exact differs specs.symm
    have room := h.room q turn' ops has' own s' hs'
    rw [Tracker.HasRoom, places, Tracker.isCounted, others _ apart]
    exact room

/-- The step. -/
theorem Limited.step [Amount α] (h : t.Limited runSpec limit) (coherent : t.Coherent last)
    (locked : t.Locked runSpec.id) (enough : runSpec.instances ≤ limit)
    (covers : ∀ v ∈ t.declared, v.id = runSpec.id → runSpec.Covers v)
    (at_ : t.calls[place]? = some call) (calls : t'.calls = t.calls.set place call')
    (step : t.Writes call t' call') (given : t'.scheduler.ids.ulidsGiven ≤ last.ulidsGiven) :
    t'.Limited runSpec limit := by
  cases step with
  | still books ids nothing =>
    refine h.of_books books calls fun turn ops left => ?_
    cases nothing.symm.trans left
  | decided turn has before decides after pending =>
    have books : t'.scheduler.books = t.scheduler.books := by
      rw [after, decides.books, before]
    refine h.of_books books calls fun turn' ops left own => ?_
    obtain ⟨rfl, rfl⟩ := Prod.mk.inj (Option.some.inj (pending.symm.trans left))
    exact h.decided coherent before decides (after ▸ given) own
      (covers _ (mem_declared_of_turn at_ has) own) enough
  | recorded turn s rest records =>
    by_cases own : turn.runSpec.id = runSpec.id
    · exact h.recorded_own coherent locked own at_ calls records
    · exact h.recorded_other coherent own at_ calls records

/-! ## Runs -/

section

variable [Amount α] {schedule : List Nat}

theorem Writes.given (h : t.Writes call t' call') :
    t.scheduler.ids.ulidsGiven ≤ t'.scheduler.ids.ulidsGiven := by
  cases h with
  | still books ids nothing => exact ids.ulidsGiven
  | decided turn has before decides after pending =>
    rw [after, ← before]
    exact decides.keeps.ids.ulidsGiven
  | recorded turn s rest records => rw [records.ids]

theorem given_run (t : Traffic α) (schedule : List Nat) :
    t.scheduler.ids.ulidsGiven ≤ (t.run schedule).scheduler.ids.ulidsGiven := by
  induction schedule generalizing t with
  | nil => exact Nat.le_refl _
  | cons place rest ih =>
    refine Nat.le_trans ?_ (ih ((t.step? place).getD t))
    cases step : t.step? place with
    | none => exact Nat.le_refl _
    | some t' =>
      obtain ⟨call, call', -, -, -, -, writes⟩ := exists_stepped step
      exact writes.given

/-- The run. -/
theorem Limited.run (h : t.Limited runSpec limit) (coherent : t.Coherent last)
    (locked : t.Locked runSpec.id) (enough : runSpec.instances ≤ limit)
    (covers : ∀ v ∈ t.declared, v.id = runSpec.id → runSpec.Covers v)
    (quiet : t.undisturbed runSpec.id schedule = true)
    (given : (t.run schedule).scheduler.ids.ulidsGiven ≤ last.ulidsGiven) :
    (t.run schedule).Limited runSpec limit := by
  induction schedule generalizing t with
  | nil => exact h
  | cons place rest ih =>
    rw [undisturbed, Bool.and_eq_true, Bool.not_eq_true'] at quiet
    have locked' := locked.step quiet.1
    have given' := Nat.le_trans (given_run _ rest) given
    rw [run] at given ⊢
    cases step : t.step? place with
    | none =>
      rw [step] at quiet given
      exact ih h coherent locked covers quiet.2 given
    | some t' =>
      rw [step] at quiet locked' given given'
      obtain ⟨call, call', at_, calls, declared, -, writes⟩ := exists_stepped step
      exact ih (h.step coherent locked enough covers at_ calls writes given')
        (coherent.step at_ calls writes given') locked'
        (fun v hv => covers v (declared v hv)) quiet.2 given

end

/-! ## New calls -/

end Traffic

/-- Nothing has been done for the call yet. -/
def Call.IsNew : Call α → Prop
  | offer c => c = .start c.offer
  | add _ _ finished => finished = false
  | remove _ stage => stage = .queue

theorem Call.isNew_start (offer : Offer α) : (Call.offer (.start offer)).IsNew := rfl

theorem Call.IsNew.turn? {call : Call α} (h : call.IsNew) : call.turn? = none := by
  cases call with
  | offer c =>
    rw [show c = .start c.offer from h]
    rfl
  | add runSpec count finished => rfl
  | remove id stage => rfl

namespace Traffic

variable {s : Scheduler α} {calls : List (Call α)} {place : Nat}

theorem not_turn_start (new : ∀ call ∈ calls, call.IsNew) (turn : Turn α) :
    ¬ (start s calls).Has Call.turn? place turn := by
  rintro ⟨call, at_, has⟩
  cases (new call (List.mem_of_getElem? at_)).turn?.symm.trans has

theorem locked_start (new : ∀ call ∈ calls, call.IsNew) (id : RunSpecId) :
    (start s calls).Locked id :=
  ⟨fun _ turn has _ => absurd has (not_turn_start new turn),
    fun _ turn has => absurd has.turn (not_turn_start new turn)⟩

theorem limited_start (new : ∀ call ∈ calls, call.IsNew) (runSpec : RunSpec α) {limit : Nat}
    (places : s.books.tracker.placesTaken runSpec ≤ limit) :
    (start s calls).Limited runSpec limit :=
  ⟨places, fun _ turn _ has _ => absurd has.held.turn (not_turn_start new turn)⟩

theorem coherent_start (new : ∀ call ∈ calls, call.IsNew) {last : IdSupply}
    (wellFormed : s.books.tracker.WellFormed) (keyed : s.books.repository.Keyed)
    (fresh : s.ids.Fresh last s.books.tracker) : (start s calls).Coherent last := by
  have known : ∀ a, (start s calls).InUse a → (s.books.tracker.task? a).isSome = true := by
    rintro a (known | ⟨place, turn, ops, has, -⟩)
    · exact known
    · exact absurd has.held.turn (not_turn_start new turn)
  refine ⟨⟨wellFormed.assembled, keyed⟩,
    fun a b ha hb => wellFormed.uniform a b (known a ha) (known b hb), ?_, fresh.distinct,
    fun _ turn _ has => absurd has.held.turn (not_turn_start new turn)⟩
  intro a ha n given until_ same
  have unknown := fresh.unknown n given until_
  obtain ⟨u, hu⟩ := Option.isSome_iff_exists.1 (known a ha)
  obtain ⟨i, hi, -⟩ := Option.bind_eq_some_iff.1 hu
  rw [same] at hi
  cases unknown.symm.trans hi

/-- Any number of calls take steps in any order, and the lock of a run spec leaves the table only while no
call has it in mind. Then at most one call at a time has decided on the run spec and has not recorded all
of it. If all that is declared for the run spec agrees on whether it has volumes and asks for no more
instances than one declaration does, then no more of its places are taken than that one asks for; those
beyond, if there are any, had been taken before. This holds whatever faults wait in the store. Identifiers
that are given on the way have to be fresh. -/
theorem serialized_run [Amount α] {id : RunSpecId} {schedule : List Nat}
    (new : ∀ call ∈ calls, call.IsNew)
    (quiet : (start s calls).undisturbed id schedule = true) :
    (((start s calls).run schedule).recordingFor id).length ≤ 1 ∧
      ∀ runSpec : RunSpec α, runSpec.id = id → s.books.tracker.WellFormed →
        s.books.repository.Keyed →
        s.ids.Fresh ((start s calls).run schedule).scheduler.ids s.books.tracker →
        (∀ v ∈ (start s calls).declared, v.id = id → runSpec.Covers v) →
        ((start s calls).run schedule).scheduler.books.tracker.placesTaken runSpec ≤
          max (s.books.tracker.placesTaken runSpec) runSpec.instances := by
  have locked := locked_start (s := s) new id
  refine ⟨(locked.run quiet).length_recordingFor, ?_⟩
  rintro runSpec rfl wellFormed keyed fresh covers
  have coherent := coherent_start new wellFormed keyed fresh
  have limited := limited_start (s := s) new runSpec
    (Nat.le_max_left (s.books.tracker.placesTaken runSpec) runSpec.instances)
  exact (limited.run coherent locked (Nat.le_max_right _ _) covers quiet (Nat.le_refl _)).places

end Traffic

/-! ## Calls that get into each other's way -/

/-- A run spec of one instance, without volumes. -/
def Sample.single : RunSpec Rat :=
  { Sample.runSpec Sample.waitingTask.runSpecId [] [] with instances := 1 }

/-- A scheduler that waits for one launch of it. -/
def Sample.waiter (books : Books) : Scheduler Rat :=
  { Sample.scheduler with books := books, queue := LaunchQueue.empty.add Sample.single 1 }

/-- Two offers, and a run spec that is removed and queued again. -/
def Sample.calls : List (Call Rat) :=
  [.offer (.start Sample.offer), .remove Sample.single.id .queue, .add Sample.single 1 false,
    .offer (.start { Sample.offer with id := ⟨.ofNat 5⟩ })]

theorem Sample.isNew_calls : ∀ call ∈ Sample.calls, call.IsNew := by
  simp only [Sample.calls, List.forall_mem_cons]
  exact ⟨Call.isNew_start _, rfl, rfl, Call.isNew_start _, by simp⟩

/-- The first offer comes to a launch and has to wait with it until the run spec is removed with its lock
and queued again. Then the second offer comes to a launch. -/
def Sample.crossing : List Nat := [0, 0, 0, 0, 0, 1, 1, 1, 2, 3, 3, 3, 3, 3]

/-- The lock is removed at the end, so the second offer waits until the first gives it back. -/
def Sample.queueing : List Nat :=
  [0, 0, 0, 0, 0, 1, 1, 2, 3, 3, 3] ++ List.replicate 5 0 ++ List.replicate 5 3 ++ [1]

/-- Books with an instance of the run spec that waits on its reservation. -/
def Sample.waitingBooks : Books :=
  (Books.empty.apply Sample.limit (.reserve Sample.waitingTask)).2

/-- How many instances of the run spec are placed or wait on a reservation. -/
def Sample.heldCount (t : Tracker) : Nat :=
  (t.knownInstances Sample.single.id).countP fun i => i.isPlaced || i.hasReservedTask

/-- With the lock removed, two calls have decided on the run spec and not recorded it, and two instances
are placed in the end. Without volumes in the declaration, one call alone places an instance beside one
that waits. One instance is asked for. -/
theorem Sample.overrun : Sample.single.instances = 1 ∧
    ((Traffic.start (Sample.waiter .empty) Sample.calls).run Sample.crossing).recordingFor
      Sample.single.id = [0, 3] ∧
    Sample.heldCount ((Traffic.start (Sample.waiter .empty) Sample.calls).run
      (Sample.crossing ++ List.replicate 5 0 ++ List.replicate 5 3)).scheduler.books.tracker = 2 ∧
    Sample.heldCount Sample.waitingBooks.tracker = 1 ∧
    Sample.heldCount ((Traffic.start (Sample.waiter Sample.waitingBooks)
      [.offer (.start Sample.offer)]).run (List.replicate 10 0)).scheduler.books.tracker = 2 := by
  decide +kernel

/-- The same calls place one instance if the lock is removed in the end. -/
theorem serialized_run_sample : (∀ call ∈ Sample.calls, call.IsNew) ∧
    (Traffic.start (Sample.waiter .empty) Sample.calls).undisturbed Sample.single.id
      Sample.queueing = true ∧
    ∃ t, (Traffic.start (Sample.waiter .empty) Sample.calls).run Sample.queueing = t ∧
      (Sample.waiter .empty).ids.Fresh t.scheduler.ids Books.empty.tracker ∧
      t.scheduler.books.tracker.placesTaken Sample.single = 1 ∧
      (t.recordingFor Sample.single.id).length ≤ 1 ∧
      t.scheduler.books.tracker.placesTaken Sample.single ≤
        max (Books.empty.tracker.placesTaken Sample.single) Sample.single.instances := by
  have quiet : (Traffic.start (Sample.waiter .empty) Sample.calls).undisturbed Sample.single.id
      Sample.queueing = true := by
    decide +kernel
  have fresh : (Sample.waiter .empty).ids.Fresh
      ((Traffic.start (Sample.waiter .empty) Sample.calls).run Sample.queueing).scheduler.ids
      Books.empty.tracker := by
    decide +kernel
  have covers : ∀ v ∈ (Traffic.start (Sample.waiter .empty) Sample.calls).declared,
      v.id = Sample.single.id → Sample.single.Covers v := by
    decide +kernel
  obtain ⟨alone, places⟩ := Traffic.serialized_run Sample.isNew_calls quiet
  exact ⟨Sample.isNew_calls, quiet, _, rfl, fresh, by decide +kernel, alone,
    places Sample.single rfl Tracker.wellFormed_empty Books.sound_empty.keyed fresh covers⟩

end Placement
