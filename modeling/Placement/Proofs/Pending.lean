/-
Calls at once: what has been decided and is not recorded yet.

Between a decision and the last of its state ops, other calls make steps. What they do to the books must
not touch the instance that the ops are for.

* `Traffic.InUse` says that a task is known, or that an op for it is still to be recorded. Only a decision
  brings a task into use (`InUse.of_decided`).
* `Traffic.Coherent` is the invariant: the tasks in use that are of one instance are of one run spec, and
  no identifier that is still to be given is that of an instance in use. `Coherent.step` is the step.
-/
import Placement.Proofs.Fresh
import Placement.Proofs.Traffic

namespace Placement

namespace Traffic

variable {α : Type} {t t' : Traffic α} {place : Nat} {call call' : Call α}

/-! ## Tasks in use -/

/-- The task is known, or an op for it is still to be recorded. -/
def InUse (t : Traffic α) (id : TaskId) : Prop :=
  (t.scheduler.books.tracker.task? id).isSome = true ∨
    ∃ place turn ops, t.Has Call.pending? place (turn, ops) ∧ ∃ s ∈ ops, s.taskId = id

theorem inUse_of_task? {id : TaskId} {u : Task} (h : t.scheduler.books.tracker.task? id = some u) :
    t.InUse id := .inl (by rw [h]; rfl)

theorem inUse_of_pending {turn : Turn α} {ops : List StateOp}
    (h : t.Has Call.pending? place (turn, ops)) {s : StateOp} (hs : s ∈ ops) : t.InUse s.taskId :=
  .inr ⟨place, turn, ops, h, s, hs, rfl⟩

/-- What is still to be recorded elsewhere was so before the step. -/
theorem inUse_of_elsewhere {turn : Turn α} {ops : List StateOp} {q : Nat}
    (h : t'.Has Call.pending? q (turn, ops)) (calls : t'.calls = t.calls.set place call')
    (here : call'.pending? = some (turn, ops) → ∀ s ∈ ops, t.InUse s.taskId) :
    ∀ s ∈ ops, t.InUse s.taskId := by
  rcases h.before calls with ⟨-, has⟩ | ⟨-, has⟩
  · exact here has
  · exact fun s hs => inUse_of_pending has hs

/-- Recording an op brings no task into use. -/
theorem InUse.of_records {turn : Turn α} {s : StateOp} {rest : List StateOp} {id : TaskId}
    (sound : t.scheduler.books.Sound) (at_ : t.calls[place]? = some call)
    (calls : t'.calls = t.calls.set place call') (records : t.Records call t' call' turn s rest)
    (h : t'.InUse id) : t.InUse id := by
  have pending : t.Has Call.pending? place (turn, s :: rest) := ⟨call, at_, records.before⟩
  rcases h with known | ⟨q, turn', ops, has, s', hs', rfl⟩
  · by_cases named : id = s.taskId
    · exact named ▸ inUse_of_pending pending List.mem_cons_self
    · rw [records.books, (Books.frame_process sound _ s).1.tracker id named] at known
      exact .inl known
  · refine inUse_of_elsewhere has calls (fun left => ?_) s' hs'
    obtain ⟨rfl, rfl⟩ := Prod.mk.inj (records.after _ left)
    exact fun s' hs' => inUse_of_pending pending (List.mem_cons_of_mem s hs')

theorem InUse.of_still {id : TaskId} (books : t'.scheduler.books = t.scheduler.books)
    (calls : t'.calls = t.calls.set place call') (nothing : call'.pending? = none)
    (h : t'.InUse id) : t.InUse id := by
  rcases h with known | ⟨q, turn, ops, has, s, hs, rfl⟩
  · exact .inl (books ▸ known)
  · refine inUse_of_elsewhere has calls (fun left => ?_) s hs
    cases nothing.symm.trans left

/-- A task that a decision brings into use is one that it names. -/
theorem InUse.of_decided {turn : Turn α} {ops : List StateOp} {id : TaskId}
    (books : t'.scheduler.books = t.scheduler.books) (calls : t'.calls = t.calls.set place call')
    (pending : call'.pending? = some (turn, ops)) (h : t'.InUse id) :
    t.InUse id ∨ ∃ s ∈ ops, s.taskId = id := by
  rcases h with known | ⟨q, turn', ops', has, s, hs, rfl⟩
  · exact .inl (.inl (books ▸ known))
  · rcases has.before calls with ⟨-, has⟩ | ⟨-, has⟩
    · obtain ⟨rfl, rfl⟩ := Prod.mk.inj (Option.some.inj (pending.symm.trans has))
      exact .inr ⟨s, hs, rfl⟩
    · exact .inl (inUse_of_pending has hs)

/-! ## The invariant -/

/-- The ops are for tasks of one instance of a run spec. -/
def OfOneInstance (id : RunSpecId) (ops : List StateOp) : Prop :=
  ∃ k, ∀ s ∈ ops, s.taskId.instanceId = k ∧ s.taskId.runSpecId = id

/-- Tasks in use that are of one instance are of one run spec. Identifiers that are still to be given,
until `last`, are different, and no instance in use has one. What a call still has to record is of one
instance, and of the run spec of its turn. -/
structure Coherent (last : IdSupply) (t : Traffic α) : Prop where
  sound : t.scheduler.books.Sound
  uniform : ∀ a b, t.InUse a → t.InUse b → a.instanceId = b.instanceId → a.runSpecId = b.runSpecId
  unused : ∀ a, t.InUse a → ∀ n, t.scheduler.ids.ulidsGiven < n → n ≤ last.ulidsGiven →
    a.instanceId ≠ ⟨t.scheduler.ids.ulidAt n⟩
  distinct : ∀ m n, t.scheduler.ids.ulidsGiven < m → m < n → n ≤ last.ulidsGiven →
    t.scheduler.ids.ulidAt m ≠ t.scheduler.ids.ulidAt n
  named : ∀ place turn ops, t.Has Call.pending? place (turn, ops) → OfOneInstance turn.runSpec.id ops

variable {last : IdSupply}

theorem Coherent.fresh (h : t.Coherent last) :
    t.scheduler.ids.Fresh last t.scheduler.books.tracker := by
  refine ⟨fun n given until_ => ?_, h.distinct⟩
  rw [Option.eq_none_iff_forall_ne_some]
  intro i hi
  obtain ⟨k, u, known, hinstance, -⟩ := Tracker.exists_task? h.sound.assembled hi
  exact h.unused k (inUse_of_task? known) n given until_ hinstance

theorem Coherent.named_of_step (h : t.Coherent last) (calls : t'.calls = t.calls.set place call')
    (here : ∀ turn ops, call'.pending? = some (turn, ops) → OfOneInstance turn.runSpec.id ops) :
    ∀ q turn ops, t'.Has Call.pending? q (turn, ops) → OfOneInstance turn.runSpec.id ops := by
  intro q turn ops has
  rcases has.before calls with ⟨-, has⟩ | ⟨-, has⟩
  · exact here turn ops has
  · exact h.named q turn ops has

/-- A step that brings no task into use. -/
theorem Coherent.of_inUse (h : t.Coherent last) (sound : t'.scheduler.books.Sound)
    (ids : t.scheduler.ids.Continues t'.scheduler.ids) (before : ∀ a, t'.InUse a → t.InUse a)
    (calls : t'.calls = t.calls.set place call')
    (named : ∀ turn ops, call'.pending? = some (turn, ops) → OfOneInstance turn.runSpec.id ops) :
    t'.Coherent last := by
  refine ⟨sound, fun a b ha hb => h.uniform a b (before a ha) (before b hb), ?_, ?_,
    h.named_of_step calls named⟩
  · intro a ha n given
    rw [ids.ulidAt]
    exact h.unused a (before a ha) n (Nat.lt_of_le_of_lt ids.ulidsGiven given)
  · intro m n given
    rw [ids.ulidAt]
    exact h.distinct m n (Nat.lt_of_le_of_lt ids.ulidsGiven given)

section

variable [Amount α] {turn : Turn α} {additional : Nat} {r mid : Round α} {op : InstanceOp α}

/-- The instance that a decision is for: a new one, or one that waits. -/
theorem Coherent.subject (h : t.Coherent last) (before : r.scheduler = t.scheduler)
    (decides : Round.Decides turn.runSpec additional r mid (some op))
    (given : mid.scheduler.ids.ulidsGiven ≤ last.ulidsGiven) :
    ∃ k, Decision.Subject t.scheduler.books.tracker turn.runSpec op k ∧
      (t.scheduler.books.tracker.instances.find? k = none →
        k = t.scheduler.ids.nextId.1 ∧
          t.scheduler.ids.ulidsGiven < mid.scheduler.ids.ulidsGiven) := by
  rw [← before]
  exact decides.subject (before ▸ h.sound) (before ▸ h.fresh) given

theorem Coherent.decided (h : t.Coherent last) (before : r.scheduler = t.scheduler)
    (decides : Round.Decides turn.runSpec additional r mid (some op))
    (after : t'.scheduler = mid.scheduler) (calls : t'.calls = t.calls.set place call')
    (pending : call'.pending? = some (turn, op.stateOps))
    (given : t'.scheduler.ids.ulidsGiven ≤ last.ulidsGiven) : t'.Coherent last := by
  have books : t'.scheduler.books = t.scheduler.books := by
    rw [after, decides.books, before]
  have ids : t.scheduler.ids.Continues t'.scheduler.ids := by
    rw [after, ← before]
    exact decides.keeps.ids
  have sound : t'.scheduler.books.Sound := books.symm ▸ h.sound
  obtain ⟨k, subject, next⟩ := h.subject before decides (after ▸ given)
  have named : ∀ turn' ops, call'.pending? = some (turn', ops) →
      OfOneInstance turn'.runSpec.id ops := by
    intro turn' ops left
    obtain ⟨rfl, rfl⟩ := Prod.mk.inj (Option.some.inj (pending.symm.trans left))
    exact ⟨k, subject.named⟩
  cases known : t.scheduler.books.tracker.instances.find? k with
  | some i =>
    obtain ⟨-, -, -, u, -, names, only⟩ := subject.before h.sound.assembled known
    refine h.of_inUse sound ids (fun a inUse => ?_) calls named
    rcases inUse.of_decided books calls pending with already | ⟨s, hs, rfl⟩
    · exact already
    · -- The only op is for the task that waits.
      have same : s.taskId = u.id := List.mem_singleton.1 (names ▸ List.mem_map_of_mem hs)
      have waits := only s.taskId (subject.named s hs).1
      rw [if_pos same] at waits
      exact inUse_of_task? waits
  | none =>
    obtain ⟨rfl, one⟩ := next known
    have first : t.scheduler.ids.ulidsGiven < t.scheduler.ids.ulidsGiven + 1 := Nat.lt_succ_self _
    have later : t.scheduler.ids.ulidsGiven + 1 ≤ t'.scheduler.ids.ulidsGiven := by
      rw [after]
      exact one
    -- No task in use is of the new instance.
    have apart : ∀ a, t.InUse a → ∀ s ∈ op.stateOps, a.instanceId ≠ s.taskId.instanceId := by
      intro a inUse s hs same
      rw [(subject.named s hs).1] at same
      exact h.unused a inUse _ first (Nat.le_trans later given) same
    refine ⟨sound, ?_, ?_, ?_, h.named_of_step calls named⟩
    · intro a b ha hb same
      rcases ha.of_decided books calls pending with ha | ⟨s, hs, rfl⟩ <;>
        rcases hb.of_decided books calls pending with hb | ⟨s', hs', rfl⟩
      · exact h.uniform a b ha hb same
      · exact absurd same (apart a ha s' hs')
      · exact absurd same.symm (apart b hb s hs)
      · exact (subject.named s hs).2.trans (subject.named s' hs').2.symm
    · intro a ha n hn until_
      rw [ids.ulidAt]
      rcases ha.of_decided books calls pending with ha | ⟨s, hs, rfl⟩
      · exact h.unused a ha n (Nat.lt_of_le_of_lt ids.ulidsGiven hn) until_
      · rw [(subject.named s hs).1]
        intro same
        exact h.distinct _ n first (Nat.lt_of_le_of_lt later hn) until_
          (congrArg GeneratedId.ulid same)
    · intro m n hm
      rw [ids.ulidAt]
      exact h.distinct m n (Nat.lt_of_le_of_lt ids.ulidsGiven hm)

/-- The step. -/
theorem Coherent.step (h : t.Coherent last) (at_ : t.calls[place]? = some call)
    (calls : t'.calls = t.calls.set place call') (step : t.Writes call t' call')
    (given : t'.scheduler.ids.ulidsGiven ≤ last.ulidsGiven) : t'.Coherent last := by
  cases step with
  | still books ids nothing =>
    refine h.of_inUse (books.symm ▸ h.sound) ids (fun a inUse => inUse.of_still books calls nothing)
      calls fun turn ops left => ?_
    cases nothing.symm.trans left
  | decided turn has before decides after pending =>
    exact h.decided before decides after calls pending given
  | recorded turn s rest records =>
    refine h.of_inUse ?_ (records.ids.symm ▸ .refl _)
      (fun a inUse => inUse.of_records h.sound at_ calls records) calls ?_
    · rw [records.books]
      exact (Books.frame_process h.sound _ s).2
    · intro turn' ops left
      obtain ⟨rfl, rfl⟩ := Prod.mk.inj (records.after _ left)
      obtain ⟨k, named⟩ := h.named place _ _ ⟨call, at_, records.before⟩
      exact ⟨k, fun s' hs' => named s' (List.mem_cons_of_mem s hs')⟩

end

end Traffic

end Placement
