/-
Ops of different tasks do not get into each other's way.

What concerns one task is its `Shards.View`: the task as it is known, its document, and the work on it.
`Shards.view_step` says that a step of the work on a task depends on the view of that task alone and
leaves all others as they are. The one thing that tasks share is the run spec that their instance belongs
to, and that stays the same for the tasks whose ops are processed (`Tracker.foreign?_putTask`,
`Tracker.foreign?_dropTask`), even where the instance is removed and made again.

So the view after a run depends on the number of steps only (`Shards.view_run`), and a view in which all
ops are answered stays as it is. `Books.outcome_eq` draws from it that the outcome does not depend on the
order in which tasks take turns.
-/
import Mathlib.Logic.Function.Iterate
import Placement.Proofs.Processor
import Placement.Shards

namespace Placement

/-! ## Instances of other run specs -/

namespace Tracker

/-- The run spec of the instance of a task, if it is not that of the task. -/
def foreign? (t : Tracker) (id : TaskId) : Option RunSpecId :=
  (t.instances.find? id.instanceId).bind fun i =>
    if i.runSpecId = id.runSpecId then none else some i.runSpecId

variable {t t' : Tracker}

theorem foreign?_eq_none {id : TaskId} : t.foreign? id = none ↔
    ∀ i, t.instances.find? id.instanceId = some i → i.runSpecId = id.runSpecId := by
  unfold foreign?
  cases t.instances.find? id.instanceId with
  | none => simp
  | some i => simp

/-- A task is refused by the run spec that its instance belongs to. -/
theorem putTask_of_foreign {new : Task} {owner : RunSpecId} (h : t.foreign? new.id = some owner) :
    t.putTask new = .error (.rejected new.id owner) := by
  obtain ⟨i, hi, hspec⟩ := Option.bind_eq_some_iff.1 h
  split at hspec
  · cases hspec
  · next differs =>
    obtain rfl := Option.some.inj hspec
    have found : t.instances.find? new.instanceId = some i := hi
    rw [putTask, found]
    exact if_neg differs

theorem isOk_putTask_of_foreign {new : Task} (h : t.foreign? new.id = none) :
    ∃ t', t.putTask new = .ok t' := by
  unfold putTask
  split
  · next i hi => exact ⟨_, if_pos (foreign?_eq_none.1 h i hi)⟩
  · exact ⟨_, rfl⟩

/-- The instances of a well-formed tracker belong to the run spec of each of their tasks. -/
theorem WellFormed.runSpecId_eq (h : t.WellFormed) {i : Instance} {id : TaskId}
    (known : (t.task? id).isSome = true) (hi : t.instances.find? id.instanceId = some i) :
    i.runSpecId = id.runSpecId := by
  obtain ⟨k, task, hk, hinstance, hspec⟩ := exists_task? h.assembled hi
  rw [← hspec]
  exact h.uniform k id (by rw [hk]; rfl) known hinstance

/-- Taking in a task changes no owner for tasks that go with it. -/
theorem foreign?_putTask (h : t.WellFormed) {new : Task} (hp : t.putTask new = .ok t') {id : TaskId}
    (goes : id.instanceId = new.instanceId → id.runSpecId = new.runSpecId) :
    t'.foreign? id = t.foreign? id := by
  by_cases same : id.instanceId = new.instanceId
  · have before : t.foreign? id = none := by
      cases hf : t.foreign? new.id with
      | none =>
        rw [foreign?_eq_none] at hf ⊢
        intro i hi
        rw [same] at hi
        exact (hf i hi).trans (goes same).symm
      | some owner => cases (putTask_of_foreign hf).symm.trans hp
    have known : (t'.task? new.id).isSome = true := by
      rw [task?_putTask h.assembled hp, if_pos rfl]
      rfl
    rw [before, foreign?_eq_none]
    intro i hi
    rw [same] at hi
    exact ((h.putTask hp).runSpecId_eq known hi).trans (goes same).symm
  · obtain ⟨i, rfl, -, -⟩ := putTask_eq_ok h.assembled hp
    rw [foreign?, find?_setInstance, if_neg same, foreign?]

/-- Nor does forgetting one, even if its instance goes with it. -/
theorem foreign?_dropTask (h : t.WellFormed) (old : Task) {id : TaskId}
    (goes : id.instanceId = old.instanceId → id.runSpecId = old.runSpecId) :
    (t.dropTask old).foreign? id = t.foreign? id := by
  unfold dropTask
  split
  · next i hi =>
    by_cases same : id.instanceId = old.instanceId
    · have hi : t.instances.find? id.instanceId = some i := same ▸ hi
      have assembled := h.assembled _ i hi
      rw [foreign?, find?_setInstance, if_pos same, foreign?, hi,
        Instance.ofTaskMap_erase assembled]
      cases left : Instance.ofTaskMap (i.tasks.erase old.id) with
      | none =>
        -- The instance had no other task, so its run spec is that of the one that is forgotten.
        obtain ⟨k, task, hk, hinstance, hspec⟩ := exists_task? h.assembled hi
        have gone := Instance.ofTaskMap_eq_none left k
        rw [OrderedMap.find?_erase, find?_tasks h.assembled hi, if_pos hinstance, hk] at gone
        split at gone
        · next last =>
          have hspec : i.runSpecId = id.runSpecId := by
            rw [← hspec, last, goes same]
            rfl
          simp [hspec]
        · cases gone
      | some j =>
        obtain ⟨k, task, hk, hspec⟩ := Instance.exists_runSpecId left
        rw [OrderedMap.find?_erase] at hk
        split at hk
        · cases hk
        · obtain ⟨hid, hinstance⟩ := assembled.keyed k task hk
          have known : t.task? k = some task := by
            rw [task?_eq, hinstance, hi, Option.bind_some, hk]
          have owner := h.runSpecId_eq (by rw [known]; rfl) (hinstance ▸ hi)
          have kept : j.runSpecId = i.runSpecId := by
            rw [owner, ← hspec, ← hid]
            rfl
          simp [kept]
    · rw [foreign?, find?_setInstance, if_neg same, foreign?]
  · rfl

/-- A change of one task changes no owner for tasks that go with it. -/
theorem foreign?_notify (h : t.WellFormed) {k : TaskId} {change : Change} (hfor : change.IsFor k)
    (hn : t.notify change = .ok t') {id : TaskId}
    (goes : id.instanceId = k.instanceId → id.runSpecId = k.runSpecId) :
    t'.foreign? id = t.foreign? id := by
  cases change with
  | update new old =>
    obtain rfl : new.id = k := hfor
    exact foreign?_putTask h hn goes
  | expunge old =>
    obtain rfl : old.id = k := hfor
    obtain rfl := Except.ok.inj hn
    exact foreign?_dropTask h old goes
  | noChange _ => exact Except.ok.inj hn ▸ rfl
  | failure _ => exact Except.ok.inj hn ▸ rfl

end Tracker

/-! ## Documents -/

namespace Change

/-- The document of the task once the change is written. -/
def written (current : Option Json) : Change → Option Json
  | update new _ => some (toJson new)
  | expunge _ => none
  | noChange _ => current
  | failure _ => current

theorem find?_write_self {id : TaskId} {change : Change} (h : change.IsFor id)
    (documents : OrderedMap TaskId Json) :
    (change.write documents).find? id = change.written (documents.find? id) := by
  cases change with
  | update new old =>
    obtain rfl : new.id = id := h
    rw [write, OrderedMap.find?_insert, if_pos rfl]
    rfl
  | expunge old =>
    obtain rfl : old.id = id := h
    rw [write, OrderedMap.find?_erase, if_pos rfl]
    rfl
  | noChange _ => rfl
  | failure _ => rfl

end Change

namespace Shards

/-! ## What concerns one task -/

structure View where
  task : Option Task
  document : Option Json
  work : Work

/-- What concerns one task of all that is known, stored and being done. -/
def view (s : Shards) (id : TaskId) : View :=
  ⟨s.books.tracker.task? id, s.books.repository.documents.find? id, s.work id⟩

/-- What a step of the work on a task makes of its view, given the run spec that its instance belongs
to if that is another. -/
def View.step (owner : Option RunSpecId) (id : TaskId) (v : View) : View :=
  match v.work.stage, v.work.waiting with
  | .idle, [] => v
  | .idle, op :: _ => { v with work := { v.work with stage := .decided (op.resolve v.task) } }
  | .decided change, _ =>
    match change, owner with
    | .update _ _, some owner => { v with work := { v.work with stage := .refused (.rejected id owner) } }
    | change, _ =>
      { v with task := change.follow v.task, work := { v.work with stage := .tracked change } }
  | .tracked change, _ =>
    { v with document := change.written v.document, work := v.work.answer change }
  | .refused e, _ => { v with work := v.work.answer (.failure (.tracker id e)) }

/-- A view in which all ops are answered stays as it is. -/
theorem View.step_of_isDone {v : View} (h : v.work.isDone) (owner : Option RunSpecId) (id : TaskId) :
    v.step owner id = v := by
  rw [View.step, h.1, h.2]

end Shards

/-- The change that is on its way. -/
def WorkStage.change? : WorkStage → Option Change
  | idle => none
  | decided change => some change
  | tracked change => some change
  | refused _ => none

/-- The work is on ops of the task, and comes to changes of it. -/
structure Work.IsOf (id : TaskId) (w : Work) : Prop where
  named : ∀ op ∈ w.waiting, op.taskId = id
  isFor : ∀ change, w.stage.change? = some change → change.IsFor id

theorem Work.IsOf.answer {id : TaskId} {w : Work} (h : w.IsOf id) (reply : Change) :
    (w.answer reply).IsOf id := by
  refine ⟨fun op hop => h.named op (List.mem_of_mem_tail hop), ?_⟩
  intro change stage
  cases stage

/-- The same ops, with a change of the task on its way. -/
theorem Work.IsOf.withStage {id : TaskId} {w : Work} (h : w.IsOf id) {stage : WorkStage}
    (isFor : ∀ change, stage.change? = some change → change.IsFor id) :
    Work.IsOf id { w with stage := stage } := ⟨h.named, isFor⟩

namespace Shards

/-- What a step of the work on a task does to the books and to this work. -/
structure Stepped (id : TaskId) (b : Books) (w : Work) (b' : Books) (w' : Work) : Prop where
  wellFormed : b'.tracker.WellFormed
  repository : b'.repository = { b.repository with documents := b'.repository.documents }
  frame : b.Frame id b'
  owners : ∀ k : TaskId, (k.instanceId = id.instanceId → k.runSpecId = id.runSpecId) →
    b'.tracker.foreign? k = b.tracker.foreign? k
  isOf : w'.IsOf id
  view : View.mk (b'.tracker.task? id) (b'.repository.documents.find? id) w' =
    View.step (b.tracker.foreign? id) id
      ⟨b.tracker.task? id, b.repository.documents.find? id, w⟩

/-- A step that leaves the books as they are. -/
theorem Stepped.of_work {id : TaskId} {b : Books} {w w' : Work} (wellFormed : b.tracker.WellFormed)
    (isOf : w'.IsOf id)
    (view : View.mk (b.tracker.task? id) (b.repository.documents.find? id) w' =
      View.step (b.tracker.foreign? id) id
        ⟨b.tracker.task? id, b.repository.documents.find? id, w⟩) : Stepped id b w b w' :=
  ⟨wellFormed, rfl, .refl id b, fun _ _ => rfl, isOf, view⟩

variable {limit : Span} {id : TaskId} {b : Books} {w : Work}

/-- The tracker refuses new values of tasks whose instance is another's, and takes all else. -/
theorem stepped_decided (wellFormed : b.tracker.WellFormed) (isOf : w.IsOf id) {change : Change}
    (stage : w.stage = .decided change) :
    Stepped id b w (stepWork limit id b w).1 (stepWork limit id b w).2 := by
  have hfor : change.IsFor id := isOf.isFor change (by rw [stage]; rfl)
  have taken : ∀ tracker, b.tracker.notify change = .ok tracker →
      View.step (b.tracker.foreign? id) id
          ⟨b.tracker.task? id, b.repository.documents.find? id, w⟩ =
        ⟨change.follow (b.tracker.task? id), b.repository.documents.find? id,
          { w with stage := .tracked change }⟩ →
      Stepped id b w (stepWork limit id b w).1 (stepWork limit id b w).2 := by
    intro tracker hn view
    have step : stepWork limit id b w =
        ({ b with tracker := tracker }, { w with stage := .tracked change }) := by
      rw [stepWork, stage]
      simp only [hn]
    have follows := Tracker.task?_notify wellFormed.assembled hfor hn
    rw [step]
    refine ⟨wellFormed.notify hn, rfl, ⟨?_, fun _ _ => rfl⟩, ?_, isOf.withStage ?_, ?_⟩
    · intro k hk
      exact (follows k).trans (if_neg hk)
    · intro k goes
      exact Tracker.foreign?_notify wellFormed hfor hn goes
    · intro change' same
      exact Option.some.inj same ▸ hfor
    · rw [view, show ({ b with tracker := tracker } : Books).tracker.task? id = _ from
        (follows id).trans (if_pos rfl)]
  cases change with
  | update new old =>
    obtain rfl : new.id = id := hfor
    cases owned : b.tracker.foreign? new.id with
    | some owner =>
      have step : stepWork limit new.id b w =
          (b, { w with stage := .refused (.rejected new.id owner) }) := by
        rw [stepWork, stage]
        simp only [Tracker.notify, Tracker.putTask_of_foreign owned]
      rw [step]
      refine .of_work wellFormed (isOf.withStage fun _ none_left => by cases none_left) ?_
      simp only [View.step, stage, owned]
    | none =>
      obtain ⟨tracker, hp⟩ := Tracker.isOk_putTask_of_foreign owned
      refine taken tracker hp ?_
      simp only [View.step, stage, owned]
  | expunge old => exact taken _ rfl (by simp only [View.step, stage])
  | noChange k => exact taken _ rfl (by simp only [View.step, stage])
  | failure e => exact taken _ rfl (by simp only [View.step, stage])

/-- The repository follows what the tracker has taken, and the op is answered. -/
theorem stepped_tracked (wellFormed : b.tracker.WellFormed)
    (faultless : b.repository.writeFaults = []) (isOf : w.IsOf id) {change : Change}
    (stage : w.stage = .tracked change) :
    Stepped id b w (stepWork limit id b w).1 (stepWork limit id b w).2 := by
  have hfor : change.IsFor id := isOf.isFor change (by rw [stage]; rfl)
  obtain ⟨reply, tracker, -, repository⟩ := b.persist_faultless faultless limit id change
  have step : stepWork limit id b w = ((b.persist limit id change).2, w.answer change) := by
    rw [stepWork, stage]
    exact Prod.ext rfl (congrArg w.answer reply)
  rw [step]
  refine ⟨tracker ▸ wellFormed, ?_, ⟨fun k _ => by rw [tracker], ?_⟩, fun k _ => by rw [tracker],
    isOf.answer change, ?_⟩
  · simp only [repository]
  · intro k hk
    rw [repository]
    exact Change.find?_write hfor _ hk
  · simp only [tracker, repository, View.step, stage, Change.find?_write_self hfor]

/-- Every step does what the view says, and nothing beyond the one task. -/
theorem stepped (limit : Span) (wellFormed : b.tracker.WellFormed)
    (faultless : b.repository.writeFaults = []) (isOf : w.IsOf id) :
    Stepped id b w (stepWork limit id b w).1 (stepWork limit id b w).2 := by
  cases stage : w.stage with
  | decided change => exact stepped_decided wellFormed isOf stage
  | tracked change => exact stepped_tracked wellFormed faultless isOf stage
  | refused e =>
    have step : stepWork limit id b w = (b, w.answer (.failure (.tracker id e))) := by
      rw [stepWork, stage]
    rw [step]
    refine .of_work wellFormed (isOf.answer _) ?_
    simp only [View.step, stage]
  | idle =>
    cases waiting : w.waiting with
    | nil =>
      have step : stepWork limit id b w = (b, w) := by
        rw [stepWork, stage, waiting]
      rw [step]
      exact .of_work wellFormed isOf (View.step_of_isDone ⟨waiting, stage⟩ _ id).symm
    | cons op rest =>
      have named : op.taskId = id := isOf.named op (waiting ▸ List.mem_cons_self)
      have step : stepWork limit id b w =
          (b, { w with stage := .decided (op.resolve (b.tracker.task? id)) }) := by
        simp only [stepWork, stage, waiting, named]
      rw [step]
      refine .of_work wellFormed (isOf.withStage ?_) ?_
      · intro change same
        obtain rfl := Option.some.inj same
        rw [← named]
        exact Books.isFor_change wellFormed.assembled op
      · simp only [View.step, stage, waiting]

/-! ## Runs -/

/-- Tasks of one instance are of one run spec. -/
def Grouped (family : List TaskId) : Prop :=
  ∀ a ∈ family, ∀ b ∈ family, a.instanceId = b.instanceId → a.runSpecId = b.runSpecId

/-- What holds between the steps: `family` are the tasks whose ops are processed, and `owners` the run
specs that their instances belong to if those are others. -/
structure Steady (owners : TaskId → Option RunSpecId) (family : List TaskId) (r : Repository)
    (s : Shards) : Prop where
  wellFormed : s.books.tracker.WellFormed
  repository : s.books.repository = { r with documents := s.books.repository.documents }
  owners : ∀ id ∈ family, s.books.tracker.foreign? id = owners id
  others : ∀ id, id ∉ family → (s.work id).isDone
  isOf : ∀ id, (s.work id).IsOf id

variable {owners : TaskId → Option RunSpecId} {family : List TaskId} {r : Repository} {s s' : Shards}

theorem step_of_isDone (h : (s.work id).isDone) : s.step id = s := by
  have step : stepWork s.limit id s.books (s.work id) = (s.books, s.work id) := by
    rw [stepWork, h.1, h.2]
  have same : (fun k => if k = id then s.work id else s.work k) = s.work := by
    funext k
    split
    · next hk => rw [hk]
    · rfl
  simp only [Shards.step, step, same]

/-- A step of the work on a task depends on the view of that task alone, and changes no other. -/
theorem view_step (h : s.Steady owners family r) (faultless : r.writeFaults = [])
    (grouped : Grouped family) (id : TaskId) :
    (s.step id).Steady owners family r ∧
      ∀ k, (s.step id).view k = if k = id then (s.view id).step (owners id) id else s.view k := by
  by_cases member : id ∈ family
  · have writes : s.books.repository.writeFaults = [] := by
      rw [h.repository]
      exact faultless
    obtain ⟨wellFormed, repository, frame, owned, isOf, view⟩ :=
      stepped s.limit h.wellFormed writes (h.isOf id)
    refine ⟨⟨wellFormed, ?_, ?_, ?_, ?_⟩, ?_⟩
    · exact repository.trans (by rw [h.repository]; rfl)
    · intro k hk
      exact (owned k (grouped k hk id member)).trans (h.owners k hk)
    · intro k hk
      have other : k ≠ id := fun same => hk (same ▸ member)
      simp only [Shards.step, if_neg other]
      exact h.others k hk
    · intro k
      simp only [Shards.step]
      split
      · next hk => exact hk ▸ isOf
      · exact h.isOf k
    · intro k
      rw [← h.owners id member]
      split
      · next hk =>
        subst hk
        simp only [Shards.view, Shards.step, if_true]
        exact view
      · next hk =>
        simp only [Shards.view, Shards.step, if_neg hk, frame.tracker k hk, frame.documents k hk]
  · have done := h.others id member
    rw [step_of_isDone done]
    refine ⟨h, ?_⟩
    intro k
    split
    · next hk => rw [hk, View.step_of_isDone done]
    · rfl

/-- After a run, the view of a task depends on how often its turn came, and on nothing else. -/
theorem view_run (h : s.Steady owners family r) (faultless : r.writeFaults = [])
    (grouped : Grouped family) (turns : List TaskId) :
    (s.run turns).Steady owners family r ∧
      ∀ k, (s.run turns).view k = (View.step (owners k) k)^[turns.count k] (s.view k) := by
  induction turns generalizing s with
  | nil => exact ⟨h, fun k => rfl⟩
  | cons id rest ih =>
    obtain ⟨steady, step⟩ := view_step h faultless grouped id
    obtain ⟨steady', views⟩ := ih steady
    refine ⟨steady', ?_⟩
    intro k
    rw [run, views k, step k, List.count_cons]
    by_cases hk : k = id
    · subst hk
      rw [if_pos rfl, if_pos (beq_self_eq_true k), Function.iterate_succ_apply]
    · rw [if_neg hk, if_neg (by simpa using fun same => hk same.symm), Nat.add_zero]

/-- There is one view in which all ops are answered. -/
theorem View.eq_of_isDone {v : View} {owner : Option RunSpecId} {n m : Nat}
    (hn : ((View.step owner id)^[n] v).work.isDone) (hm : ((View.step owner id)^[m] v).work.isDone) :
    (View.step owner id)^[n] v = (View.step owner id)^[m] v := by
  have later : ∀ n m, n ≤ m → ((View.step owner id)^[n] v).work.isDone →
      (View.step owner id)^[m] v = (View.step owner id)^[n] v := by
    intro n m le done
    rw [← Nat.sub_add_cancel le, Function.iterate_add_apply]
    exact Function.iterate_fixed (View.step_of_isDone done owner id) (m - n)
  rcases Nat.le_total n m with le | le
  · exact (later n m le hn).symm
  · exact later m n le hm

/-- The views of all tasks make the outcome. -/
theorem outcome_eq_of_view (h : s.Steady owners family r) (h' : s'.Steady owners family r)
    (views : ∀ k, s.view k = s'.view k) : s.outcome = s'.outcome := by
  have replies : (fun k => (s.work k).replies) = fun k => (s'.work k).replies := by
    funext k
    exact congrArg (fun v => v.work.replies) (views k)
  have tracker : s.books.tracker = s'.books.tracker :=
    Tracker.eq_of_task?_eq h.wellFormed.assembled h'.wellFormed.assembled
      fun k => congrArg View.task (views k)
  have documents : s.books.repository.documents = s'.books.repository.documents :=
    OrderedMap.ext_find? fun k => congrArg View.document (views k)
  have repository : s.books.repository = s'.books.repository := by
    rw [h.repository, h'.repository, documents]
  rw [outcome, outcome, replies, tracker, repository]

end Shards

/-! ## Ops one after another -/

namespace Books

variable {b : Books} {limit : Span}

theorem process_of_running (running : b.running = true) (limit : Span) (op : StateOp) :
    b.process limit op = b.apply limit op := by
  simp [process, processWithin, running]

end Books

namespace Shards

variable {id : TaskId} {s : Shards}

/-- Steps of one task on end are steps of its work. -/
theorem run_three (s : Shards) (id : TaskId) {first second third : Books × Work}
    (h₁ : stepWork s.limit id s.books (s.work id) = first)
    (h₂ : stepWork s.limit id first.1 first.2 = second)
    (h₃ : stepWork s.limit id second.1 second.2 = third) :
    s.run [id, id, id] =
      { s with books := third.1, work := fun k => if k = id then third.2 else s.work k } := by
  have once : ∀ (t : Shards) (next : Books × Work),
      stepWork t.limit id t.books (t.work id) = next →
        t.step id = { t with books := next.1, work := fun k => if k = id then next.2 else t.work k } := by
    rintro t next rfl
    rfl
  have work : (fun k => if k = id then third.2 else if k = id then second.2 else
      if k = id then first.2 else s.work k) = fun k => if k = id then third.2 else s.work k := by
    funext k
    by_cases hk : k = id <;> simp [hk]
  rw [run, once s first h₁, run, once _ second (by simpa using h₂), run,
    once _ third (by simpa using h₃), run]
  simp only [work]

/-- Three steps on end do what an op does. -/
theorem run_op {op : StateOp} (named : op.taskId = id) {rest : List StateOp} {replies : List Change}
    (work : s.work id = ⟨op :: rest, .idle, replies⟩) :
    s.run [id, id, id] =
      { s with
        books := (s.books.apply s.limit op).2
        work := fun k =>
          if k = id then ⟨rest, .idle, replies ++ [(s.books.apply s.limit op).1]⟩ else s.work k } := by
  subst named
  have decides : stepWork s.limit op.taskId s.books (s.work op.taskId) =
      (s.books, ⟨op :: rest, .decided (op.resolve (s.books.tracker.task? op.taskId)), replies⟩) := by
    rw [work]
    rfl
  cases hn : s.books.tracker.notify (op.resolve (s.books.tracker.task? op.taskId)) with
  | error e =>
    have refuses : stepWork s.limit op.taskId s.books
        ⟨op :: rest, .decided (op.resolve (s.books.tracker.task? op.taskId)), replies⟩ =
          (s.books, ⟨op :: rest, .refused e, replies⟩) := by
      simp only [stepWork, hn]
    rw [run_three s op.taskId decides refuses rfl, Books.apply]
    simp only [hn]
    rfl
  | ok tracker =>
    have takes : stepWork s.limit op.taskId s.books
        ⟨op :: rest, .decided (op.resolve (s.books.tracker.task? op.taskId)), replies⟩ =
          ({ s.books with tracker := tracker },
            ⟨op :: rest, .tracked (op.resolve (s.books.tracker.task? op.taskId)), replies⟩) := by
      simp only [stepWork, hn]
    rw [run_three s op.taskId decides takes rfl, Books.apply]
    simp only [hn]
    rfl

/-- The order of turns in which each op is finished before the next is taken. -/
def inTurn (ops : List StateOp) : List TaskId :=
  ops.flatMap fun op => [op.taskId, op.taskId, op.taskId]

theorem run_append (s : Shards) (σ τ : List TaskId) : s.run (σ ++ τ) = (s.run σ).run τ := by
  induction σ generalizing s with
  | nil => rfl
  | cons id rest ih => exact ih (s.step id)

theorem repliesTo_cons (id : TaskId) (op : StateOp) (ops : List StateOp) (reply : Change)
    (replies : List Change) :
    repliesTo id (op :: ops) (reply :: replies) =
      repliesTo id [op] [reply] ++ repliesTo id ops replies := by
  rw [repliesTo, repliesTo, repliesTo, ← List.map_append, ← List.filter_append]
  rfl

/-- Ops that are finished one after another come to what the processor makes of them. -/
theorem run_inTurn {ops : List StateOp} (running : s.books.running = true)
    (faultless : s.books.repository.writeFaults = []) {replies : TaskId → List Change}
    (work : ∀ id, s.work id = ⟨ops.filter (·.taskId = id), .idle, replies id⟩) :
    (s.run (inTurn ops)).books = (s.books.processAll s.limit ops).2 ∧
      ∀ id, (s.run (inTurn ops)).work id =
        ⟨[], .idle, replies id ++ repliesTo id ops (s.books.processAll s.limit ops).1⟩ := by
  induction ops generalizing s replies with
  | nil =>
    refine ⟨rfl, fun id => ?_⟩
    rw [inTurn, List.flatMap_nil, run, work id]
    simp [repliesTo]
  | cons op rest ih =>
    have here : s.work op.taskId = ⟨op :: rest.filter (·.taskId = op.taskId), .idle,
        replies op.taskId⟩ := by
      rw [work op.taskId, List.filter_cons_of_pos (by simp)]
    have first := run_op rfl here
    have work' : ∀ id, (s.run [op.taskId, op.taskId, op.taskId]).work id =
        ⟨rest.filter (·.taskId = id), .idle,
          replies id ++ repliesTo id [op] [(s.books.apply s.limit op).1]⟩ := by
      intro id
      rw [first]
      by_cases same : id = op.taskId
      · subst same
        simp [repliesTo]
      · have other : op.taskId ≠ id := fun e => same e.symm
        simp [repliesTo, work id, same, other]
    have kept := s.books.apply_faultless faultless s.limit op
    rw [inTurn, List.flatMap_cons, run_append, ← inTurn]
    obtain ⟨books, later⟩ := ih (by rw [first]; exact kept.1.trans running)
      (by rw [first]; exact kept.2) work'
    rw [first] at books later ⊢
    simp only [Books.processAll, Books.process_of_running running]
    refine ⟨books, fun id => ?_⟩
    rw [later id, List.append_assoc, repliesTo_cons id op rest]

theorem outcome_inTurn {b : Books} (running : b.running = true)
    (faultless : b.repository.writeFaults = []) (limit : Span) (ops : List StateOp) :
    ((start limit ops b).run (inTurn ops)).isDone ∧
      ((start limit ops b).run (inTurn ops)).outcome = b.outcome limit ops := by
  obtain ⟨books, work⟩ := run_inTurn (s := start limit ops b) running faultless fun _ => rfl
  refine ⟨fun id => ?_, ?_⟩
  · rw [work id]
    exact ⟨rfl, rfl⟩
  · simp only [outcome, Books.outcome, work, List.nil_append, books]
    rfl

theorem steady_start {b : Books} (wellFormed : b.tracker.WellFormed) (limit : Span)
    (ops : List StateOp) :
    (start limit ops b).Steady b.tracker.foreign? (ops.map (·.taskId)) b.repository := by
  refine ⟨wellFormed, rfl, fun _ _ => rfl, ?_, ?_⟩
  · intro id none_of
    refine ⟨List.filter_eq_nil_iff.2 ?_, rfl⟩
    intro op hop same
    exact none_of (List.mem_map.2 ⟨op, hop, of_decide_eq_true same⟩)
  · intro id
    refine ⟨?_, fun change none_left => by cases none_left⟩
    intro op hop
    exact of_decide_eq_true (List.mem_filter.1 hop).2

end Shards

/-- It does not matter in which order the tasks take turns, be it op by op or in the middle of ops. As
long as the ops of each task stay in their order, every op gets the same reply, and the tracker, with
all that it derives of instances, and the repository are the same in the end. Tasks that share an
instance may be among them, if they are of one run spec. -/
theorem Books.outcome_eq {b : Books} {limit : Span} {ops ops' : List StateOp}
    (wellFormed : b.tracker.WellFormed) (running : b.running = true)
    (faultless : b.repository.writeFaults = []) (grouped : Shards.Grouped (ops.map (·.taskId)))
    (order : ∀ id, ops'.filter (·.taskId = id) = ops.filter (·.taskId = id)) :
    b.outcome limit ops' = b.outcome limit ops ∧
      ∀ turns, ((Shards.start limit ops b).run turns).isDone →
        ((Shards.start limit ops b).run turns).outcome = b.outcome limit ops := by
  have steady := Shards.steady_start wellFormed limit ops
  have unique : ∀ σ τ, ((Shards.start limit ops b).run σ).isDone →
      ((Shards.start limit ops b).run τ).isDone →
        ((Shards.start limit ops b).run σ).outcome = ((Shards.start limit ops b).run τ).outcome := by
    intro σ τ doneσ doneτ
    obtain ⟨steadyσ, viewσ⟩ := Shards.view_run steady faultless grouped σ
    obtain ⟨steadyτ, viewτ⟩ := Shards.view_run steady faultless grouped τ
    refine Shards.outcome_eq_of_view steadyσ steadyτ ?_
    intro k
    have doneσ : (((Shards.start limit ops b).run σ).view k).work.isDone := doneσ k
    have doneτ : (((Shards.start limit ops b).run τ).view k).work.isDone := doneτ k
    rw [viewσ k] at doneσ ⊢
    rw [viewτ k] at doneτ ⊢
    exact Shards.View.eq_of_isDone doneσ doneτ
  have same_start : Shards.start limit ops' b = Shards.start limit ops b := by
    simp only [Shards.start, order]
  obtain ⟨done, outcome⟩ := Shards.outcome_inTurn running faultless limit ops
  obtain ⟨done', outcome'⟩ := Shards.outcome_inTurn running faultless limit ops'
  rw [same_start] at done' outcome'
  refine ⟨?_, fun turns doneτ => ?_⟩
  · rw [← outcome, ← outcome']
    exact unique _ _ done' done
  · rw [← outcome]
    exact unique turns _ doneτ done

/-! ## Two tasks of one instance -/

namespace Sample

theorem pod_valid : pathError? "/pod".toList = none := by decide

def podMember (name : ContainerName) : Task where
  id := ⟨⟨"/pod", pod_valid⟩, ⟨.ofNat 7⟩, some name⟩
  agent := ⟨⟨.ofNat 2⟩, "host", ∅⟩
  runSpecVersion := ⟨0, 0⟩
  status := .fresh .created ⟨0, 0⟩
  hostPorts := []
  reservation := none
  unreachableStrategy := .usual

def firstMember : Task := podMember ⟨"first", by decide⟩

def secondMember : Task := podMember ⟨"second", by decide⟩

def running : StateOp := .report firstMember.id (.ofState .running ⟨1, 0⟩) ⟨1, 0⟩

/-- The instance is made by the first task, and made again by it when the second has gone. -/
def memberOps : List StateOp :=
  [.launchEphemeral firstMember, running, .forceExpunge firstMember.id, .launchEphemeral secondMember,
    .forceExpunge secondMember.id, .launchEphemeral firstMember]

/-- The same ops of each task, in another order: the instance is there all the time. -/
def memberOps' : List StateOp :=
  [.launchEphemeral secondMember, .launchEphemeral firstMember, running, .forceExpunge firstMember.id,
    .launchEphemeral firstMember, .forceExpunge secondMember.id]

/-- Turns in the middle of ops. -/
def memberTurns : List TaskId :=
  (List.replicate 6 [firstMember.id, secondMember.id]).flatten ++ List.replicate 6 firstMember.id

end Sample

theorem outcome_eq_sample :
    Books.empty.outcome Sample.limit Sample.memberOps' =
        Books.empty.outcome Sample.limit Sample.memberOps ∧
      ((Shards.start Sample.limit Sample.memberOps .empty).run Sample.memberTurns).outcome =
        Books.empty.outcome Sample.limit Sample.memberOps ∧
      (Books.empty.outcome Sample.limit Sample.memberOps).tracker.tasks = [Sample.firstMember] := by
  have grouped : Shards.Grouped (Sample.memberOps.map (·.taskId)) := by
    unfold Shards.Grouped
    decide +kernel
  have order : ∀ id, Sample.memberOps'.filter (·.taskId = id) =
      Sample.memberOps.filter (·.taskId = id) := by
    intro id
    by_cases first : Sample.firstMember.id = id
    · subst first
      decide +kernel
    · by_cases second : Sample.secondMember.id = id
      · subst second
        decide +kernel
      · simp [Sample.memberOps, Sample.memberOps', Sample.running, StateOp.taskId, first, second]
  obtain ⟨same, turns⟩ := @Books.outcome_eq .empty Sample.limit Sample.memberOps Sample.memberOps'
    Tracker.wellFormed_empty rfl rfl grouped order
  have steady := Shards.view_run (Shards.steady_start (b := .empty) Tracker.wellFormed_empty
    Sample.limit Sample.memberOps) rfl grouped Sample.memberTurns
  have done : ((Shards.start Sample.limit Sample.memberOps .empty).run Sample.memberTurns).isDone := by
    intro id
    by_cases first : Sample.firstMember.id = id
    · subst first
      exact ⟨by decide +kernel, by decide +kernel⟩
    · by_cases second : Sample.secondMember.id = id
      · subst second
        exact ⟨by decide +kernel, by decide +kernel⟩
      · refine steady.1.others id ?_
        have names : Sample.memberOps.map (·.taskId) = [Sample.firstMember.id, Sample.firstMember.id,
          Sample.firstMember.id, Sample.secondMember.id, Sample.secondMember.id,
          Sample.firstMember.id] := rfl
        rw [names]
        simp [Ne.symm first, Ne.symm second]
  exact ⟨same, turns Sample.memberTurns done, by decide +kernel⟩

end Placement
