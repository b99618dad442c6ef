/-
A task that has come to its end stays as it is until it is forgotten.

Such a task takes no other op (`StateOp.resolve_of_isTerminal`). But an op that forgets it can fail half way, and
then the tracker is set to what is read back. As tracker and repository agree, that is the task as it was, or
nothing (`Books.Handled.task?_of_agree`), and never an older value of it. `Books.final_turns` follows for
whole runs, by induction on the last turn.
-/
import Mathlib.Data.List.Induction
import Mathlib.Data.List.Infix
import Placement.Proofs.Dated
import Placement.Proofs.Outdated
import Placement.Proofs.Restart

namespace Placement

/-- A task that has come to its end takes no op but to be forgotten. -/
theorem StateOp.resolve_of_isTerminal {op : StateOp} {t : Task}
    (terminal : t.condition.isTerminal = true) (other : op ≠ .forceExpunge op.taskId) :
    op.resolve (some t) = .failure (.terminalTask op.taskId t.condition op.kind) := by
  cases op with
  | forceExpunge id => exact absurd rfl other
  | _ => simp [resolve, terminal]

namespace Books

variable {b : Books} {op : StateOp} {id : TaskId} {t : Task}

/-! ## One op -/

/-- An op on a task that has come to its end fails without an effect, unless it forgets the task. -/
theorem processWithin_of_isTerminal (known : b.tracker.task? op.taskId = some t)
    (terminal : t.condition.isTerminal = true) (other : op ≠ .forceExpunge op.taskId)
    (limit : Span) (patience : Int) : (b.processWithin limit patience op).1.isFailure = true ∧
      (b.processWithin limit patience op).2 = b := by
  rcases b.processWithin_cases limit patience op with refused | refused | applied
  · rw [refused]
    exact ⟨rfl, rfl⟩
  · rw [refused]
    exact ⟨rfl, rfl⟩
  · have fails : b.apply limit op =
        (.failure (.terminalTask op.taskId t.condition op.kind), b) := by
      rw [apply, known, StateOp.resolve_of_isTerminal terminal other]
      rfl
    rw [applied, fails]
    exact ⟨rfl, rfl⟩

/-- Where tracker and repository agree, an op leaves its task as it was or as the op makes it, even if the op
fails. -/
theorem Handled.task?_of_agree {reply : Change} {after : Books} (h : b.Agree)
    (storable : op.Storable) (handled : b.Handled op reply after) :
    after.tracker.task? op.taskId = b.tracker.task? op.taskId ∨
      after.tracker.task? op.taskId = (b.change op).newTask? := by
  have truthful := handled.truthful h.wellFormed h.keyed (h.readsBack_change storable)
  cases handled with
  | refused e refuses => exact .inl rfl
  | quiet nothing => exact .inl rfl
  | settled made there => exact .inr (made.task? h.wellFormed.assembled)
  | unverified write reload made unread => exact .inr (made.task? h.wellFormed.assembled)
  | corrected write made found there differs =>
    -- Nothing was written, and what stands there is what the tracker knew.
    obtain ⟨same, stands⟩ := truthful
    have known := (h.same op.taskId).of_find? (by rw [same])
    exact .inl (stands.stored?.symm.trans known.stored?)

/-- A task that has come to its end stays as it is, unless it is forgotten. -/
theorem Agree.final (h : b.Agree) (storable : op.Storable) (known : b.tracker.task? id = some t)
    (terminal : t.condition.isTerminal = true) (limit : Span) (patience : Int) :
    (b.processWithin limit patience op).2.tracker.task? id = some t ∨
      ((b.processWithin limit patience op).2.tracker.task? id = none ∧
        op = .forceExpunge id) := by
  by_cases own : op.taskId = id
  · subst own
    by_cases forgets : op = .forceExpunge op.taskId
    · have expunges : (b.change op).newTask? = none := by
        rw [change, known, forgets]
        rfl
      rcases b.processWithin_cases limit patience op with refused | refused | applied
      · exact .inl (by rw [refused]; exact known)
      · exact .inl (by rw [refused]; exact known)
      · rw [applied]
        rcases (handled_apply limit op b).task?_of_agree h storable with same | made
        · exact .inl (same.trans known)
        · exact .inr ⟨made.trans expunges, forgets⟩
    · left
      rw [(processWithin_of_isTerminal known terminal forgets limit patience).2]
      exact known
  · have frame := (frame_processWithin ⟨h.wellFormed.assembled, h.keyed⟩ limit patience op).1
    exact .inl ((frame.tracker id (Ne.symm own)).trans known)

/-! ## Runs -/

/-- A turn is taken: its faults are put, and then its op is processed. -/
def take (limit : Span) (turn : Turn) (b : Books) : Change × Books :=
  (b.addFaults turn.faults).processWithin limit turn.patience turn.op

theorem turns_concat (limit : Span) (ts : List Turn) (turn : Turn) (b : Books) :
    turns limit (ts ++ [turn]) b = ((turns limit ts b).take limit turn).2 :=
  List.foldl_append

/-- On every run from nothing, whatever faults its writes meet: once a task has come to its end, tracker and
repository hold that same task as long as it is known. It is gone only after an op that forgets it, and every
other op on it fails. -/
theorem final_turns (limit : Span) (before after : List Turn)
    (dated : ∀ turn ∈ before ++ after, turn.op.Dated)
    (known : (turns limit before empty).tracker.task? id = some t)
    (terminal : t.condition.isTerminal = true)
    (present : ∀ part, part <+: after →
      (turns limit (before ++ part) empty).tracker.task? id ≠ none) :
    (turns limit (before ++ after) empty).tracker.task? id = some t ∧
      (turns limit (before ++ after) empty).repository.Holds id (some t) ∧
      ∀ turn : Turn, turn.op.Dated →
        let next := (turns limit (before ++ after) empty).take limit turn
        (next.2.tracker.task? id = some t ∨
          (next.2.tracker.task? id = none ∧ turn.op = .forceExpunge id)) ∧
        (turn.op.taskId = id → turn.op ≠ .forceExpunge id → next.1.isFailure = true) := by
  have agree : ∀ ts : List Turn, (∀ turn ∈ ts, turn.op.Dated) → (turns limit ts empty).Agree :=
    fun ts dated => agree_turns limit (fun turn hturn => (dated turn hturn).storable) agree_empty
  have same : (turns limit (before ++ after) empty).tracker.task? id = some t := by
    -- On the last turn: the task was known before it, so it was not forgotten earlier.
    induction after using List.reverseRecOn with
    | nil => rwa [List.append_nil]
    | append_singleton after turn ih =>
      rw [← List.append_assoc] at dated ⊢
      obtain ⟨earlier, last⟩ := List.forall_mem_append.1 dated
      have now := ih earlier fun part hpart => present part (hpart.trans (List.prefix_append _ _))
      have gone := present _ List.prefix_rfl
      rw [← List.append_assoc, turns_concat] at gone
      rw [turns_concat]
      have step := ((agree _ earlier).addFaults turn.faults).final
        (last turn (List.mem_singleton.2 rfl)).storable now terminal limit turn.patience
      exact step.resolve_right fun forgotten => gone forgotten.1
  have holds := (agree _ dated).same id
  rw [same] at holds
  refine ⟨same, holds, fun turn turnDated => ⟨?_, fun own other => ?_⟩⟩
  · exact ((agree _ dated).addFaults turn.faults).final turnDated.storable same terminal limit
      turn.patience
  · subst own
    exact (processWithin_of_isTerminal (b := (turns limit (before ++ after) empty).addFaults _)
      same terminal other limit turn.patience).1

end Books

/-! ## A task that fails -/

/-- A task is launched and fails, and each time the store does not acknowledge that. -/
def Sample.ending : List Books.Turn :=
  [⟨[.lostAck, .lostAck], 0, .launchEphemeral Sample.launchedTask⟩,
    ⟨[], 0, .report Sample.launchedTask.id (.ofState .failed ⟨1, 0⟩) ⟨1, 0⟩⟩]

/-- It is to be forgotten, which the store refuses, and a report of it comes late. -/
def Sample.aftermath : List Books.Turn :=
  [⟨[.reject], 0, .forceExpunge Sample.launchedTask.id⟩,
    ⟨[], 0, .report Sample.launchedTask.id (.ofState .running ⟨0, 5⟩) ⟨2, 0⟩⟩]

/-- The task is still there as it failed. -/
theorem final_turns_sample :
    (∀ turn ∈ Sample.ending ++ Sample.aftermath, turn.op.Dated) ∧
    ∃ t, (Books.turns Sample.limit Sample.ending .empty).tracker.task? Sample.launchedTask.id =
        some t ∧ t.condition = .failed ∧
      (∀ part, part <+: Sample.aftermath →
        (Books.turns Sample.limit (Sample.ending ++ part) .empty).tracker.task?
          Sample.launchedTask.id ≠ none) ∧
      (Books.turns Sample.limit (Sample.ending ++ Sample.aftermath) .empty).repository.Holds
        Sample.launchedTask.id (some t) := by
  have dated : ∀ turn ∈ Sample.ending ++ Sample.aftermath, turn.op.Dated := by decide +kernel
  have failed : ((Books.turns Sample.limit Sample.ending .empty).tracker.task?
      Sample.launchedTask.id).map Task.condition = some .failed := by decide +kernel
  obtain ⟨t, known, condition⟩ := Option.map_eq_some_iff.1 failed
  have present : ∀ part, part <+: Sample.aftermath →
      (Books.turns Sample.limit (Sample.ending ++ part) .empty).tracker.task?
        Sample.launchedTask.id ≠ none := by
    have each : ∀ part ∈ Sample.aftermath.inits,
        (Books.turns Sample.limit (Sample.ending ++ part) .empty).tracker.task?
          Sample.launchedTask.id ≠ none := by decide +kernel
    exact fun part hpart => each part ((List.mem_inits part _).2 hpart)
  have final := Books.final_turns Sample.limit Sample.ending Sample.aftermath dated known
    (by rw [condition]; rfl) present
  exact ⟨dated, t, known, condition, present, final.2.1⟩

end Placement
