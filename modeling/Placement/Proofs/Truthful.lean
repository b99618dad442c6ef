/-
Replies are true.

`Books.Truthful` reads a reply: what it says of the task of an op, in the tracker and in the
repository. `Handled.truthful` has it of every way an op can end, and `truthful_processWithin` is the
main result: every reply is true of the books it leaves, whatever goes wrong in between.
-/
import Placement.Proofs.Processor

namespace Placement

namespace Books

/-- What a reply says of the task of an op, in the tracker and in the repository. -/
def Truthful (op : StateOp) (b after : Books) : Change → Prop
  | .update new _ =>
    after.tracker.task? op.taskId = some new ∧ after.repository.Holds op.taskId (some new)
  | .expunge _ =>
    after.tracker.task? op.taskId = none ∧ after.repository.Holds op.taskId none
  | .failure (.persist _ _) =>
    after.repository.documents = b.repository.documents ∧
      after.repository.Holds op.taskId (after.tracker.task? op.taskId)
  | .failure (.unverified _ _ _) =>
    after.tracker.task? op.taskId = (b.change op).newTask? ∧
      (after.repository.documents = b.repository.documents ∨
        after.repository.Holds op.taskId (b.change op).newTask?)
  | .noChange _ =>
    after.tracker = b.tracker ∧ after.repository.documents = b.repository.documents
  | .failure _ =>
    after.tracker = b.tracker ∧ after.repository.documents = b.repository.documents

section

variable {op : StateOp} {b after : Books}

/-- After a change of a task, its instance still takes any value of it. -/
theorem Attempted.admits (h : b.tracker.WellFormed) (made : b.Attempted op after) {k : TaskId}
    (hk : (after.tracker.task? k).isSome = true) (hinstance : k.instanceId = op.taskId.instanceId) :
    k.runSpecId = op.taskId.runSpecId := by
  by_cases hid : k = op.taskId
  · rw [hid]
  · have comes := op.comesOf_resolve (b.tracker.task? op.taskId)
    have hnew := made.task? h.assembled
    have writes := made.writes
    cases hc : b.change op with
    | update new old =>
      rw [hc] at hnew
      exact (h.notify made.tracker).uniform k op.taskId hk (by rw [hnew]; rfl) hinstance
    | expunge old =>
      rw [show op.resolve (b.tracker.task? op.taskId) = .expunge old from hc] at comes
      rw [(made.frame h.assembled).tracker k hid] at hk
      exact h.uniform k op.taskId hk (by rw [show b.tracker.task? op.taskId = some old from comes]; rfl)
        hinstance
    | noChange _ =>
      rw [hc] at writes
      exact writes.elim
    | failure _ =>
      rw [hc] at writes
      exact writes.elim

/-- Every way an op can end makes its reply true. -/
theorem Handled.truthful {reply : Change} (h : b.tracker.WellFormed) (keyed : b.repository.Keyed)
    (readsBack : ∀ t, (b.change op).newTask? = some t → ReadsBack t)
    (handled : b.Handled op reply after) : b.Truthful op after reply := by
  have hfor := isFor_change h.assembled op
  have comes := op.comesOf_resolve (b.tracker.task? op.taskId)
  cases handled with
  | refused e refuses => exact ⟨rfl, rfl⟩
  | quiet nothing =>
    cases hc : b.change op with
    | update new old => exact absurd (hc ▸ trivial) nothing
    | expunge old => exact absurd (hc ▸ trivial) nothing
    | noChange _ => exact ⟨rfl, rfl⟩
    | failure e =>
      have ofTask : e.OfTask := by
        rw [show op.resolve (b.tracker.task? op.taskId) = .failure e from hc] at comes
        exact comes
      cases e with
      | persist _ _ => exact ofTask.elim
      | unverified _ _ _ => exact ofTask.elim
      | _ => exact ⟨rfl, rfl⟩
  | settled made there =>
    have stands : after.repository.Holds op.taskId (b.change op).newTask? :=
      there.elim (holds_write hfor made.writes readsBack) id
    have known := made.task? h.assembled
    have writes := made.writes
    cases hc : b.change op with
    | update new old =>
      rw [hc] at known stands
      exact ⟨known, stands⟩
    | expunge old =>
      rw [hc] at known stands
      exact ⟨known, stands⟩
    | noChange _ =>
      rw [hc] at writes
      exact writes.elim
    | failure _ =>
      rw [hc] at writes
      exact writes.elim
  | unverified write reload made unread =>
    refine ⟨made.task? h.assembled, ?_⟩
    rcases made.documents with written | same
    · exact .inr (holds_write hfor made.writes readsBack written)
    · exact .inl same
  | @corrected mid write made found there differs =>
    have same : mid.repository.documents = b.repository.documents := by
      refine made.documents.resolve_left fun written => differs ?_
      rw [← there.stored?, (holds_write hfor made.writes readsBack written).stored?]
    have mid_keyed := made.keyed h.assembled keyed
    have mid_assembled := h.assembled.notify made.tracker
    have found_id : ∀ t, found = some t → t.id = op.taskId := fun t ht =>
      mid_keyed op.taskId t (there.stored?.trans ht)
    have corrects := corrected_correct mid (fun t => id_of_newTask? hfor) found_id
    generalize mid.correct _ _ = after at corrects ⊢
    cases corrects with
    | followed change tracker hfor' taken follows =>
      refine ⟨same, ?_⟩
      rw [Tracker.task?_notify mid_assembled hfor' taken, if_pos rfl, follows]
      exact there
    | refused stored e hfound refuses =>
      have hid := found_id stored hfound
      have admits : ∀ k, (mid.tracker.task? k).isSome = true → k.instanceId = stored.instanceId →
          k.runSpecId = stored.runSpecId := by
        intro k hk hinstance
        rw [Task.instanceId, hid] at hinstance
        rw [Task.runSpecId, hid]
        exact made.admits h hk hinstance
      obtain ⟨t', taken⟩ := Tracker.isOk_putTask mid_assembled admits
      rw [taken] at refuses
      cases refuses
    | nothing unchanged missing => exact absurd (missing.trans unchanged.symm) differs

end

/-- The reply to an op is true of the books it leaves, whatever faults wait in the store and however
long the op has waited: an update stands in the tracker and in the repository, a task that is told to
be forgotten is in neither, a change that was not written is undone, and one of which nobody knows is
the only one that leaves them apart. No other task changes. -/
theorem truthful_processWithin (limit : Span) (patience : Int) (op : StateOp) (b : Books)
    (wellFormed : b.tracker.WellFormed) (keyed : b.repository.Keyed)
    (readsBack : ∀ t, (b.change op).newTask? = some t → ReadsBack t) :
    b.Truthful op (b.processWithin limit patience op).2 (b.processWithin limit patience op).1 ∧
      b.Frame op.taskId (b.processWithin limit patience op).2 := by
  refine ⟨?_, (frame_processWithin ⟨wellFormed.assembled, keyed⟩ limit patience op).1⟩
  rcases b.processWithin_cases limit patience op with refused | refused | applied
  · rw [refused]
    exact ⟨rfl, rfl⟩
  · rw [refused]
    exact ⟨rfl, rfl⟩
  · rw [applied]
    exact (handled_apply limit op b).truthful wellFormed keyed readsBack

end Books

/-- The launch is not written, so the tracker goes back to the task that waits. -/
theorem truthful_processWithin_sample :
    (∀ t, (Sample.books.change Sample.launch).newTask? = some t → ReadsBack t) ∧
    ∃ after, Sample.books.processWithin Sample.limit 0 Sample.launch =
        (.failure (.persist Sample.waitingTask.id
          (.failed ("task " ++ Sample.waitingTask.id.text) .writeRejection)), after) ∧
      after.repository.Holds Sample.waitingTask.id (after.tracker.task? Sample.waitingTask.id) := by
  have readsBack : ∀ t, (Sample.books.change Sample.launch).newTask? = some t → ReadsBack t := by
    decide +kernel
  have truthful := Books.truthful_processWithin Sample.limit 0 Sample.launch Sample.books
    Sample.wellFormed_books Sample.keyed_books readsBack
  have reply : (Sample.books.processWithin Sample.limit 0 Sample.launch).1 =
      .failure (.persist Sample.waitingTask.id
        (.failed ("task " ++ Sample.waitingTask.id.text) .writeRejection)) := by
    decide +kernel
  rw [reply] at truthful
  refine ⟨readsBack, (Sample.books.processWithin Sample.limit 0 Sample.launch).2, ?_, truthful.1.2⟩
  rw [← reply]

end Placement
