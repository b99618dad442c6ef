/-
Changes come of a task and are changes of that task.

* `Change.IsFor` names the task that a change is of, and `StateOp.isFor_resolve` says that an op
  changes its own.
* `Change.ComesOf` says that what is forgotten is what was known, and that what is refused is refused
  because of the task.
* `Tracker.task?_notify` says what a tracker knows after a change: the change in its own task, and
  what it knew of all others.
-/
import Placement.Proofs.Stored
import Placement.Proofs.Tracker

namespace Placement

namespace Change

/-- The change is of the task `id`, if it changes one. -/
def IsFor (id : TaskId) : Change → Prop
  | update new _ => new.id = id
  | expunge old => old.id = id
  | noChange _ => True
  | failure _ => True

/-- The change is one that is written. -/
def Writes : Change → Prop
  | update _ _ => True
  | expunge _ => True
  | noChange _ => False
  | failure _ => False

/-- Documents once a change is written. -/
def write (documents : OrderedMap TaskId Json) : Change → OrderedMap TaskId Json
  | update new _ => documents.insert new.id (toJson new)
  | expunge old => documents.erase old.id
  | noChange _ => documents
  | failure _ => documents

theorem find?_write {id : TaskId} {change : Change} (h : change.IsFor id)
    (documents : OrderedMap TaskId Json) {k : TaskId} (hk : k ≠ id) :
    (change.write documents).find? k = documents.find? k := by
  cases change with
  | update new old =>
    have hne : k ≠ new.id := fun e => hk (e.trans h)
    rw [write, OrderedMap.find?_insert, if_neg hne]
  | expunge old =>
    have hne : k ≠ old.id := fun e => hk (e.trans h)
    rw [write, OrderedMap.find?_erase, if_neg hne]
  | noChange _ => rfl
  | failure _ => rfl

end Change

/-- An op is not applied because of the task, rather than because of the books. -/
def ChangeError.OfTask : ChangeError → Prop
  | unknownTask _ _ => True
  | terminalTask _ _ _ => True
  | alreadyExists _ => True
  | invalidTransition _ _ _ => True
  | tracker _ _ => False
  | persist _ _ => False
  | unverified _ _ _ => False
  | deadlineExceeded _ => False
  | unavailable => False

/-- What is forgotten is what was known, and what is refused is refused because of it. -/
def Change.ComesOf (current : Option Task) : Change → Prop
  | update _ _ => True
  | expunge old => current = some old
  | noChange _ => True
  | failure e => e.OfTask

namespace StateOp

theorem comesOf_applyReport (t : Task) (r : StatusReport) (now : Timestamp) :
    (applyReport t r now).ComesOf (some t) := by
  unfold applyReport
  simp only
  split
  · trivial
  · split
    · trivial
    · split
      · trivial
      · split
        · trivial
        · split
          · rfl
          · trivial

theorem comesOf_resolveLive (op : StateOp) (t : Task) : (op.resolveLive t).ComesOf (some t) := by
  cases op with
  | launchEphemeral new => trivial
  | report id r now => exact comesOf_applyReport t r now
  | forceExpunge id => rfl
  | reservationTimeout id =>
    simp only [resolveLive]
    split
    · rfl
    · trivial
  | _ =>
    simp only [resolveLive]
    split <;> trivial

theorem comesOf_resolve (op : StateOp) (current : Option Task) :
    (op.resolve current).ComesOf current := by
  cases current with
  | none => cases op <;> trivial
  | some t =>
    cases op with
    | forceExpunge id => rfl
    | _ =>
      simp only [resolve]
      split
      · trivial
      · exact comesOf_resolveLive _ t

/-- An op changes the task it is for, if the task that is known is that task. -/
theorem isFor_resolve {op : StateOp} {current : Option Task}
    (h : ∀ t, current = some t → t.id = op.taskId) : (op.resolve current).IsFor op.taskId := by
  have comes := op.comesOf_resolve current
  cases hr : op.resolve current with
  | update new old =>
    cases current with
    | none =>
      cases op <;> cases hr
      all_goals rfl
    | some t =>
      have step := Task.step_resolve t op
      rw [hr] at step
      exact step.continues.id.trans (h t rfl)
  | expunge old =>
    rw [hr] at comes
    exact h old comes
  | noChange _ => trivial
  | failure _ => trivial

end StateOp

namespace Tracker

/-- A tracker follows a change in the task it is for, and in no other. -/
theorem task?_notify {t t' : Tracker} (h : t.Assembled) {id : TaskId} {change : Change}
    (hfor : change.IsFor id) (hn : t.notify change = .ok t') (k : TaskId) :
    t'.task? k = if k = id then change.follow (t.task? id) else t.task? k := by
  cases change with
  | update new old =>
    obtain rfl : new.id = id := hfor
    exact task?_putTask h hn k
  | expunge old =>
    obtain rfl : old.id = id := hfor
    obtain rfl := Except.ok.inj hn
    exact task?_dropTask h old k
  | noChange _ =>
    obtain rfl := Except.ok.inj hn
    split
    · next hk => rw [hk]; rfl
    · rfl
  | failure _ =>
    obtain rfl := Except.ok.inj hn
    split
    · next hk => rw [hk]; rfl
    · rfl

theorem Assembled.notify {t t' : Tracker} (h : t.Assembled) {change : Change}
    (hn : t.notify change = .ok t') : t'.Assembled := by
  cases change with
  | update new old => exact h.putTask hn
  | expunge old => exact Except.ok.inj hn ▸ h.dropTask old
  | noChange _ => exact Except.ok.inj hn ▸ h
  | failure _ => exact Except.ok.inj hn ▸ h

theorem WellFormed.notify {t t' : Tracker} (h : t.WellFormed) {change : Change}
    (hn : t.notify change = .ok t') : t'.WellFormed := by
  cases change with
  | update new old => exact h.putTask hn
  | expunge old => exact Except.ok.inj hn ▸ h.dropTask old
  | noChange _ => exact Except.ok.inj hn ▸ h
  | failure _ => exact Except.ok.inj hn ▸ h

end Tracker

end Placement
