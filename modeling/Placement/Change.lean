/-
Changes of a task: what becomes of a state op.

`StateOp.resolve` decides from the op and the task as it is known, and from nothing else. In order:
forgetting a task always succeeds; a terminal task takes no other op; all else depends on the op and
on the condition of the task. An op without effect gives no change.
-/
import Placement.Bounded
import Placement.StateOp

namespace Placement

/-- What can go wrong in the repository of tasks. -/
inductive StoreFault where
  | readFailure
  | writeRejection
  | lostAcknowledgement
  | undecodable (id : TaskId)
  deriving DecidableEq, Repr

def StoreFault.message : StoreFault → String
  | readFailure => "store unavailable: injected read failure"
  | writeRejection => "store unavailable: injected write rejection"
  | lostAcknowledgement => "store unavailable: injected lost acknowledgement"
  | undecodable id => "failed to decode task " ++ id.text

/-- How a bounded call of the repository fails. -/
abbrev StoreCallError := CallError StoreFault

def StoreCallError.message (e : StoreCallError) : String :=
  (if e.isTimeout then "store call timed out: " else "store unavailable: ")
    ++ CallError.message StoreFault.message e

/-- Why the tracker does not take a change. -/
inductive TrackerError where
  /-- The instance of the task belongs to another run spec. -/
  | rejected (id : TaskId) (owner : RunSpecId)
  deriving DecidableEq, Repr

def TrackerError.message : TrackerError → String
  | rejected id owner =>
    "change of task " ++ id.text ++ " rejected: instance " ++ id.instanceId.text ++ " belongs to "
      ++ owner.path

/-- Why a state op is not applied. -/
inductive ChangeError where
  | unknownTask (id : TaskId) (op : StateOp.Kind)
  | terminalTask (id : TaskId) (condition : Condition) (op : StateOp.Kind)
  | alreadyExists (id : TaskId)
  | invalidTransition (id : TaskId) (condition : Condition) (op : StateOp.Kind)
  | tracker (id : TaskId) (error : TrackerError)
  /-- The write failed, and reading back shows that it had no effect. -/
  | persist (id : TaskId) (write : StoreCallError)
  /-- The write failed, and so did reading back. -/
  | unverified (id : TaskId) (write reload : StoreCallError)
  | deadlineExceeded (id : TaskId)
  | unavailable
  deriving DecidableEq, Repr

def ChangeError.message : ChangeError → String
  | unknownTask id op => "task " ++ id.text ++ " is unknown, cannot apply " ++ op.name
  | terminalTask id condition op =>
    "task " ++ id.text ++ " is terminal (" ++ condition.name ++ "), cannot apply " ++ op.name
  | alreadyExists id => "task " ++ id.text ++ " already exists"
  | invalidTransition id condition op =>
    "cannot apply " ++ op.name ++ " to task " ++ id.text ++ " in condition " ++ condition.name
  | tracker id error => "tracker rejected change of task " ++ id.text ++ ": " ++ error.message
  | persist id write => "failed to persist task " ++ id.text ++ ": " ++ StoreCallError.message write
  | unverified id write reload =>
    "failed to persist task " ++ id.text ++ ": " ++ StoreCallError.message write
      ++ "; reload failed too: " ++ StoreCallError.message reload
  | deadlineExceeded id => "deadline passed before op on task " ++ id.text ++ " was processed"
  | unavailable => "state op processor is not running"

/-- What becomes of a state op. -/
inductive Change where
  | update (new : Task) (old : Option Task)
  | expunge (task : Task)
  | noChange (id : TaskId)
  | failure (error : ChangeError)
  deriving DecidableEq, Repr

namespace Change

def isFailure : Change → Bool
  | failure _ => true
  | _ => false

/-- The task as it is after the change, if the change says so. -/
def newTask? : Change → Option Task
  | update new _ => some new
  | _ => none

/-- What is known of a task once a change of it is followed. -/
def follow (current : Option Task) : Change → Option Task
  | update new _ => some new
  | expunge _ => none
  | noChange _ => current
  | failure _ => current

end Change

namespace StateOp

/-- A report on a task that is not terminal. A task with a reservation keeps it when it ends, and
waits on it; one that is lost without a reservation is forgotten. -/
def applyReport (t : Task) (r : StatusReport) (now : Timestamp) : Change :=
  let next := r.state.condition
  if t.condition = .reserved then .noChange t.id
  else if next = t.condition ∧ r.healthy = t.status.healthy then .noChange t.id
  else if t.condition = .unreachableInactive ∧ next = .unreachable then .noChange t.id
  else
    match next.isTerminal, t.reservation with
    | true, some reservation =>
      .update { t with
        status := { t.status with report := some r, condition := .reserved, since := now }
        hostPorts := []
        reservation := some { reservation with state := .suspended none } } (some t)
    | _, _ =>
      if next.isTerminal && next.isLost then .expunge t
      else
        .update { t with
          status := {
            stagedAt := t.status.stagedAt
            startedAt :=
              if next = .running ∧ t.status.startedAt.isNone then some now else t.status.startedAt
            condition := next
            since := if next = t.condition then t.status.since else now
            report := some r } } (some t)

/-- What an op does to a task that is known and not terminal. -/
def resolveLive (op : StateOp) (t : Task) : Change :=
  let invalid := Change.failure (.invalidTransition op.taskId t.condition op.kind)
  match op with
  | launchEphemeral _ => .failure (.alreadyExists op.taskId)
  | reserve _ => if t.isReserved then .noChange op.taskId else invalid
  | launchOnReservation _ version status hostPorts =>
    if t.isReserved then
      .update { t with
        runSpecVersion := version
        status := status
        hostPorts := hostPorts
        reservation := t.reservation.map fun r => { r with state := .launched } } (some t)
    else invalid
  | report _ r now => applyReport t r now
  | reservationTimeout _ => if t.isReserved then .expunge t else invalid
  | markUnreachableInactive _ =>
    if t.condition = .unreachable then
      .update { t with status := { t.status with condition := .unreachableInactive } } (some t)
    else .noChange op.taskId
  | forceExpunge _ => .expunge t

/-- What becomes of an op, given the task as it is known. -/
def resolve (op : StateOp) (current : Option Task) : Change :=
  match op, current with
  | forceExpunge _, some t => .expunge t
  | forceExpunge id, none => .noChange id
  | launchEphemeral new, none => .update new none
  | reserve new, none => .update new none
  | _, none => .failure (.unknownTask op.taskId op.kind)
  | _, some t =>
    if t.condition.isTerminal then .failure (.terminalTask op.taskId t.condition op.kind)
    else resolveLive op t

end StateOp

end Placement
