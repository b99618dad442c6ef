/-
State ops: transitions that are asked of one task. Whether and how a transition happens is decided
by `StateOp.resolve`, in `Change`.
-/
import Placement.Task

namespace Placement

inductive StateOp where
  /-- Remember a task that has just been launched. -/
  | launchEphemeral (task : Task)
  /-- Remember a task that holds a new reservation. -/
  | reserve (task : Task)
  /-- Launch a task on the reservation it holds. -/
  | launchOnReservation (id : TaskId) (runSpecVersion : Timestamp) (status : TaskStatus)
      (hostPorts : List Port)
  /-- Take in a report of the resource manager. -/
  | report (id : TaskId) (report : StatusReport) (now : Timestamp)
  /-- Give up a reservation on which nothing was launched in time. -/
  | reservationTimeout (id : TaskId)
  /-- Forget the task whatever its condition. -/
  | forceExpunge (id : TaskId)
  /-- Count an unreachable task as placed no longer. -/
  | markUnreachableInactive (id : TaskId)
  deriving DecidableEq, Repr

namespace StateOp

/-- The task that is asked to change. -/
def taskId : StateOp → TaskId
  | launchEphemeral t => t.id
  | reserve t => t.id
  | launchOnReservation id _ _ _ => id
  | report id _ _ => id
  | reservationTimeout id => id
  | forceExpunge id => id
  | markUnreachableInactive id => id

/-- Ops by name alone. -/
inductive Kind where
  | launchEphemeral
  | reserve
  | launchOnReservation
  | report
  | reservationTimeout
  | forceExpunge
  | markUnreachableInactive
  deriving DecidableEq, Repr

def Kind.name : Kind → String
  | launchEphemeral => "launch_ephemeral"
  | reserve => "reserve"
  | launchOnReservation => "launch_on_reservation"
  | report => "mesos_update"
  | reservationTimeout => "reservation_timeout"
  | forceExpunge => "force_expunge"
  | markUnreachableInactive => "mark_unreachable_inactive"

def kind : StateOp → Kind
  | launchEphemeral _ => .launchEphemeral
  | reserve _ => .reserve
  | launchOnReservation _ _ _ _ => .launchOnReservation
  | report _ _ _ => .report
  | reservationTimeout _ => .reservationTimeout
  | forceExpunge _ => .forceExpunge
  | markUnreachableInactive _ => .markUnreachableInactive

end StateOp

end Placement
