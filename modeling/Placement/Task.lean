/-
Tasks: what is known of each, and is stored of each.
-/
import Placement.Condition
import Placement.Id.TaskId
import Placement.Offer
import Placement.RunSpec

namespace Placement

/-- A report of the resource manager on a task. -/
structure StatusReport where
  state : ReportedState
  healthy : Option Bool
  message : Option String
  timestamp : Timestamp
  deriving DecidableEq, Repr

def StatusReport.ofState (state : ReportedState) (at_ : Timestamp) : StatusReport :=
  ⟨state, none, none, at_⟩

structure TaskStatus where
  stagedAt : Timestamp
  startedAt : Option Timestamp
  condition : Condition
  /-- When the task came into its condition. -/
  since : Timestamp
  report : Option StatusReport
  deriving DecidableEq, Repr

namespace TaskStatus

/-- The status of a task that comes into being. -/
def fresh (condition : Condition) (now : Timestamp) : TaskStatus :=
  ⟨now, none, condition, now, none⟩

def healthy (s : TaskStatus) : Option Bool := s.report.bind StatusReport.healthy

end TaskStatus

/-- The time within which a reservation has to be used. -/
structure ReservationTimeout where
  initiated : Timestamp
  deadline : Timestamp
  deriving DecidableEq, Repr

inductive ReservationState where
  /-- Made, and not yet used. -/
  | new (timeout : Option ReservationTimeout)
  /-- A task runs on it. -/
  | launched
  /-- The task on it has ended. -/
  | suspended (timeout : Option ReservationTimeout)
  deriving DecidableEq, Repr

def ReservationState.timeout : ReservationState → Option ReservationTimeout
  | new t => t
  | suspended t => t
  | launched => none

/-- Resources and volumes held for one task. -/
structure Reservation where
  volumeIds : List VolumeId
  state : ReservationState
  deriving DecidableEq, Repr

structure Task where
  id : TaskId
  agent : AgentInfo
  runSpecVersion : Timestamp
  status : TaskStatus
  hostPorts : List Port
  reservation : Option Reservation
  unreachableStrategy : UnreachableStrategy
  deriving DecidableEq, Repr

namespace Task

def condition (t : Task) : Condition := t.status.condition

def instanceId (t : Task) : InstanceId := t.id.instanceId

def runSpecId (t : Task) : RunSpecId := t.id.runSpecId

/-- The task holds a reservation. -/
def isResident (t : Task) : Bool := t.reservation.isSome

/-- The task waits on its reservation. -/
def isReserved (t : Task) : Bool := t.condition == .reserved

def reservationDeadline (t : Task) : Option Timestamp :=
  (t.reservation.bind (·.state.timeout)).map (·.deadline)

def volumeIds (t : Task) : List VolumeId := (t.reservation.map (·.volumeIds)).getD []

end Task

end Placement
