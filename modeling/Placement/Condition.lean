/-
Conditions of a task, from reserved or launched to gone, and the states that the resource manager
reports.

A task is launched as `created` and moves on by reports; terminal conditions are final. A task that
is unreachable for long becomes inactive. `reserved` is the condition of a task that holds resources
but does not run.
-/

namespace Placement

/-- The condition of a task. -/
inductive Condition where
  | reserved
  | created
  | staging
  | starting
  | running
  | killing
  | killed
  | finished
  | failed
  | error
  | gone
  | dropped
  | unreachable
  | unreachableInactive
  | unknown
  deriving DecidableEq, Repr

namespace Condition

def all : List Condition :=
  [reserved, created, staging, starting, running, killing, killed, finished, failed, error, gone,
    dropped, unreachable, unreachableInactive, unknown]

/-- The task has come to its end. -/
def isTerminal : Condition → Bool
  | error | failed | finished | killed | gone | dropped | unknown => true
  | _ => false

/-- The task runs or is about to run, as far as is known. -/
def isActive : Condition → Bool
  | created | staging | starting | running | killing | unreachable => true
  | _ => false

/-- Nothing is known of the task any more. -/
def isLost : Condition → Bool
  | gone | unreachable | unknown | dropped => true
  | _ => false

/-- The condition of least rank among its tasks is the condition of an instance. -/
def rank : Condition → Nat
  | error => 0
  | failed => 1
  | gone => 2
  | dropped => 3
  | unknown => 4
  | killed => 5
  | killing => 6
  | unreachableInactive => 7
  | unreachable => 8
  | reserved => 9
  | created => 10
  | staging => 11
  | starting => 12
  | running => 13
  | finished => 14

def name : Condition → String
  | reserved => "reserved"
  | created => "created"
  | staging => "staging"
  | starting => "starting"
  | running => "running"
  | killing => "killing"
  | killed => "killed"
  | finished => "finished"
  | failed => "failed"
  | error => "error"
  | gone => "gone"
  | dropped => "dropped"
  | unreachable => "unreachable"
  | unreachableInactive => "unreachable_inactive"
  | unknown => "unknown"

end Condition

/-- A task state as the resource manager reports it. -/
inductive ReportedState where
  | staging
  | starting
  | running
  | killing
  | finished
  | failed
  | killed
  | error
  | lost
  | dropped
  | unreachable
  | gone
  | goneByOperator
  | unknown
  deriving DecidableEq, Repr

namespace ReportedState

def all : List ReportedState :=
  [staging, starting, running, killing, finished, failed, killed, error, lost, dropped, unreachable,
    gone, goneByOperator, unknown]

def name : ReportedState → String
  | staging => "staging"
  | starting => "starting"
  | running => "running"
  | killing => "killing"
  | finished => "finished"
  | failed => "failed"
  | killed => "killed"
  | error => "error"
  | lost => "lost"
  | dropped => "dropped"
  | unreachable => "unreachable"
  | gone => "gone"
  | goneByOperator => "gone_by_operator"
  | unknown => "unknown"

/-- The condition that a report puts a task in. -/
def condition : ReportedState → Condition
  | staging => .staging
  | starting => .starting
  | running => .running
  | killing => .killing
  | finished => .finished
  | failed => .failed
  | killed => .killed
  | error => .error
  | dropped => .dropped
  | lost | unreachable => .unreachable
  | gone | goneByOperator => .gone
  | unknown => .unknown

end ReportedState

end Placement
