/-
The resource manager as the scheduler sees it: calls are made of it, and all of them may fail. Calls
are remembered whether they fail or not.
-/
import Placement.Instance
import Placement.Launch.Payload

namespace Placement

inductive ManagerCall (α : Type) where
  | accept (offerId : OfferId) (operations : List (WireOperation α))
  | decline (offerId : OfferId)
  | kill (taskId : TaskId) (agentId : AgentId)
  deriving DecidableEq, Repr

inductive ManagerError where
  /-- The manager is set to fail all calls. -/
  | callFailed
  deriving DecidableEq, Repr

def ManagerError.message : ManagerError → String
  | callFailed => "resource manager call failed: mock driver configured to fail"

structure Manager (α : Type) where
  /-- All calls so far, the latest first. -/
  calls : List (ManagerCall α)
  failing : Bool
  deriving DecidableEq, Repr

namespace Manager

variable {α : Type}

def call (m : Manager α) (c : ManagerCall α) : Except ManagerError Unit × Manager α :=
  (if m.failing then .error .callFailed else .ok (), { m with calls := c :: m.calls })

end Manager

/-! ## Kills -/

/-- Why an instance is killed. -/
inductive KillReason where
  | overdue
  | reservationTimeout
  | scaleDown
  | unreachable
  deriving DecidableEq, Repr

namespace KillReason

def all : List KillReason := [overdue, reservationTimeout, scaleDown, unreachable]

def text : KillReason → String
  | overdue => "overdue"
  | reservationTimeout => "reservation_timeout"
  | scaleDown => "scale_down"
  | unreachable => "unreachable"

end KillReason

/-- A kill of a task that failed. -/
structure KillError where
  taskId : TaskId
  cause : ManagerError
  deriving DecidableEq, Repr

def KillError.message (e : KillError) : String :=
  "failed to kill task " ++ e.taskId.text ++ ": " ++ e.cause.message

namespace Manager

variable {α : Type}

/-- Asks for the kill of each task of a list, whatever becomes of the others; the error is that of
the first kill that failed. -/
def killTasks (m : Manager α) : List Task → Option KillError × Manager α
  | [] => (none, m)
  | t :: rest =>
    let (answer, m) := m.call (.kill t.id t.agent.agentId)
    let (later, m) := killTasks m rest
    (match answer with
      | .ok () => later
      | .error cause => some ⟨t.id, cause⟩, m)

/-- Asks for the kill of all tasks of an instance that have not come to their end. -/
def killInstance (m : Manager α) (i : Instance) : Option KillError × Manager α :=
  m.killTasks (i.tasks.values.filter fun t => !t.condition.isTerminal)

/-- Asks for the kill of instances one after another; what became of each stands in the same
order. -/
def killInstances (m : Manager α) : List Instance → List (Option KillError) × Manager α
  | [] => ([], m)
  | i :: rest =>
    let (error, m) := m.killInstance i
    let (errors, m) := killInstances m rest
    (error :: errors, m)

end Manager

end Placement
