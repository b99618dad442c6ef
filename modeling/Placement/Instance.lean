/-
Instances: the tasks that share an instance id, and what follows from them.

The condition of an instance is that of its task of least rank, and it is healthy only if all its
tasks report so. An instance is rebuilt from its tasks whenever one of them changes.
-/
import Placement.Task

namespace Placement

structure InstanceState where
  condition : Condition
  since : Timestamp
  healthy : Option Bool
  deriving DecidableEq, Repr

structure Instance where
  id : InstanceId
  runSpecId : RunSpecId
  agent : AgentInfo
  runSpecVersion : Timestamp
  state : InstanceState
  tasks : OrderedMap TaskId Task
  deriving DecidableEq, Repr

/-- The task of least rank; of several the first. -/
def dominantTask : Task → List Task → Task
  | t, [] => t
  | t, u :: rest => dominantTask (if u.condition.rank < t.condition.rank then u else t) rest

/-- The health of all tasks together, unknown as soon as one is. -/
def jointHealth (tasks : List Task) : Option Bool :=
  tasks.foldlM (fun ok t => t.status.healthy.map (ok && ·)) true

namespace Instance

/-- The state that tasks give their instance. -/
def aggregate (first : Task) (rest : List Task) : InstanceState :=
  let dominant := dominantTask first rest
  ⟨dominant.condition, dominant.status.since, jointHealth (first :: rest)⟩

/-- The instance of a set of tasks, `none` for no tasks. The first of them gives the id, the run
spec, the agent and the version. -/
def ofTaskMap (tasks : OrderedMap TaskId Task) : Option Instance :=
  match tasks.values with
  | [] => none
  | first :: rest => some {
      id := first.instanceId
      runSpecId := first.runSpecId
      agent := first.agent
      runSpecVersion := first.runSpecVersion
      state := aggregate first rest
      tasks := tasks }

/-- The instance of a list of tasks; of two tasks of one id the later counts. -/
def ofTasks (tasks : List Task) : Option Instance :=
  ofTaskMap (OrderedMap.ofList (tasks.map fun t => (t.id, t)))

/-- The instance with a task added or replaced. -/
def withTask (i : Instance) (t : Task) : Instance :=
  (ofTasks (i.tasks.insert t.id t).values).getD i

/-- The instance without a task, `none` if no task is left. -/
def withoutTask (i : Instance) (id : TaskId) : Option Instance :=
  ofTasks (i.tasks.erase id).values

def condition (i : Instance) : Condition := i.state.condition

/-- The instance counts as placed: it runs, or it has come to its end and is still remembered. -/
def isPlaced (i : Instance) : Bool := i.condition.isActive || i.condition.isTerminal

def task? (i : Instance) (id : TaskId) : Option Task := i.tasks.find? id

/-- Some task of the instance waits on its reservation. -/
def hasReservedTask (i : Instance) : Bool := i.tasks.values.any Task.isReserved

end Instance

end Placement
