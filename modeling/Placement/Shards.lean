/-
The processor at work on ops of several tasks at once, as long as it runs. The ops of one task are taken
one at a time, in their order. Those of different tasks take turns in small steps: a step reads a task
from the tracker and decides what becomes of it, or has the tracker take the change, or has the
repository take it and answers. Together these are what `Books.apply` does in one.

`Shards.run` follows any order of turns. A worker that has several tasks makes fewer orders possible,
for it finishes one op before it takes the next.
-/
import Placement.Processor

namespace Placement

/-- Where the work on a task stands. -/
inductive WorkStage where
  /-- No op is being worked on. -/
  | idle
  /-- About to tell the tracker of a change. -/
  | decided (change : Change)
  /-- About to write a change that the tracker has taken. -/
  | tracked (change : Change)
  /-- About to answer that the tracker has not taken the change. -/
  | refused (error : TrackerError)
  deriving DecidableEq

/-- The work on one task. -/
structure Work where
  /-- Ops that are not answered yet; the first is the one that is worked on. -/
  waiting : List StateOp
  stage : WorkStage
  /-- The answers so far, in the order of the ops. -/
  replies : List Change
  deriving DecidableEq

/-- The work that is done once all ops are answered. -/
def Work.isDone (w : Work) : Prop := w.waiting = [] ∧ w.stage = .idle

/-- Answers the op that is worked on. -/
def Work.answer (w : Work) (reply : Change) : Work := ⟨w.waiting.tail, .idle, w.replies ++ [reply]⟩

structure Shards where
  books : Books
  /-- The limit of every call of the repository. -/
  limit : Span
  work : TaskId → Work

namespace Shards

/-- A processor that is about to take ops; those of one task stand in their order. -/
def start (limit : Span) (ops : List StateOp) (b : Books) : Shards :=
  ⟨b, limit, fun id => ⟨ops.filter (·.taskId = id), .idle, []⟩⟩

/-- One step of the work on a task, and what it makes of the books. -/
def stepWork (limit : Span) (id : TaskId) (b : Books) (w : Work) : Books × Work :=
  match w.stage, w.waiting with
  | .idle, [] => (b, w)
  | .idle, op :: _ => (b, { w with stage := .decided (op.resolve (b.tracker.task? op.taskId)) })
  | .decided change, _ =>
    match b.tracker.notify change with
    | .error e => (b, { w with stage := .refused e })
    | .ok tracker => ({ b with tracker := tracker }, { w with stage := .tracked change })
  | .tracked change, _ =>
    let (reply, b) := b.persist limit id change
    (b, w.answer reply)
  | .refused e, _ => (b, w.answer (.failure (.tracker id e)))

/-- One step of the work on a task. -/
def step (s : Shards) (id : TaskId) : Shards :=
  let (books, work) := stepWork s.limit id s.books (s.work id)
  { s with books := books, work := fun k => if k = id then work else s.work k }

/-- Steps in the order of a list of tasks; a task without ops is passed over. -/
def run (s : Shards) : List TaskId → Shards
  | [] => s
  | id :: rest => (s.step id).run rest

/-- Every op is answered. -/
def isDone (s : Shards) : Prop := ∀ id, (s.work id).isDone

end Shards

/-! ## Outcomes -/

/-- What ops come to: the replies to those of each task, in their order, and what is known and stored
after them. -/
structure Outcome where
  replies : TaskId → List Change
  tracker : Tracker
  repository : Repository

def Shards.outcome (s : Shards) : Outcome :=
  ⟨fun id => (s.work id).replies, s.books.tracker, s.books.repository⟩

/-- The replies to the ops of one task, out of the replies to all. -/
def repliesTo (id : TaskId) (ops : List StateOp) (replies : List Change) : List Change :=
  ((ops.zip replies).filter (·.1.taskId = id)).map (·.2)

/-- What comes of ops that are processed one after another. -/
def Books.outcome (limit : Span) (ops : List StateOp) (b : Books) : Outcome :=
  ⟨fun id => repliesTo id ops (b.processAll limit ops).1, (b.processAll limit ops).2.tracker,
    (b.processAll limit ops).2.repository⟩

end Placement
