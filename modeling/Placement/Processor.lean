/-
The processor of state ops: it applies ops to the tracker and the repository, one at a time.

An op is resolved against the task as the tracker knows it, then the tracker takes the change, then
the repository. A failed write is checked by reading back: if the repository holds what was intended,
the change stands; if it holds something else, the tracker is set back to that; if it cannot be read,
nobody knows, and the answer says so.
-/
import Placement.Intent
import Placement.Tracker

namespace Placement

structure ProcessorSettings where
  /-- How many workers take ops. -/
  shards : Nat
  /-- How many ops can wait for one worker. -/
  mailboxSize : Nat
  /-- The limit of every call of the repository. -/
  storeTimeout : Span
  /-- How long an op may wait. -/
  opDeadline : Span
  deriving DecidableEq, Repr

def ProcessorSettings.usual : ProcessorSettings := ⟨8, 256, .ofSeconds 5, .ofSeconds 10⟩

/-- A call that the processor makes of the repository. -/
inductive StoreCall where
  | store (id : TaskId) (condition : Condition)
  | delete (id : TaskId)
  | get (id : TaskId)
  deriving DecidableEq, Repr

/-- What the processor works on. -/
structure Books where
  tracker : Tracker
  repository : Repository
  /-- The processor still takes ops. -/
  running : Bool
  /-- Calls made of the repository, the latest first. -/
  calls : List StoreCall
  /-- Nanoseconds spent waiting for the repository. -/
  waited : Nat

namespace Books

/-- Books with nothing in them. -/
def empty : Books := ⟨.empty, .empty, true, [], 0⟩

/-- Makes a bounded call of the repository on behalf of a task. -/
def call {α : Type} (limit : Span) (id : TaskId) (b : Books) (entry : StoreCall)
    (answer : TimedCall StoreFault α × Repository) :
    Except StoreCallError α × Books :=
  (bounded limit ("task " ++ id.text) answer.1,
    { b with
      repository := answer.2
      calls := entry :: b.calls
      waited := b.waited + boundedTime limit answer.1 })

/-- Lets the tracker follow what was found in the repository in place of what was intended. -/
def correct (b : Books) (believed found : Option Task) : Books :=
  let correction : Option Change :=
    match found, believed with
    | some stored, believed => some (.update stored believed)
    | none, some task => some (.expunge task)
    | none, none => none
  match correction.map b.tracker.notify with
  | some (.ok tracker) => { b with tracker := tracker }
  | some (.error _) => b
  | none => b

/-- Decides on a change whose write failed, by reading the task back. -/
def verify (limit : Span) (id : TaskId) (change : Change) (intent : Intent Task)
    (write : StoreCallError) (b : Books) : Change × Books :=
  let (reloaded, b) := b.call limit id (.get id) (b.repository.get id)
  match intent.checkReload reloaded, reloaded with
  | .converged, _ => (change, b)
  | _, .error reload => (.failure (.unverified id write reload), b)
  | _, .ok found => (.failure (.persist id write), b.correct change.newTask? found)

/-- Writes a change that the tracker has taken. -/
def persist (limit : Span) (id : TaskId) (change : Change) (b : Books) : Change × Books :=
  match change with
  | .update new _ =>
    match b.call limit id (.store new.id new.condition) (b.repository.store new) with
    | (.ok (), b) => (change, b)
    | (.error e, b) => b.verify limit id change (.present new) e
  | .expunge old =>
    match b.call limit id (.delete old.id) (b.repository.delete old.id) with
    | (.ok (), b) => (change, b)
    | (.error e, b) => b.verify limit id change .absent e
  | .noChange _ => (change, b)
  | .failure _ => (change, b)

/-- Applies an op. -/
def apply (limit : Span) (op : StateOp) (b : Books) : Change × Books :=
  let change := op.resolve (b.tracker.task? op.taskId)
  match b.tracker.notify change with
  | .error e => (.failure (.tracker op.taskId e), b)
  | .ok tracker => { b with tracker := tracker }.persist limit op.taskId change

/-- Takes an op that may wait for `patience` nanoseconds more; below zero it has waited too long. A
processor that has been stopped takes none. -/
def processWithin (limit : Span) (patience : Int) (op : StateOp) (b : Books) : Change × Books :=
  if !b.running then (.failure .unavailable, b)
  else if patience < 0 then (.failure (.deadlineExceeded op.taskId), b)
  else b.apply limit op

/-- Takes an op that does not have to wait. -/
def process (limit : Span) (op : StateOp) (b : Books) : Change × Books :=
  b.processWithin limit 0 op

/-- Takes ops one after another; the replies stand in the same order. -/
def processAll (limit : Span) : List StateOp → Books → List Change × Books
  | [], b => ([], b)
  | op :: rest, b =>
    let (change, b) := b.process limit op
    let (changes, b) := processAll limit rest b
    (change :: changes, b)

/-- Takes ops up to the first that fails, and tells whether none did. -/
def recordAll (limit : Span) : List StateOp → Books → Bool × Books
  | [], b => (true, b)
  | op :: rest, b =>
    let (change, b) := b.process limit op
    if change.isFailure then (false, b) else recordAll limit rest b

/-! ## Stopping -/

/-- How long a worker may finish what it is doing, in nanoseconds. -/
def grace : Nat := 10000000000

def shutdown (b : Books) : Books := { b with running := false }

/-- A millisecond in nanoseconds. -/
def millisecond : Nat := 1000000

/-- Takes an op and is stopped a millisecond later. An op that is still waiting for its write at the
end of the grace time is dropped where it stands, and its sender gets no other answer than that the
processor is gone. -/
def processDuringShutdown (limit : Span) (op : StateOp) (b : Books) : Change × Books :=
  let (change, after) := b.process limit op
  if after.waited - b.waited ≤ millisecond + grace then (change, after.shutdown)
  else
    let known := op.resolve (b.tracker.task? op.taskId)
    let interrupted :=
      match known with
      | .update new _ =>
        (b.call limit op.taskId (.store new.id new.condition) (b.repository.store new)).2
      | .expunge old => (b.call limit op.taskId (.delete old.id) (b.repository.delete old.id)).2
      | .noChange _ => b
      | .failure _ => b
    (.failure .unavailable, { interrupted with tracker := trackerAfter b known }.shutdown)
where
  /-- The tracker, if it took the change. -/
  trackerAfter (b : Books) (change : Change) : Tracker :=
    match b.tracker.notify change with
    | .ok t => t
    | .error _ => b.tracker

end Books

end Placement
