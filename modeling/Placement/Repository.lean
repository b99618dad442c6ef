/-
The repository: tasks as they are stored, each as the JSON form of the task under its id.

Writes can be made to fail in three ways, and reads to fail a number of times; the faults wait in the
repository and meet the next calls.
-/
import Placement.Change
import Placement.Form.Task

namespace Placement

/-- What happens to a write. -/
inductive WriteFault where
  /-- It is refused and has no effect. -/
  | reject
  /-- It has its effect and is reported as failed. -/
  | lostAck
  /-- It never answers and has no effect. -/
  | hang
  deriving DecidableEq, Repr

structure Repository where
  documents : OrderedMap TaskId Json
  /-- Faults of the next writes, in their order. -/
  writeFaults : List WriteFault
  /-- How many of the next reads fail. -/
  failingReads : Nat

namespace Repository

def empty : Repository := ⟨∅, [], 0⟩

def size (r : Repository) : Nat := r.documents.size

/-- What a stored document says under its id. -/
def decode (id : TaskId) (j : Json) : Except StoreFault Task :=
  match ofJson? j with
  | some t => .ok t
  | none => .error (.undecodable id)

/-- The task stored under an id, as it would be read without faults. -/
def stored? (r : Repository) (id : TaskId) : Option Task :=
  (r.documents.find? id).bind ofJson?

/-- Puts a task where no fault can meet it. -/
def put (r : Repository) (t : Task) : Repository :=
  { r with documents := r.documents.insert t.id (toJson t) }

def remove (r : Repository) (id : TaskId) : Repository :=
  { r with documents := r.documents.erase id }

/-! ## Faults -/

def addWriteFault (r : Repository) (f : WriteFault) : Repository :=
  { r with writeFaults := r.writeFaults ++ [f] }

def addFailingReads (r : Repository) (n : Nat) : Repository :=
  { r with failingReads := r.failingReads + n }

/-- A write with the next fault, if one waits. -/
def write (r : Repository) (effect : Repository → Repository) : TimedCall StoreFault Unit × Repository :=
  match r.writeFaults with
  | [] => (.answers 0 (.ok ()), effect r)
  | f :: rest =>
    let r := { r with writeFaults := rest }
    match f with
    | .reject => (.answers 0 (.error .writeRejection), r)
    | .lostAck => (.answers 0 (.error .lostAcknowledgement), effect r)
    | .hang => (.never, r)

/-- A read, unless the next one is to fail. -/
def read {α : Type} (r : Repository) (result : Except StoreFault α) :
    TimedCall StoreFault α × Repository :=
  if 0 < r.failingReads then
    (.answers 0 (.error .readFailure), { r with failingReads := r.failingReads - 1 })
  else (.answers 0 result, r)

/-! ## Calls -/

/-- Stores a task in place of what is under its id. -/
def store (r : Repository) (t : Task) : TimedCall StoreFault Unit × Repository :=
  r.write fun r => r.put t

/-- Deletes what is under an id; it need not be there. -/
def delete (r : Repository) (id : TaskId) : TimedCall StoreFault Unit × Repository :=
  r.write fun r => r.remove id

/-- The task under an id. -/
def get (r : Repository) (id : TaskId) : TimedCall StoreFault (Option Task) × Repository :=
  r.read <|
    match r.documents.find? id with
    | none => .ok none
    | some j => (decode id j).map some

/-- All tasks, in the order of their ids. -/
def all (r : Repository) : TimedCall StoreFault (List Task) × Repository :=
  r.read (r.documents.entries.mapM fun e => decode e.1 e.2)

end Repository

end Placement
