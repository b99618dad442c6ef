/-
The tracker: all instances that are known, by their ids. It changes by changes of single tasks only.

An instance holds the tasks of one run spec. A task of another run spec under the same instance id is
not taken.

A tracker is a value, so `snapshot` fixes an order of the instances. What a program sees of them may stand
in any other (`Listing`).
-/
import Placement.Repository

namespace Placement

structure Tracker where
  instances : OrderedMap InstanceId Instance
  deriving DecidableEq, Repr

namespace Tracker

def empty : Tracker := ⟨∅⟩

/-- All instances, in the order of their ids. -/
def snapshot (t : Tracker) : List Instance := t.instances.values

/-- The instances of a run spec. -/
def knownInstances (t : Tracker) (id : RunSpecId) : List Instance :=
  t.snapshot.filter fun i => i.runSpecId == id

/-- The task of an id, as it is known. -/
def task? (t : Tracker) (id : TaskId) : Option Task :=
  (t.instances.find? id.instanceId).bind (·.task? id)

/-- All tasks, instance by instance. -/
def tasks (t : Tracker) : List Task := t.snapshot.flatMap (·.tasks.values)

/-! ## Following changes -/

/-- Puts an instance under an id, or takes away what is there. -/
def setInstance (t : Tracker) (id : InstanceId) : Option Instance → Tracker
  | some i => ⟨t.instances.insert id i⟩
  | none => ⟨t.instances.erase id⟩

/-- Takes in a new value of a task. -/
def putTask (t : Tracker) (new : Task) : Except TrackerError Tracker :=
  match t.instances.find? new.instanceId with
  | some i =>
    if i.runSpecId = new.runSpecId then
      .ok (t.setInstance new.instanceId (some (i.withTask new)))
    else .error (.rejected new.id i.runSpecId)
  | none => .ok (t.setInstance new.instanceId (Instance.ofTasks [new]))

/-- Forgets a task, and its instance with its last task. -/
def dropTask (t : Tracker) (old : Task) : Tracker :=
  match t.instances.find? old.instanceId with
  | some i => t.setInstance old.instanceId (i.withoutTask old.id)
  | none => t

/-- The tracker after a change. -/
def notify (t : Tracker) : Change → Except TrackerError Tracker
  | .update new _ => t.putTask new
  | .expunge old => .ok (t.dropTask old)
  | .noChange _ => .ok t
  | .failure _ => .ok t

/-! ## Loading -/

/-- The tracker of a list of tasks: those of one instance id form an instance. -/
def ofTasks (ts : List Task) : Tracker :=
  ⟨OrderedMap.ofList (ts.filterMap fun t =>
    (Instance.ofTasks (ts.filter fun u => u.instanceId == t.instanceId)).map (t.instanceId, ·))⟩

/-- Builds the tracker from all tasks of a repository. -/
def load (r : Repository) : Except StoreFault Tracker × Repository :=
  match r.all with
  | (.answers _ (.ok ts), r) => (.ok (ofTasks ts), r)
  | (.answers _ (.error e), r) => (.error e, r)
  | (.never, r) => (.error .readFailure, r)

end Tracker

/-! ## Orders of listing -/

/-- An order in which instances may be listed. The tracker keeps none, so whoever asks for all of its
instances may get them in another order each time. -/
structure Listing where
  list : List Instance → List Instance
  perm : ∀ is, (list is).Perm is

namespace Listing

/-- The instances as `Tracker.snapshot` has them. -/
def byId : Listing := ⟨id, .refl⟩

/-- Given instances in a given order, and all others as they stand. -/
def ofPerm {is listed : List Instance} (perm : listed.Perm is) : Listing where
  list js := if js = is then listed else js
  perm js := by
    split
    · next same => exact same ▸ perm
    · exact .refl js

theorem list_ofPerm {is listed : List Instance} (perm : listed.Perm is) :
    (ofPerm perm).list is = listed := if_pos rfl

end Listing

end Placement
