/-
Names of tasks: the safe path of the run spec, a dot, and the instance the task belongs to; for one
container of a task group, a further dot and the name of the container.
-/
import Placement.Id.Generated
import Placement.Id.RunSpecId

namespace Placement

/-- The name of a task, ordered by run spec, then instance, then container with none first. -/
structure TaskId where
  runSpecId : RunSpecId
  instanceId : InstanceId
  container : Option ContainerName
  deriving DecidableEq, Repr

namespace TaskId

/-- The order of tasks. -/
def order : TaskId → TaskId → Ordering :=
  compareLex (compareOn TaskId.runSpecId)
    (compareLex (compareOn TaskId.instanceId)
      (compareOn fun id => id.container.map ContainerName.text))

instance : Ord TaskId := ⟨order⟩

instance : Std.TransOrd TaskId := inferInstanceAs (Std.TransCmp
  (compareLex (compareOn TaskId.runSpecId)
    (compareLex (compareOn TaskId.instanceId)
      (compareOn fun id : TaskId => id.container.map ContainerName.text))))

instance : Std.LawfulEqOrd TaskId where
  eq_of_compare {a b} h := by
    obtain ⟨r, i, c⟩ := a
    obtain ⟨r', i', c'⟩ := b
    have h : (compare r r').then ((compare i i').then
      (compare (c.map ContainerName.text) (c'.map ContainerName.text))) = .eq := h
    rw [Ordering.then_eq_eq, Ordering.then_eq_eq] at h
    obtain ⟨hr, hi, hc⟩ := h
    obtain rfl := Std.LawfulEqCmp.eq_of_compare hr
    obtain rfl := Std.LawfulEqCmp.eq_of_compare hi
    have hc := Std.LawfulEqCmp.eq_of_compare hc
    have : c = c' := by
      cases c <;> cases c' <;> simp at hc
      · rfl
      · exact congrArg some (ContainerName.text_injective hc)
    rw [this]

/-- The name of the only task of an instance. -/
def forInstance (runSpecId : RunSpecId) (instanceId : InstanceId) : TaskId :=
  ⟨runSpecId, instanceId, none⟩

/-- The name of the task of one container of a task group. -/
def forContainer (runSpecId : RunSpecId) (instanceId : InstanceId) (container : String) :
    Except IdError TaskId :=
  match ContainerName.parse container with
  | .ok name => .ok ⟨runSpecId, instanceId, some name⟩
  | .error e => .error e

def chars (id : TaskId) : List Char :=
  id.runSpecId.safeChars ++ '.' :: id.instanceId.chars
    ++ match id.container with
      | some name => '.' :: name.text.toList
      | none => []

def text (id : TaskId) : String := String.ofList id.chars

/-- The task named by a safe path, an instance and perhaps a container; of several bad parts the
first is told. -/
def ofParts (safe inst : List Char) (container : Option (List Char)) : Except IdError TaskId := do
  let runSpecId ← RunSpecId.ofSafeChars safe
  let instanceId ← GeneratedId.parseChars inst
  match container with
  | none => .ok ⟨runSpecId, instanceId, none⟩
  | some cs =>
    let name ← ContainerName.parseChars cs
    .ok ⟨runSpecId, instanceId, some name⟩

def parseChars (cs : List Char) : Except IdError TaskId :=
  if cs = [] then .error .empty
  else match cs.splitOn '.' with
    | [safe, inst] => ofParts safe inst none
    | [safe, inst, container] => ofParts safe inst (some container)
    | _ :: _ :: _ => .error (.format (.tooManyTaskParts (String.ofList cs)))
    | _ => .error (.missingSeparator '.')

def parse (s : String) : Except IdError TaskId := parseChars s.toList

end TaskId

end Placement
