/-
Names of persistent volumes: the safe path of the run spec, the name of the volume and a UUID, with
`#` between them. The name comes from the path at which a container sees the volume, with
underscores for slashes: `/var/data` gives `var_data`.
-/
import Placement.Id.RunSpecId
import Placement.Id.Uuid

namespace Placement

/-- What a volume can be called. -/
def isVolumeName (cs : List Char) : Bool := !cs.isEmpty && !cs.contains '#'

/-- The name of a persistent volume, ordered by run spec, then name, then UUID. -/
structure VolumeId where
  runSpecId : RunSpecId
  name : String
  uuid : Uuid
  valid : isVolumeName name.toList = true
  deriving DecidableEq, Repr

namespace VolumeId

/-- The order of volumes. -/
def order : VolumeId → VolumeId → Ordering :=
  compareLex (compareOn VolumeId.runSpecId)
    (compareLex (compareOn VolumeId.name) (compareOn VolumeId.uuid))

instance : Ord VolumeId := ⟨order⟩

/-- The volume name of a container path: slashes at the ends go, the others become underscores. -/
def nameOfPath (containerPath : List Char) : List Char :=
  let inner := ((containerPath.dropWhile (· = '/')).reverse.dropWhile (· = '/')).reverse
  inner.map fun c => if c = '/' then '_' else c

/-- The volume with a given UUID that a container sees at a path. -/
def forPath (runSpecId : RunSpecId) (containerPath : String) (uuid : Uuid) :
    Except IdError VolumeId :=
  let name := nameOfPath containerPath.toList
  if name.isEmpty then .error (.format .emptyContainerPath)
  else if h : isVolumeName name = true then
    .ok ⟨runSpecId, String.ofList name, uuid, by rw [String.toList_ofList]; exact h⟩
  else .error (.format (.hashInContainerPath containerPath))

def chars (id : VolumeId) : List Char :=
  id.runSpecId.safeChars ++ '#' :: id.name.toList ++ '#' :: id.uuid.chars

def text (id : VolumeId) : String := String.ofList id.chars

def parseChars (cs : List Char) : Except IdError VolumeId :=
  if cs = [] then .error .empty
  else match cs.splitOn '#' with
    | [safe, name, uuid] =>
      if name.isEmpty then .error (.format .emptyVolumeName)
      else if h : isVolumeName name = true then
        match RunSpecId.ofSafeChars safe with
        | .error e => .error e
        | .ok runSpecId =>
          match Uuid.parse? uuid with
          | none => .error .uuid
          | some u => .ok ⟨runSpecId, String.ofList name, u, by rw [String.toList_ofList]; exact h⟩
      else .error (.format (.volumePartCount (String.ofList cs)))
    | _ => .error (.format (.volumePartCount (String.ofList cs)))

def parse (s : String) : Except IdError VolumeId := parseChars s.toList

end VolumeId

end Placement
