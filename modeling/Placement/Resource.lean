/-
Resources as an offer carries them: a scalar amount or ranges of ports, under a role, perhaps
reserved with labels, and for disks the source and the persistent volume on it.
-/
import Placement.Amount
import Placement.Id.VolumeId
import Placement.OrderedMap
import Placement.Resource.PortRange

namespace Placement

/-- Names with texts, such as labels, attributes and environment variables. -/
abbrev Labels := OrderedMap String String

/-- The role of resources that are kept for no role in particular. -/
def anyRole : String := "*"

inductive ResourceName where
  | cpus
  | mem
  | disk
  | gpus
  | ports
  deriving DecidableEq, Repr

namespace ResourceName

def all : List ResourceName := [cpus, mem, disk, gpus, ports]

def text : ResourceName → String
  | cpus => "cpus"
  | mem => "mem"
  | disk => "disk"
  | gpus => "gpus"
  | ports => "ports"

end ResourceName

inductive ResourceValue (α : Type) where
  | scalar (amount : α)
  | ranges (ranges : List PortRange)
  deriving DecidableEq, Repr

namespace ResourceValue

variable {α : Type}

/-- The amount of a scalar, zero for ranges. -/
def amount [Zero α] : ResourceValue α → α
  | scalar a => a
  | ranges _ => 0

/-- The ranges, none for a scalar. -/
def portRanges : ResourceValue α → List PortRange
  | scalar _ => []
  | ranges rs => rs

end ResourceValue

/-- Who holds a reservation, and the labels that tell reservations apart. -/
structure ReservationInfo where
  principal : Option String
  labels : Labels
  deriving DecidableEq, Repr

/-- Where a disk comes from. -/
inductive DiskSource where
  /-- The disk that all tasks of an agent share. -/
  | root
  /-- A directory that can be divided among volumes. -/
  | path (root : String)
  /-- A mount that is given away whole. -/
  | mount (root : String)
  deriving DecidableEq, Repr

inductive DiskType where
  | root
  | path
  | mount
  deriving DecidableEq, Repr

def DiskSource.type : DiskSource → DiskType
  | .root => .root
  | .path _ => .path
  | .mount _ => .mount

/-- A persistent volume on a disk, and where its container sees it. -/
structure Persistence where
  volumeId : VolumeId
  containerPath : String
  deriving DecidableEq, Repr

structure DiskInfo where
  source : DiskSource
  persistence : Option Persistence
  deriving DecidableEq, Repr

structure Resource (α : Type) where
  name : ResourceName
  value : ResourceValue α
  role : String
  reservation : Option ReservationInfo
  disk : Option DiskInfo
  deriving DecidableEq, Repr

namespace Resource

variable {α : Type}

/-- An amount under no role, neither reserved nor with disk information. -/
def scalar (name : ResourceName) (amount : α) : Resource α :=
  ⟨name, .scalar amount, anyRole, none, none⟩

/-- Ports under no role. -/
def ports (ranges : List PortRange) : Resource α :=
  ⟨.ports, .ranges ranges, anyRole, none, none⟩

/-- Disk space of a given source. -/
def ofDisk (size : α) (source : DiskSource) : Resource α :=
  { scalar .disk size with disk := some ⟨source, none⟩ }

def withRole (r : Resource α) (role : String) : Resource α := { r with role := role }

def withReservation (r : Resource α) (info : ReservationInfo) : Resource α :=
  { r with reservation := some info }

def withValue (r : Resource α) (value : ResourceValue α) : Resource α := { r with value := value }

def isReserved (r : Resource α) : Bool := r.reservation.isSome

/-- The source of a disk; without disk information the root disk. -/
def diskSource (r : Resource α) : DiskSource := (r.disk.map DiskInfo.source).getD .root

def persistence (r : Resource α) : Option Persistence := r.disk.bind DiskInfo.persistence

def reservationLabels (r : Resource α) : Option Labels := r.reservation.map ReservationInfo.labels

def amount [Zero α] (r : Resource α) : α := r.value.amount

def portRanges (r : Resource α) : List PortRange := r.value.portRanges

/-- Two resources differ in their value at most. -/
def sameKind (r s : Resource α) : Bool :=
  r.name == s.name && r.role == s.role && r.reservation == s.reservation && r.disk == s.disk

/-- The resource keeps a persistent volume of the given name. -/
def carriesVolume (r : Resource α) (id : VolumeId) : Bool :=
  match r.persistence with
  | some p => p.volumeId == id
  | none => false

end Resource

/-- The amounts of one name in a list of resources, summed in its order. -/
def scalarSum {α : Type} [Amount α] (name : ResourceName) (rs : List (Resource α)) : α :=
  Amount.total ((rs.filter (·.name == name)).map Resource.amount)

end Placement
