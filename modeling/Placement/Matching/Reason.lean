/-
Why an offer does not suit a run spec.
-/
import Placement.Resource

namespace Placement

inductive MismatchReason where
  | unfulfilledRole
  | insufficientCpus
  | insufficientMemory
  | insufficientDisk
  | insufficientGpus
  | insufficientPorts
  | declinedScarceResources
  | noCorrespondingReservationFound
  deriving DecidableEq, Repr

namespace MismatchReason

/-- All reasons, in the order in which they are listed. -/
def all : List MismatchReason :=
  [unfulfilledRole, insufficientCpus, insufficientMemory, insufficientDisk, insufficientGpus,
    insufficientPorts, declinedScarceResources, noCorrespondingReservationFound]

def name : MismatchReason → String
  | unfulfilledRole => "UnfulfilledRole"
  | insufficientCpus => "InsufficientCpus"
  | insufficientMemory => "InsufficientMemory"
  | insufficientDisk => "InsufficientDisk"
  | insufficientGpus => "InsufficientGpus"
  | insufficientPorts => "InsufficientPorts"
  | declinedScarceResources => "DeclinedScarceResources"
  | noCorrespondingReservationFound => "NoCorrespondingReservationFound"

/-- The reason that stands for too little of a resource. -/
def ofResource : ResourceName → MismatchReason
  | .cpus => insufficientCpus
  | .mem => insufficientMemory
  | .disk => insufficientDisk
  | .gpus => insufficientGpus
  | .ports => insufficientPorts

/-- A set of reasons in the order in which they are listed, each once. -/
def listed (reasons : List MismatchReason) : List MismatchReason :=
  all.filter fun r => reasons.contains r

end MismatchReason

end Placement
