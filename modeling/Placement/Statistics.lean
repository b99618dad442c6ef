/-
Statistics: for each run spec, how many offers were tried, how many were used, and why the others
were not.
-/
import Placement.Id.RunSpecId
import Placement.Matching.Reason

namespace Placement

structure OfferStatistics where
  processed : Nat
  matched : Nat
  /-- Why the latest offer that was not used did not suit. -/
  lastMismatch : List MismatchReason
  /-- All reasons so far, each as often as it was met. -/
  mismatches : List MismatchReason
  deriving DecidableEq, Repr

namespace OfferStatistics

def none : OfferStatistics := ⟨0, 0, [], []⟩

/-- How often a reason was met. -/
def rejections (s : OfferStatistics) (r : MismatchReason) : Nat := s.mismatches.count r

end OfferStatistics

structure Statistics where
  byRunSpec : OrderedMap RunSpecId OfferStatistics
  deriving DecidableEq, Repr

namespace Statistics

def empty : Statistics := ⟨∅⟩

def get? (s : Statistics) (id : RunSpecId) : Option OfferStatistics := s.byRunSpec.find? id

/-- The statistics of a run spec, all zero before its first offer. -/
def get (s : Statistics) (id : RunSpecId) : OfferStatistics := (s.get? id).getD .none

def recordMatch (s : Statistics) (id : RunSpecId) : Statistics :=
  let old := s.get id
  ⟨s.byRunSpec.insert id
    { old with processed := old.processed + 1, matched := old.matched + 1 }⟩

def recordMismatch (s : Statistics) (id : RunSpecId) (reasons : List MismatchReason) : Statistics :=
  let old := s.get id
  ⟨s.byRunSpec.insert id
    { old with
      processed := old.processed + 1
      lastMismatch := reasons
      mismatches := old.mismatches ++ reasons }⟩

def forget (s : Statistics) (id : RunSpecId) : Statistics := ⟨s.byRunSpec.erase id⟩

end Statistics

end Placement
