/-
The launch queue: run specs that wait for launches, in the order in which they were first added. No
run spec waits twice.
-/
import Placement.RunSpec

namespace Placement

/-- A run spec that waits for more launches. -/
structure LaunchRequest (α : Type) where
  runSpec : RunSpec α
  remaining : Nat
  deriving DecidableEq, Repr

namespace LaunchRequest

variable {α : Type}

/-- Changes the first request for a run spec. -/
def modify (id : RunSpecId) (f : LaunchRequest α → LaunchRequest α) :
    List (LaunchRequest α) → List (LaunchRequest α)
  | [] => []
  | r :: rest => if r.runSpec.id = id then f r :: rest else r :: modify id f rest

theorem map_id_modify {id : RunSpecId} {f : LaunchRequest α → LaunchRequest α}
    (h : ∀ r, r.runSpec.id = id → (f r).runSpec.id = id) (l : List (LaunchRequest α)) :
    (modify id f l).map (·.runSpec.id) = l.map (·.runSpec.id) := by
  induction l with
  | nil => rfl
  | cons r rest ih =>
    unfold modify
    split
    · next hr => rw [List.map_cons, List.map_cons, h r hr, hr]
    · rw [List.map_cons, List.map_cons, ih]

end LaunchRequest

structure LaunchQueue (α : Type) where
  requests : List (LaunchRequest α)
  distinct : (requests.map (·.runSpec.id)).Nodup
  deriving DecidableEq, Repr

namespace LaunchQueue

variable {α : Type}

def empty : LaunchQueue α := ⟨[], List.nodup_nil⟩

/-- The greatest number of launches that a request counts. -/
def maxRemaining : Nat := 0xffffffff

/-- The request for a run spec. -/
def find? (q : LaunchQueue α) (id : RunSpecId) : Option (LaunchRequest α) :=
  q.requests.find? fun r => r.runSpec.id == id

/-- How many launches of a run spec are waited for. -/
def remaining (q : LaunchQueue α) (id : RunSpecId) : Nat :=
  ((q.find? id).map (·.remaining)).getD 0

/-- Waits for more launches of a run spec; its new declaration stands in place of the old one. -/
def add (q : LaunchQueue α) (runSpec : RunSpec α) (count : Nat) : LaunchQueue α :=
  if h : (q.find? runSpec.id).isSome then
    ⟨LaunchRequest.modify runSpec.id
      (fun r => ⟨runSpec, min (r.remaining + count) maxRemaining⟩) q.requests, by
      rw [LaunchRequest.map_id_modify]
      · exact q.distinct
      · exact fun _ _ => rfl⟩
  else
    ⟨q.requests ++ [⟨runSpec, count⟩], by
      have absent : runSpec.id ∉ q.requests.map (·.runSpec.id) := by
        simpa [find?] using h
      rw [List.map_append, List.nodup_append]
      refine ⟨q.distinct, by simp, fun a ha b hb => ?_⟩
      obtain rfl : b = runSpec.id := by simpa using hb
      rintro rfl
      exact absent ha⟩

/-- Takes the first request for a run spec off the queue. -/
def remove (q : LaunchQueue α) (id : RunSpecId) : LaunchQueue α :=
  ⟨q.requests.eraseP fun r => r.runSpec.id == id,
    q.distinct.sublist (List.eraseP_sublist.map _)⟩

/-- Counts one launch of a run spec. Requests that wait for nothing more leave the queue. -/
def launched (q : LaunchQueue α) (id : RunSpecId) : LaunchQueue α :=
  ⟨(LaunchRequest.modify id (fun r => { r with remaining := r.remaining - 1 }) q.requests).filter
    fun r => 0 < r.remaining, by
    refine List.Nodup.sublist (List.filter_sublist.map _) ?_
    rw [LaunchRequest.map_id_modify]
    · exact q.distinct
    · exact fun _ h => h⟩

end LaunchQueue

end Placement
