/-
Ports, and ranges of them with both ends included. A set of ports has one list of ranges that is
ascending with gaps between the ranges; `PortRange.ofPorts` gives it.
-/

namespace Placement

/-- A port of a host. -/
abbrev Port := Fin 65536

/-- Ports can be written as numbers. The zero is the one that literals of `Fin` ask for. -/
instance Port.neZero : @NeZero Nat Zero.ofOfNat0 65536 := ⟨Nat.succ_ne_zero 65535⟩

/-- The ports from `low` to `high`, none where `low` is above `high`. -/
structure PortRange where
  low : Port
  high : Port
  deriving DecidableEq, Repr

namespace PortRange

/-- The range of one port. -/
def single (p : Port) : PortRange := ⟨p, p⟩

def contains (r : PortRange) (p : Port) : Bool := r.low ≤ p && p ≤ r.high

/-- The number of ports from the lower to the higher end; at least one. -/
def length (r : PortRange) : Nat := r.high.val - r.low.val + 1

/-- The ports of a range, ascending. -/
def ports (r : PortRange) : List Port :=
  (List.range' r.low.val (r.high.val + 1 - r.low.val)).filterMap fun n =>
    if h : n < 65536 then some ⟨n, h⟩ else none

theorem mem_ports {r : PortRange} {p : Port} : p ∈ r.ports ↔ r.contains p = true := by
  simp only [ports, List.mem_filterMap, List.mem_range'_1, contains, Bool.and_eq_true,
    decide_eq_true_eq, Fin.le_def]
  constructor
  · rintro ⟨n, ⟨hlow, hhigh⟩, hn⟩
    split at hn
    · obtain rfl := Option.some.inj hn
      exact ⟨hlow, by simp only; omega⟩
    · exact absurd hn (by simp)
  · rintro ⟨hlow, hhigh⟩
    exact ⟨p.val, ⟨hlow, by omega⟩, by simp⟩

/-! ## Ranges of a set of ports -/

/-- Leaves one of each run of equal neighbours. -/
def dropRepeats : List Port → List Port
  | [] => []
  | p :: rest =>
    match dropRepeats rest with
    | [] => [p]
    | q :: rest' => if p = q then q :: rest' else p :: q :: rest'

/-- The ports of a list, ascending and each once. -/
def distinct (ps : List Port) : List Port := dropRepeats (ps.mergeSort (· ≤ ·))

theorem mem_dropRepeats {q : Port} {l : List Port} : q ∈ dropRepeats l ↔ q ∈ l := by
  induction l with
  | nil => simp [dropRepeats]
  | cons p rest ih =>
    simp only [dropRepeats, List.mem_cons, ← ih]
    split
    · next h => simp [h]
    · next h =>
      rw [h]
      split
      · next hpq => simp [hpq]
      · simp

theorem mem_distinct {q : Port} {ps : List Port} : q ∈ distinct ps ↔ q ∈ ps := by
  rw [distinct, mem_dropRepeats, List.mem_mergeSort]

/-- An ascending list is strictly ascending once its repeats are gone. -/
theorem pairwise_dropRepeats {l : List Port} (h : l.Pairwise (· ≤ ·)) :
    (dropRepeats l).Pairwise (· < ·) := by
  induction l with
  | nil => simp [dropRepeats]
  | cons p rest ih =>
    have ⟨hhead, htail⟩ := List.pairwise_cons.1 h
    simp only [dropRepeats]
    split
    · simp
    · next q rest' heq =>
      have hsub := ih htail
      rw [heq] at hsub
      split
      · exact hsub
      · next hpq =>
        have hle : p ≤ q := hhead q (mem_dropRepeats.1 (by rw [heq]; exact List.mem_cons_self))
        have hlt : p < q := Fin.lt_def.2 (Nat.lt_of_le_of_ne hle (fun e => hpq (Fin.ext e)))
        refine List.pairwise_cons.2 ⟨fun r hr => ?_, hsub⟩
        rcases List.mem_cons.1 hr with rfl | hr
        · exact hlt
        · exact Fin.lt_trans hlt ((List.pairwise_cons.1 hsub).1 r hr)

/-- The ports of a list stand in strictly ascending order. -/
theorem pairwise_distinct (ps : List Port) : (distinct ps).Pairwise (· < ·) := by
  refine pairwise_dropRepeats ?_
  have h : (ps.mergeSort (· ≤ ·)).Pairwise (fun a b => decide (a ≤ b) = true) :=
    List.pairwise_mergeSort (fun a b c => by simpa using fun h h' => Fin.le_trans h h')
      (fun a b => by simpa using Fin.le_total a b) ps
  simpa using h

/-- Puts a port below all ranges in front of them, as part of the first where it touches that. -/
def extendDown (p : Port) : List PortRange → List PortRange
  | [] => [single p]
  | r :: rest => if p.val + 1 = r.low.val then ⟨p, r.high⟩ :: rest else single p :: r :: rest

/-- The ranges of the ports of a list: ascending, with gaps between them. -/
def ofPorts (ps : List Port) : List PortRange := (distinct ps).foldr extendDown []

/-- The ports of all ranges of a list, in its order. -/
def allPorts (rs : List PortRange) : List Port := rs.flatMap ports

/-- Some range of a list holds the port. -/
def anyContains (rs : List PortRange) (p : Port) : Bool := rs.any (·.contains p)

theorem mem_allPorts {rs : List PortRange} {p : Port} :
    p ∈ allPorts rs ↔ anyContains rs p = true := by
  simp [allPorts, anyContains, mem_ports]

end PortRange

end Placement
