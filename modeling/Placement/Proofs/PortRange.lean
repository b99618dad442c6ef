/-
Ranges made of a list of ports hold the ports of that list: `PortRange.allPorts_ofPorts` gives them back,
ascending and each once. The ranges are `PortRange.Separated`, which each port that is put in front of
them keeps.
-/
import Placement.Resource.PortRange

namespace Placement.PortRange

theorem ports_single (p : Port) : (single p).ports = [p] := by
  have one : p.val + 1 - p.val = 1 := by omega
  simp [single, ports, one]

theorem allPorts_single (p : Port) : allPorts [single p] = [p] := by
  rw [allPorts, List.flatMap_singleton, ports_single]

theorem allPorts_cons (r : PortRange) (rs : List PortRange) :
    allPorts (r :: rs) = r.ports ++ allPorts rs := List.flatMap_cons

/-- A range starts with its lower end; the rest is the range from the next port. -/
theorem ports_cons {p low high : Port} (next : p.val + 1 = low.val) (filled : low ≤ high) :
    (PortRange.mk p high).ports = p :: (PortRange.mk low high).ports := by
  have filled : low.val ≤ high.val := filled
  have count : high.val + 1 - p.val = (high.val + 1 - low.val) + 1 := by omega
  rw [ports, ports, count, List.range'_succ, List.filterMap_cons, next]
  simp

/-- No range is empty, and each begins at least two above the end of every range in front of it: the ranges
are ascending, no two of them share a port, and no two could be one range. -/
structure Separated (rs : List PortRange) : Prop where
  filled : ∀ r ∈ rs, r.low ≤ r.high
  apart : rs.Pairwise fun r s => r.high.val + 2 ≤ s.low.val

section

variable {p : Port} {ps : List Port} {r : PortRange} {rs : List PortRange}

theorem separated_nil : Separated [] := ⟨nofun, .nil⟩

theorem separated_cons : Separated (r :: rs) ↔
    r.low ≤ r.high ∧ (∀ s ∈ rs, r.high.val + 2 ≤ s.low.val) ∧ Separated rs := by
  constructor
  · intro h
    obtain ⟨first, apart⟩ := List.pairwise_cons.1 h.apart
    exact ⟨h.filled r List.mem_cons_self, first,
      fun s hs => h.filled s (List.mem_cons_of_mem r hs), apart⟩
  · rintro ⟨filled, first, rest⟩
    exact ⟨List.forall_mem_cons.2 ⟨filled, rest.filled⟩, List.pairwise_cons.2 ⟨first, rest.apart⟩⟩

/-- Both ends of a range are ports of it. -/
theorem Separated.ends_mem (h : Separated rs) (hr : r ∈ rs) :
    r.low ∈ allPorts rs ∧ r.high ∈ allPorts rs := by
  have filled := h.filled r hr
  constructor
  · exact List.mem_flatMap.2 ⟨r, hr, mem_ports.2 (by simp [contains, filled])⟩
  · exact List.mem_flatMap.2 ⟨r, hr, mem_ports.2 (by simp [contains, filled])⟩

/-! ## One port more, below all ranges -/

theorem separated_extendDown (h : Separated rs) (below : ∀ r ∈ rs, p < r.low) :
    Separated (extendDown p rs) := by
  unfold extendDown
  split
  · exact separated_cons.2 ⟨Fin.le_refl p, nofun, separated_nil⟩
  · next r rest =>
    obtain ⟨filled, apart, others⟩ := separated_cons.1 h
    have filled : r.low.val ≤ r.high.val := filled
    have lower : p.val < r.low.val := below r List.mem_cons_self
    split
    · exact separated_cons.2 ⟨Fin.le_def.2 (by simp only; omega), apart, others⟩
    · refine separated_cons.2 ⟨Fin.le_refl p, ?_, h⟩
      -- The first range leaves a gap behind the port, and the others lie behind the first.
      have gap : p.val + 2 ≤ r.low.val := by omega
      refine List.forall_mem_cons.2 ⟨gap, fun s hs => ?_⟩
      have behind := apart s hs
      simp only [single]
      omega

theorem allPorts_extendDown (h : Separated rs) (p : Port) :
    allPorts (extendDown p rs) = p :: allPorts rs := by
  unfold extendDown
  split
  · exact allPorts_single p
  · next r rest =>
    split
    · next next =>
      rw [allPorts_cons, allPorts_cons, ports_cons next (h.filled r List.mem_cons_self),
        List.cons_append]
    · rw [allPorts_cons, ports_single, List.singleton_append]

/-- Ranges put together from ascending ports hold just these ports. -/
theorem foldr_extendDown (h : ps.Pairwise (· < ·)) :
    Separated (ps.foldr extendDown []) ∧ allPorts (ps.foldr extendDown []) = ps := by
  induction ps with
  | nil => exact ⟨separated_nil, rfl⟩
  | cons p rest ih =>
    obtain ⟨lowest, ascending⟩ := List.pairwise_cons.1 h
    obtain ⟨separated, ports⟩ := ih ascending
    have below : ∀ r ∈ rest.foldr extendDown [], p < r.low := by
      intro r hr
      have low := (separated.ends_mem hr).1
      rw [ports] at low
      exact lowest r.low low
    rw [List.foldr_cons]
    exact ⟨separated_extendDown separated below, by rw [allPorts_extendDown separated, ports]⟩

end

theorem separated_ofPorts (ps : List Port) : Separated (ofPorts ps) :=
  (foldr_extendDown (pairwise_distinct ps)).1

theorem allPorts_ofPorts (ps : List Port) : allPorts (ofPorts ps) = distinct ps :=
  (foldr_extendDown (pairwise_distinct ps)).2

theorem nodup_distinct (ps : List Port) : (distinct ps).Nodup :=
  (pairwise_distinct ps).imp fun hlt => Fin.ne_of_lt hlt

theorem mem_allPorts_ofPorts {p : Port} {ps : List Port} : p ∈ allPorts (ofPorts ps) ↔ p ∈ ps := by
  rw [allPorts_ofPorts, mem_distinct]

end Placement.PortRange
