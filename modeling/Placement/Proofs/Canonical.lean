/-
One list of ranges for each set of ports.

The ranges that `PortRange.ofPorts` makes of a list are the only separated ones that hold just its ports
(`PortRange.eq_ofPorts_iff`). So the order of the list and its repetitions do not matter, ranges that were
made of a list come out again, and a pass that begins at the lowest port and puts each port behind the
ranges (`PortRange.extendUp`) ends with the same ones. `PortRange.canonical_ofPorts` puts this together.
-/
import Mathlib.Algebra.GroupWithZero.Nat
import Mathlib.Data.Finset.Card
import Mathlib.Data.List.Sort
import Placement.Proofs.PortRange

namespace Placement

/-- The port after a port; the highest one has none. -/
def Port.next? (p : Port) : Option Port := if h : p.val + 1 < 65536 then some ⟨p.val + 1, h⟩ else none

theorem Port.next?_eq_some_iff {p q : Port} : p.next? = some q ↔ p.val + 1 = q.val := by
  unfold Port.next?
  split
  · rw [Option.some.injEq, Fin.ext_iff]
  · constructor
    · nofun
    · omega

namespace PortRange

/-! ## The ports of a range -/

/-- The ports of a range are the numbers from its lower to its higher end. -/
theorem map_val_ports (r : PortRange) :
    r.ports.map Fin.val = List.range' r.low.val (r.high.val + 1 - r.low.val) := by
  have all_ports : ∀ n ∈ List.range' r.low.val (r.high.val + 1 - r.low.val), n < 65536 := by
    intro n hn
    have := (List.mem_range'_1.1 hn).2
    omega
  rw [ports, List.map_filterMap]
  calc _ = List.filterMap some (List.range' r.low.val (r.high.val + 1 - r.low.val)) :=
        List.filterMap_congr fun n hn => by simp [all_ports n hn]
    _ = _ := List.filterMap_some

theorem length_ports {r : PortRange} (filled : r.low ≤ r.high) : r.ports.length = r.length := by
  have filled : r.low.val ≤ r.high.val := filled
  rw [← List.length_map Fin.val, map_val_ports, List.length_range', length]
  omega

theorem pairwise_ports (r : PortRange) : r.ports.Pairwise (· < ·) := by
  have ascending : (r.ports.map Fin.val).Pairwise (· < ·) := by
    rw [map_val_ports]
    exact List.pairwise_lt_range'
  rw [List.pairwise_map] at ascending
  exact ascending

/-- A range ends with its higher end; the rest is the range to the port before it. -/
theorem ports_concat {low high p : Port} (next : high.val + 1 = p.val) (filled : low ≤ high) :
    (PortRange.mk low p).ports = (PortRange.mk low high).ports ++ [p] := by
  have filled : low.val ≤ high.val := filled
  refine List.map_injective_iff.2 Fin.val_injective ?_
  have count : p.val + 1 - low.val = (high.val + 1 - low.val) + 1 := by omega
  have last : low.val + (high.val + 1 - low.val) = p.val := by omega
  rw [List.map_append, map_val_ports, map_val_ports, count, List.range'_1_concat, last]
  rfl

/-! ## Separated ranges -/

section

variable {p : Port} {ps : List Port} {rs : List PortRange}

/-- No port is in two ranges. -/
theorem Separated.disjoint (h : Separated rs) :
    rs.Pairwise fun r s => ∀ p, (r.contains p && s.contains p) = false := by
  refine h.apart.imp fun {r s} gap p => ?_
  rw [Bool.eq_false_iff]
  intro both
  simp only [contains, Bool.and_eq_true, decide_eq_true_eq, Fin.le_def] at both
  omega

theorem Separated.pairwise_allPorts (h : Separated rs) : (allPorts rs).Pairwise (· < ·) := by
  refine List.pairwise_flatMap.2 ⟨fun r _ => pairwise_ports r, h.apart.imp fun {r s} gap p hp q hq => ?_⟩
  simp only [mem_ports, contains, Bool.and_eq_true, decide_eq_true_eq, Fin.le_def] at hp hq
  exact Fin.lt_def.2 (by omega)

theorem Separated.length_allPorts (h : Separated rs) :
    (allPorts rs).length = (rs.map length).sum := by
  rw [allPorts, List.length_flatMap]
  exact congrArg List.sum (List.map_congr_left fun r hr => length_ports (h.filled r hr))

/-- A port that no range begins right behind becomes a range of its own. -/
theorem extendDown_of_gap (apart : ∀ s ∈ rs, p.val + 2 ≤ s.low.val) :
    extendDown p rs = single p :: rs := by
  unfold extendDown
  split
  · rfl
  · next s rest =>
    have gap := apart s List.mem_cons_self
    exact if_neg (by omega)

/-- From its highest port down to its lowest, the ports of a range grow into that range. -/
theorem foldr_extendDown_ports {low high : Port} (filled : low ≤ high)
    (apart : ∀ s ∈ rs, high.val + 2 ≤ s.low.val) :
    (PortRange.mk low high).ports.foldr extendDown rs = ⟨low, high⟩ :: rs := by
  induction count : high.val - low.val generalizing low with
  | zero =>
    obtain rfl : low = high := Fin.ext (Nat.le_antisymm filled (by omega))
    have alone : (PortRange.mk low low).ports = [low] := ports_single low
    rw [alone, List.foldr_cons, List.foldr_nil]
    exact extendDown_of_gap apart
  | succ n ih =>
    obtain ⟨second, next⟩ : ∃ second : Port, low.val + 1 = second.val :=
      ⟨⟨low.val + 1, by omega⟩, rfl⟩
    have rest : second ≤ high := Fin.le_def.2 (by omega)
    rw [ports_cons next rest, List.foldr_cons, ih rest (by omega), extendDown, if_pos next]

/-- The ports of separated ranges, put together again. -/
theorem Separated.foldr_allPorts (h : Separated rs) : (allPorts rs).foldr extendDown [] = rs := by
  induction rs with
  | nil => rfl
  | cons r rest ih =>
    obtain ⟨filled, apart, others⟩ := separated_cons.1 h
    rw [allPorts_cons, List.foldr_append, ih others]
    exact foldr_extendDown_ports filled apart

/-- The ranges made of a list of ports are the only separated ones that hold just these ports. -/
theorem eq_ofPorts_iff : rs = ofPorts ps ↔
    Separated rs ∧ ∀ p, anyContains rs p = true ↔ p ∈ ps := by
  constructor
  · rintro rfl
    exact ⟨separated_ofPorts ps, fun p => mem_allPorts.symm.trans mem_allPorts_ofPorts⟩
  · rintro ⟨h, holds⟩
    have same : allPorts rs = distinct ps :=
      h.pairwise_allPorts.eq_of_mem_iff (pairwise_distinct ps) fun p => by
        rw [mem_allPorts, holds, mem_distinct]
    rw [← h.foldr_allPorts, same, ofPorts]

/-! ## From the lowest port up -/

/-- Puts a port behind ranges that lie below it, as part of the last one if it comes right after that. -/
def extendUp (rs : List PortRange) (p : Port) : List PortRange :=
  match rs.getLast? with
  | none => [single p]
  | some r => if r.high.next? = some p then rs.dropLast ++ [⟨r.low, p⟩] else rs ++ [single p]

theorem allPorts_concat (rs : List PortRange) (r : PortRange) :
    allPorts (rs ++ [r]) = allPorts rs ++ r.ports := by
  rw [allPorts, List.flatMap_append, List.flatMap_singleton, allPorts]

theorem extendUp_concat (rs : List PortRange) (r : PortRange) (p : Port) :
    extendUp (rs ++ [r]) p =
      if r.high.val + 1 = p.val then rs ++ [⟨r.low, p⟩] else (rs ++ [r]) ++ [single p] := by
  simp [extendUp, Port.next?_eq_some_iff]

theorem separated_concat {r : PortRange} : Separated (rs ++ [r]) ↔
    Separated rs ∧ (∀ s ∈ rs, s.high.val + 2 ≤ r.low.val) ∧ r.low ≤ r.high := by
  constructor
  · intro h
    obtain ⟨front, -, apart⟩ := List.pairwise_append.1 h.apart
    exact ⟨⟨fun s hs => h.filled s (List.mem_append_left _ hs), front⟩,
      fun s hs => apart s hs r List.mem_cons_self,
      h.filled r (List.mem_append_right _ List.mem_cons_self)⟩
  · rintro ⟨h, apart, filled⟩
    exact ⟨List.forall_mem_append.2 ⟨h.filled, List.forall_mem_singleton.2 filled⟩,
      List.pairwise_append.2 ⟨h.apart, List.pairwise_singleton _ r,
        fun s hs => List.forall_mem_singleton.2 (apart s hs)⟩⟩

theorem separated_extendUp (h : Separated rs) (above : ∀ r ∈ rs, r.high < p) :
    Separated (extendUp rs p) := by
  obtain rfl | ⟨front, r, rfl⟩ := List.eq_nil_or_concat rs
  · exact separated_cons.2 ⟨le_refl p, nofun, separated_nil⟩
  · rw [List.concat_eq_append] at *
    obtain ⟨others, apart, filled⟩ := separated_concat.1 h
    have higher : r.high.val < p.val := above r (List.mem_append_right _ List.mem_cons_self)
    have filled' : r.low.val ≤ r.high.val := filled
    rw [extendUp_concat]
    split
    · exact separated_concat.2 ⟨others, apart, Fin.le_def.2 (by simp only; omega)⟩
    · next not_next =>
      -- The last range leaves a gap below the port, and the others lie below the last.
      have gap : r.high.val + 2 ≤ p.val := by omega
      have gaps : ∀ s ∈ front, s.high.val + 2 ≤ p.val := by
        intro s hs
        have below := apart s hs
        omega
      exact separated_concat.2
        ⟨h, List.forall_mem_append.2 ⟨gaps, List.forall_mem_singleton.2 gap⟩, le_refl p⟩

theorem allPorts_extendUp (h : Separated rs) (p : Port) :
    allPorts (extendUp rs p) = allPorts rs ++ [p] := by
  obtain rfl | ⟨front, r, rfl⟩ := List.eq_nil_or_concat rs
  · exact allPorts_single p
  · rw [List.concat_eq_append] at *
    have filled := (separated_concat.1 h).2.2
    rw [extendUp_concat]
    split
    · next next =>
      rw [allPorts_concat, allPorts_concat, ports_concat next filled, List.append_assoc]
    · rw [allPorts_concat, ports_single]

/-- Ranges that ascending ports grow into, from the lowest up, hold just these ports. -/
theorem foldl_extendUp (h : ps.Pairwise (· < ·)) :
    Separated (ps.foldl extendUp []) ∧ allPorts (ps.foldl extendUp []) = ps := by
  induction ps using List.reverseRecOn with
  | nil => exact ⟨separated_nil, rfl⟩
  | append_singleton front p ih =>
    obtain ⟨ascending, -, highest⟩ := List.pairwise_append.1 h
    obtain ⟨separated, ports⟩ := ih ascending
    have above : ∀ r ∈ front.foldl extendUp [], r.high < p := by
      intro r hr
      have high := (separated.ends_mem hr).2
      rw [ports] at high
      exact highest r.high high p List.mem_cons_self
    rw [List.foldl_append, List.foldl_cons, List.foldl_nil]
    exact ⟨separated_extendUp separated above, by rw [allPorts_extendUp separated, ports]⟩

/-- Upward the ports end in the same ranges as downward. -/
theorem foldl_extendUp_distinct (ps : List Port) : (distinct ps).foldl extendUp [] = ofPorts ps := by
  obtain ⟨separated, ports⟩ := foldl_extendUp (pairwise_distinct ps)
  refine eq_ofPorts_iff.2 ⟨separated, fun p => ?_⟩
  rw [← mem_allPorts, ports, mem_distinct]

/-! ## The canonical form -/

theorem ofPorts_eq_ofPorts_iff {qs : List Port} :
    ofPorts ps = ofPorts qs ↔ ∀ p, p ∈ ps ↔ p ∈ qs := by
  obtain ⟨separated, holds⟩ := eq_ofPorts_iff.1 (Eq.refl (ofPorts ps))
  rw [eq_ofPorts_iff]
  constructor
  · rintro ⟨-, holds'⟩ p
    rw [← holds, holds']
  · intro same
    exact ⟨separated, fun p => (holds p).trans (same p)⟩

theorem sum_length_ofPorts (ps : List Port) :
    ((ofPorts ps).map length).sum = ps.toFinset.card := by
  have same : (distinct ps).toFinset = ps.toFinset := by
    ext p
    rw [List.mem_toFinset, List.mem_toFinset, mem_distinct]
  rw [← (separated_ofPorts ps).length_allPorts, allPorts_ofPorts, ← same,
    List.toFinset_card_of_nodup (nodup_distinct ps)]

end

/-- The ranges made of a list of ports are ascending, share no port and leave gaps; they hold just the listed
ports, and their lengths sum to the number of different ones. Two lists make the same ranges just if they
have the same ports, and the ports of the ranges make these again. A pass from the lowest port up, which
extends the last range or opens one with each port, ends with the same ranges. -/
theorem canonical_ofPorts (ps : List Port) :
    Separated (ofPorts ps) ∧
      (ofPorts ps).Pairwise (fun r s => ∀ p, (r.contains p && s.contains p) = false) ∧
      (∀ p, anyContains (ofPorts ps) p = true ↔ p ∈ ps) ∧
      ((ofPorts ps).map length).sum = ps.toFinset.card ∧
      (∀ qs, ofPorts ps = ofPorts qs ↔ ∀ p, p ∈ ps ↔ p ∈ qs) ∧
      ofPorts (allPorts (ofPorts ps)) = ofPorts ps ∧
      (distinct ps).foldl extendUp [] = ofPorts ps := by
  obtain ⟨separated, holds⟩ := eq_ofPorts_iff.1 (Eq.refl (ofPorts ps))
  have again : ofPorts (allPorts (ofPorts ps)) = ofPorts ps :=
    ofPorts_eq_ofPorts_iff.2 fun p => mem_allPorts_ofPorts
  exact ⟨separated, separated.disjoint, holds, sum_length_ofPorts ps,
    fun _ => ofPorts_eq_ofPorts_iff, again, foldl_extendUp_distinct ps⟩

example : ofPorts [65535, 31001, 65534, 31000, 31001, 31003, 65535] =
    [⟨31000, 31001⟩, single 31003, ⟨65534, 65535⟩] := by
  cbv

end PortRange

end Placement
