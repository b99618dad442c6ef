/-
What the operations on one offer consume together.

`Progress.Conserves` holds between an offer and the work on it: what has been consumed and what
remains come to no more than was offered, amounts by kind and up to the tolerance, and no volume and
no port is on both sides. It holds at the start, and `Progress.Conserves.collect` keeps it as long as
each operation takes what the remaining offer affords.
-/
import Placement.Proofs.Matching
import Placement.Proofs.Remaining
import Placement.Scheduler

namespace Placement

open Resource

/-- No port is in two port resources of an offer that differ in more than their value. -/
def Offer.PortsApart (o : Offer Rat) : Prop :=
  ∀ r ∈ o.resources, ∀ s ∈ o.resources, r.name = .ports → s.name = .ports →
    ∀ port ∈ PortRange.allPorts r.portRanges, port ∈ PortRange.allPorts s.portRanges →
      r.sameKind s = true

namespace Progress

/-- The parts that the operations consume, in order. -/
def consumed (p : Progress Rat) : List (Resource Rat) := p.operations.flatMap (·.consumed)

/-- What has been consumed of an offer and what remains of it. -/
structure Conserves (o : Offer Rat) (p : Progress Rat) : Prop where
  nonneg : ∀ r ∈ p.remaining.resources, 0 ≤ r.amount
  distinct : (volumesOf p.remaining.resources).Nodup
  left : ∀ s ∈ p.remaining.resources, ∃ r ∈ o.resources, LeftOf r s
  total : ∀ k, kindTotal k p.consumed + kindTotal k p.remaining.resources ≤
    kindTotal k o.resources + kindCount k p.consumed * Amount.tolerance
  volumes : (volumesOf p.consumed).Nodup
  spent : ∀ v ∈ volumesOf p.consumed, v ∉ volumesOf p.remaining.resources
  ports : o.PortsApart → (portsOf p.consumed).Nodup
  offered : ∀ port ∈ portsOf p.consumed, ∃ r ∈ o.resources, r.name = .ports ∧
    port ∈ PortRange.allPorts r.portRanges
  gone : o.PortsApart → ∀ port ∈ portsOf p.consumed, ∀ s ∈ p.remaining.resources,
    s.name = .ports → port ∉ PortRange.allPorts s.portRanges

theorem conserves_start {o : Offer Rat} (nonneg : ∀ r ∈ o.resources, 0 ≤ r.amount)
    (distinct : (volumesOf o.resources).Nodup) : (start o).Conserves o where
  nonneg := nonneg
  distinct := distinct
  left r hr := ⟨r, hr, .refl r⟩
  total k := by
    simp [consumed, start, kindCount]
  volumes := by simp [consumed, start, volumesOf]
  spent := by simp [consumed, start, volumesOf]
  ports := by simp [consumed, start, portsOf]
  offered := by simp [consumed, start, portsOf]
  gone := by simp [consumed, start, portsOf]

/-- A volume that can be had is one that remains. -/
theorem mem_volumesOf_of_affords {o : Offer Rat} {used : List (Resource Rat)}
    (affords : o.Affords used) {v : VolumeId} (hv : v ∈ volumesOf used) :
    ∃ r ∈ o.resources, r ∈ used ∧ r.name = .disk ∧ r.carriesVolume v = true ∧ 0 < r.amount := by
  obtain ⟨u, hu, hname, carries⟩ := mem_volumesOf.1 hv
  rcases affords.whole u hu with bare | ⟨there, held⟩
  · rw [carriesVolume, bare hname] at carries
    cases carries
  · exact ⟨u, there, hu, hname, carries, held⟩

section

variable {o : Offer Rat} {p : Progress Rat} {used : List (Resource Rat)}

/-- Together, both lists of parts are within the offer. -/
theorem Conserves.total_append (h : p.Conserves o) (affords : p.remaining.Affords used)
    (k : Resource Rat) :
    kindTotal k (p.consumed ++ used) + kindTotal k (p.remaining.without used).resources ≤
      kindTotal k o.resources + kindCount k (p.consumed ++ used) * Amount.tolerance := by
  have before := h.total k
  have step := Offer.kindTotal_without h.nonneg (affords.total k)
  rw [kindTotal_append, kindCount_append]
  push_cast
  linarith

/-- What is consumed next has no volume of those before. -/
theorem Conserves.volumes_append (h : p.Conserves o) (affords : p.remaining.Affords used) :
    (volumesOf (p.consumed ++ used)).Nodup := by
  rw [volumesOf_append, List.nodup_append]
  refine ⟨h.volumes, affords.volumes, ?_⟩
  rintro v hv w hw rfl
  obtain ⟨r, hr, -, hname, carries, -⟩ := mem_volumesOf_of_affords affords hw
  exact h.spent v hv (mem_volumesOf.2 ⟨r, hr, hname, carries⟩)

theorem Conserves.spent_append (h : p.Conserves o) (affords : p.remaining.Affords used)
    {v : VolumeId} (hv : v ∈ volumesOf (p.consumed ++ used)) :
    v ∉ volumesOf (p.remaining.without used).resources := by
  rw [volumesOf_append, List.mem_append] at hv
  rcases hv with hv | hv
  · intro remains
    exact h.spent v hv ((Offer.volumesOf_without_sublist _ _).subset remains)
  · obtain ⟨r, hr, whole, hname, carries, held⟩ := mem_volumesOf_of_affords affords hv
    exact Offer.not_mem_volumesOf_without h.nonneg h.distinct hr hname carries whole held

/-- A port that can be had of what remains is one of the offer. -/
theorem Conserves.offered_of_affords (h : p.Conserves o) (affords : p.remaining.Affords used)
    {port : Port} (hport : port ∈ portsOf used) : ∃ r ∈ o.resources, r.name = .ports ∧
      port ∈ PortRange.allPorts r.portRanges := by
  obtain ⟨u, hu, hport⟩ := mem_portsOf.1 hport
  obtain ⟨r, hr, hname, -, hport⟩ := affords.offered u hu port hport
  obtain ⟨s, hs, left⟩ := h.left r hr
  exact ⟨s, hs, (name_congr left.kind).symm.trans hname, left.ports port hport⟩

theorem Conserves.ports_append (h : p.Conserves o) (affords : p.remaining.Affords used)
    (apart : o.PortsApart) : (portsOf (p.consumed ++ used)).Nodup := by
  rw [portsOf_append, List.nodup_append]
  refine ⟨h.ports apart, affords.ports, ?_⟩
  rintro port hport other hother rfl
  obtain ⟨u, hu, hother⟩ := mem_portsOf.1 hother
  obtain ⟨r, hr, hname, -, hmem⟩ := affords.offered u hu port hother
  exact h.gone apart port hport r hr hname hmem

theorem Conserves.gone_append (h : p.Conserves o) (affords : p.remaining.Affords used)
    (apart : o.PortsApart) {port : Port} (hport : port ∈ portsOf (p.consumed ++ used))
    {s : Resource Rat} (hs : s ∈ (p.remaining.without used).resources) (hname : s.name = .ports) :
    port ∉ PortRange.allPorts s.portRanges := by
  rw [portsOf_append, List.mem_append] at hport
  rcases hport with hport | hport
  · intro remains
    obtain ⟨r, hr, left⟩ := Offer.exists_leftOf_without hs
    exact h.gone apart port hport r hr ((name_congr left.kind).symm.trans hname)
      (left.ports port remains)
  · obtain ⟨u, hu, hport⟩ := mem_portsOf.1 hport
    obtain ⟨r, hr, rname, kind, hmem⟩ := affords.offered u hu port hport
    obtain ⟨r', hr', left⟩ := h.left r hr
    -- All port resources that have the port are of one kind, on the offer and so in what remains.
    refine Offer.not_mem_ports_without hu kind hport ?_ hs hname
    intro t ht tname tport
    obtain ⟨t', ht', left'⟩ := h.left t ht
    have same := apart t' ht' r' hr' ((name_congr left'.kind).symm.trans tname)
      ((name_congr left.kind).symm.trans rname) port (left'.ports port tport) (left.ports port hmem)
    rw [sameKind_congr left'.kind, sameKind_comm, sameKind_congr left.kind, sameKind_comm]
    exact same

/-- Taking up an operation that the remaining offer affords keeps what is said of both sides. -/
theorem Conserves.collect (h : p.Conserves o) {op : InstanceOp Rat}
    (affords : p.remaining.Affords op.consumed) :
    Conserves o { p with
      remaining := p.remaining.without op.consumed, operations := p.operations ++ [op] } := by
  have all : consumed { p with
      remaining := p.remaining.without op.consumed, operations := p.operations ++ [op] } =
        p.consumed ++ op.consumed := by
    simp [consumed]
  refine ⟨Offer.nonneg_without h.nonneg _, ?_, ?_, ?_, ?_, ?_, ?_, ?_, ?_⟩
  · exact h.distinct.sublist (Offer.volumesOf_without_sublist _ _)
  · intro s hs
    obtain ⟨r, hr, left⟩ := Offer.exists_leftOf_without hs
    obtain ⟨r', hr', left'⟩ := h.left r hr
    exact ⟨r', hr', left'.trans left⟩
  · rw [all]
    exact h.total_append affords
  · rw [all]
    exact h.volumes_append affords
  · rw [all]
    exact fun v hv => h.spent_append affords hv
  · rw [all]
    exact h.ports_append affords
  · rw [all]
    intro port hport
    rw [portsOf_append, List.mem_append] at hport
    exact hport.elim (h.offered port) (h.offered_of_affords affords)
  · rw [all]
    exact fun apart port hport s hs hname => h.gone_append affords apart hport hs hname

/-- What the operations consume of each kind is within the offer. -/
theorem Conserves.kindTotal_consumed (h : p.Conserves o) (k : Resource Rat) :
    kindTotal k p.consumed ≤
      kindTotal k o.resources + kindCount k p.consumed * Amount.tolerance := by
  have total := h.total k
  have left := kindTotal_nonneg h.nonneg k
  linarith

end

end Progress

end Placement
