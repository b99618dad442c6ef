/-
Kinds of resources, and what a list of resources has of each: its amount, its ports, its volumes.

Resources are of one kind if they differ in their value at most. Amounts are rational numbers here,
and a list of resources is read through three views only: `kindTotal`, `portsOf` and `volumesOf`.
-/
import Mathlib.Algebra.BigOperators.Group.List.Basic
import Mathlib.Algebra.Order.Ring.Rat
import Mathlib.Tactic.Linarith
import Placement.Resource

namespace Placement

theorem Amount.tolerance_pos : (0 : Rat) < Amount.tolerance := by
  show (0 : Rat) < mkRat 1 1000000
  decide

theorem Amount.least_le_left (a b : Rat) : Amount.least a b ≤ a := by
  unfold Amount.least
  split
  · exact le_refl a
  · next h => exact le_of_lt (not_le.1 h)

theorem Amount.least_le_right (a b : Rat) : Amount.least a b ≤ b := by
  unfold Amount.least
  split
  · next h => exact h
  · exact le_refl b

/-! ## Kinds -/

namespace Resource

section

variable {α : Type} {r s t : Resource α}

theorem sameKind_iff : r.sameKind s = true ↔
    r.name = s.name ∧ r.role = s.role ∧ r.reservation = s.reservation ∧ r.disk = s.disk := by
  simp [sameKind, and_assoc]

@[simp] theorem sameKind_self (r : Resource α) : r.sameKind r = true := by
  simp [sameKind_iff]

theorem sameKind_comm : r.sameKind s = s.sameKind r := by
  rw [Bool.eq_iff_iff, sameKind_iff, sameKind_iff]
  constructor <;> rintro ⟨h₁, h₂, h₃, h₄⟩ <;> exact ⟨h₁.symm, h₂.symm, h₃.symm, h₄.symm⟩

/-- Resources of one kind are of the same kinds. -/
theorem sameKind_congr (h : r.sameKind s = true) (k : Resource α) : r.sameKind k = s.sameKind k := by
  obtain ⟨h₁, h₂, h₃, h₄⟩ := sameKind_iff.1 h
  simp [sameKind, h₁, h₂, h₃, h₄]

@[simp] theorem sameKind_withValue (r : Resource α) (v : ResourceValue α) (k : Resource α) :
    (r.withValue v).sameKind k = r.sameKind k := rfl

theorem persistence_congr (h : r.sameKind s = true) : r.persistence = s.persistence := by
  rw [persistence, persistence, (sameKind_iff.1 h).2.2.2]

theorem name_congr (h : r.sameKind s = true) : r.name = s.name := (sameKind_iff.1 h).1

end

@[simp] theorem amount_withScalar (r : Resource Rat) (a : Rat) :
    (r.withValue (.scalar a)).amount = a := rfl

@[simp] theorem amount_withRanges (r : Resource Rat) (rs : List PortRange) :
    (r.withValue (.ranges rs)).amount = 0 := rfl

@[simp] theorem portRanges_withScalar {α : Type} (r : Resource α) (a : α) :
    (r.withValue (.scalar a)).portRanges = [] := rfl

@[simp] theorem portRanges_withRanges {α : Type} (r : Resource α) (rs : List PortRange) :
    (r.withValue (.ranges rs)).portRanges = rs := rfl

/-! ## Amounts of a kind -/

/-- The amount that a list of resources has of the kind of `k`. -/
def kindTotal (k : Resource Rat) (rs : List (Resource Rat)) : Rat :=
  ((rs.filter (·.sameKind k)).map amount).sum

/-- How many resources of a list are of the kind of `k`. -/
def kindCount (k : Resource Rat) (rs : List (Resource Rat)) : Nat := rs.countP (·.sameKind k)

@[simp] theorem kindTotal_nil (k : Resource Rat) : kindTotal k [] = 0 := rfl

theorem kindTotal_cons (k r : Resource Rat) (rs : List (Resource Rat)) :
    kindTotal k (r :: rs) = (if r.sameKind k then r.amount else 0) + kindTotal k rs := by
  by_cases h : r.sameKind k = true
  · simp [kindTotal, h]
  · simp [kindTotal, h]

theorem kindTotal_append (k : Resource Rat) (rs ss : List (Resource Rat)) :
    kindTotal k (rs ++ ss) = kindTotal k rs + kindTotal k ss := by
  simp [kindTotal]

theorem kindTotal_congr {k k' : Resource Rat} (h : k.sameKind k' = true)
    (rs : List (Resource Rat)) : kindTotal k rs = kindTotal k' rs := by
  have same : ∀ r : Resource Rat, r.sameKind k = r.sameKind k' := fun r => by
    rw [sameKind_comm, sameKind_congr h, sameKind_comm]
  simp [kindTotal, same]

theorem kindTotal_nonneg {rs : List (Resource Rat)} (h : ∀ r ∈ rs, 0 ≤ r.amount)
    (k : Resource Rat) : 0 ≤ kindTotal k rs := by
  induction rs with
  | nil => exact le_refl 0
  | cons r rest ih =>
    have hrest := ih fun s hs => h s (List.mem_cons_of_mem r hs)
    have hr := h r List.mem_cons_self
    rw [kindTotal_cons]
    split <;> linarith

theorem kindTotal_eq_zero {rs : List (Resource Rat)} (h : ∀ r ∈ rs, r.amount = 0)
    (k : Resource Rat) : kindTotal k rs = 0 := by
  refine List.sum_eq_zero ?_
  intro a ha
  obtain ⟨r, hr, rfl⟩ := List.mem_map.1 ha
  exact h r (List.mem_filter.1 hr).1

/-- A resource has no more than its list has of its kind. -/
theorem amount_le_kindTotal {rs : List (Resource Rat)} (h : ∀ r ∈ rs, 0 ≤ r.amount)
    {r : Resource Rat} (hr : r ∈ rs) : r.amount ≤ kindTotal r rs := by
  induction rs with
  | nil => simp at hr
  | cons s rest ih =>
    have hs := h s List.mem_cons_self
    have hrest : ∀ t ∈ rest, 0 ≤ t.amount := fun t ht => h t (List.mem_cons_of_mem s ht)
    rw [kindTotal_cons]
    rcases List.mem_cons.1 hr with rfl | hr
    · have := kindTotal_nonneg hrest r
      simp only [sameKind_self, if_true]
      linarith
    · have := ih hrest hr
      split <;> linarith

/-- Leaving out resources does not add to an amount. -/
theorem kindTotal_filter_le {rs : List (Resource Rat)} (h : ∀ r ∈ rs, 0 ≤ r.amount)
    (p : Resource Rat → Bool) (k : Resource Rat) : kindTotal k (rs.filter p) ≤ kindTotal k rs := by
  induction rs with
  | nil => exact le_refl 0
  | cons r rest ih =>
    have hr := h r List.mem_cons_self
    have hrest := ih fun s hs => h s (List.mem_cons_of_mem r hs)
    rw [List.filter_cons, kindTotal_cons]
    split
    · rw [kindTotal_cons]
      linarith
    · split <;> linarith

theorem kindCount_append (k : Resource Rat) (rs ss : List (Resource Rat)) :
    kindCount k (rs ++ ss) = kindCount k rs + kindCount k ss := List.countP_append

theorem kindCount_cons (k r : Resource Rat) (rs : List (Resource Rat)) :
    kindCount k (r :: rs) = (if r.sameKind k then 1 else 0) + kindCount k rs := by
  rw [kindCount, List.countP_cons, kindCount, Nat.add_comm]

/-! ## Ports and volumes -/

/-- All ports of a list of resources, in its order. -/
def portsOf {α : Type} (rs : List (Resource α)) : List Port :=
  rs.flatMap fun r => PortRange.allPorts r.portRanges

/-- The persistent volumes that the disks of a list keep, in its order. -/
def volumesOf {α : Type} (rs : List (Resource α)) : List VolumeId :=
  (rs.filter (·.name == .disk)).filterMap fun r => r.persistence.map (·.volumeId)

/-- If this is a disk, it keeps no volume. -/
def Bare {α : Type} (r : Resource α) : Prop := r.name = .disk → r.persistence = none

section

variable {α : Type} {rs ss : List (Resource α)}

theorem portsOf_append : portsOf (rs ++ ss) = portsOf rs ++ portsOf ss := List.flatMap_append

theorem mem_portsOf {p : Port} :
    p ∈ portsOf rs ↔ ∃ r ∈ rs, p ∈ PortRange.allPorts r.portRanges := List.mem_flatMap

theorem not_mem_allPorts {r : Resource α} (h : r.portRanges = []) (port : Port) :
    port ∉ PortRange.allPorts r.portRanges := by
  simp [h, PortRange.allPorts]

theorem portsOf_eq_nil (h : ∀ r ∈ rs, r.portRanges = []) : portsOf rs = [] := by
  rw [portsOf, List.flatMap_eq_nil_iff]
  intro r hr
  simp [h r hr, PortRange.allPorts]

theorem volumesOf_append : volumesOf (rs ++ ss) = volumesOf rs ++ volumesOf ss := by
  simp [volumesOf]

theorem mem_volumesOf {v : VolumeId} :
    v ∈ volumesOf rs ↔ ∃ r ∈ rs, r.name = .disk ∧ r.carriesVolume v = true := by
  simp only [volumesOf, List.mem_filterMap, List.mem_filter, beq_iff_eq, Option.map_eq_some_iff,
    carriesVolume]
  constructor
  · rintro ⟨r, ⟨hr, hname⟩, q, hq, rfl⟩
    exact ⟨r, hr, hname, by simp [hq]⟩
  · rintro ⟨r, hr, hname, hv⟩
    split at hv
    · next q hq => exact ⟨r, ⟨hr, hname⟩, q, hq, by simpa using hv⟩
    · cases hv

/-- Disks without volumes keep none. -/
theorem volumesOf_eq_nil (h : ∀ r ∈ rs, r.Bare) : volumesOf rs = [] := by
  rw [List.eq_nil_iff_forall_not_mem]
  intro v hv
  obtain ⟨r, hr, hname, carries⟩ := mem_volumesOf.1 hv
  rw [carriesVolume, h r hr hname] at carries
  cases carries

theorem carriesVolume_congr {r s : Resource α} (h : r.sameKind s = true) (v : VolumeId) :
    r.carriesVolume v = s.carriesVolume v := by
  rw [carriesVolume, persistence_congr h, carriesVolume]

theorem bare_congr {r s : Resource α} (h : r.sameKind s = true) (bare : s.Bare) : r.Bare := by
  intro hname
  rw [persistence_congr h]
  exact bare ((name_congr h).symm.trans hname)

end

/-! ## Amounts and ports, by the form of the value -/

section

variable {r : Resource Rat} {a : Rat} {ranges : List PortRange}

theorem amount_of_scalar (h : r.value = .scalar a) : r.amount = a := by
  rw [Resource.amount, h]
  rfl

theorem amount_of_ranges (h : r.value = .ranges ranges) : r.amount = 0 := by
  rw [Resource.amount, h]
  rfl

theorem portRanges_of_scalar (h : r.value = .scalar a) : r.portRanges = [] := by
  rw [portRanges, h]
  rfl

theorem portRanges_of_ranges (h : r.value = .ranges ranges) : r.portRanges = ranges := by
  rw [portRanges, h]
  rfl

end

/-- Only a scalar has an amount. -/
theorem portRanges_of_amount {r : Resource Rat} (h : 0 < r.amount) : r.portRanges = [] := by
  cases hvalue : r.value with
  | scalar a => exact portRanges_of_scalar hvalue
  | ranges ranges =>
    rw [amount_of_ranges hvalue] at h
    exact absurd h (lt_irrefl _)

end Resource

end Placement
