/-
What remains of an offer and what was used of it come to what was offered: nothing is lost, and nothing
comes from nowhere.

* `Resource.Reduced` relates a resource to what is left of it once parts have been used. Taking one part
  reduces each resource (`reduced_subtract`), and so does taking several, one after another
  (`reduced_foldl`).
* `Resource.kindTotal_le_foldl` is the other side of `kindTotal_foldl`: no kind loses more than was used
  of it.
* `Offer.balances_without` puts this together with what is left out in the end: resources of which so
  little remains that it is within the tolerance, and those without a port.
-/
import Mathlib.Data.List.ReduceOption
import Mathlib.Tactic.Positivity
import Mathlib.Tactic.Ring
import Placement.Proofs.Remaining

namespace Placement

namespace Resource

/-- What is of the kind of a resource is of the kind of any other of that kind. -/
theorem sameKind_congr_right {α : Type} {r s : Resource α} (h : r.sameKind s = true)
    (u : Resource α) : u.sameKind r = u.sameKind s := by
  rw [sameKind_comm, sameKind_congr h, sameKind_comm]

/-! ## What is left of a resource -/

/-- The port is used by a part of the kind of `r`. -/
def UsesPort (used : List (Resource Rat)) (r : Resource Rat) (p : Port) : Prop :=
  ∃ u ∈ used, u.sameKind r = true ∧ p ∈ PortRange.allPorts u.portRanges

theorem usesPort_congr {r s : Resource Rat} (h : s.sameKind r = true) {used : List (Resource Rat)}
    {p : Port} : UsesPort used s p ↔ UsesPort used r p := by
  simp only [UsesPort, sameKind_congr_right h]

theorem usesPort_append {us vs : List (Resource Rat)} {r : Resource Rat} {p : Port} :
    UsesPort (us ++ vs) r p ↔ UsesPort us r p ∨ UsesPort vs r p := by
  simp only [UsesPort, List.mem_append, or_and_right, exists_or]

/-- What is left of a resource once parts have been used. It stays of its kind, and a scalar if it was
one. Its amount is not negative and does not grow, its ports are those that no part of its kind used, and
where no part is of its kind it is as it was. -/
structure Reduced (used : List (Resource Rat)) (r s : Resource Rat) : Prop where
  kind : s.sameKind r = true
  form : (∃ a, s.value = .scalar a) ↔ ∃ a, r.value = .scalar a
  nonneg : 0 ≤ s.amount
  no_more : s.amount ≤ r.amount
  ports : ∀ p, p ∈ PortRange.allPorts s.portRanges ↔
    p ∈ PortRange.allPorts r.portRanges ∧ ¬ UsesPort used r p
  untouched : (∀ u ∈ used, u.sameKind r = false) → s = r

/-- A resource is reduced to itself if none of its ports was used. -/
theorem Reduced.same {used : List (Resource Rat)} {r : Resource Rat} (nonneg : 0 ≤ r.amount)
    (unused : ∀ p ∈ PortRange.allPorts r.portRanges, ¬ UsesPort used r p) : Reduced used r r where
  kind := sameKind_self r
  form := Iff.rfl
  nonneg := nonneg
  no_more := le_refl _
  ports p := ⟨fun hp => ⟨hp, unused p hp⟩, And.left⟩
  untouched _ := rfl

theorem Reduced.trans {us vs : List (Resource Rat)} {r s t : Resource Rat} (h : Reduced us r s)
    (h' : Reduced vs s t) : Reduced (us ++ vs) r t where
  kind := (sameKind_congr h'.kind r).trans h.kind
  form := h'.form.trans h.form
  nonneg := h'.nonneg
  no_more := le_trans h'.no_more h.no_more
  ports p := by
    rw [h'.ports, h.ports, usesPort_congr h.kind, usesPort_append, not_or, and_assoc]
  untouched others := by
    have first := h.untouched fun u hu => others u (List.mem_append_left vs hu)
    refine (h'.untouched fun u hu => ?_).trans first
    rw [first]
    exact others u (List.mem_append_right us hu)

theorem Reduced.forall₂_trans {us vs rs ss ts : List (Resource Rat)} :
    List.Forall₂ (Reduced us) rs ss → List.Forall₂ (Reduced vs) ss ts →
      List.Forall₂ (Reduced (us ++ vs)) rs ts
  | .nil, .nil => .nil
  | .cons h hs, .cons h' hs' => .cons (h.trans h') (forall₂_trans hs hs')

/-- A part that has no ports uses none. -/
theorem not_usesPort {u : Resource Rat} (h : u.portRanges = []) (r : Resource Rat) (p : Port) :
    ¬ UsesPort [u] r p := by
  rintro ⟨v, hv, -, hp⟩
  obtain rfl := List.mem_singleton.1 hv
  exact not_mem_allPorts h p hp

/-- Taking an amount reduces the resources of its kind and leaves the others. -/
theorem reduced_subtractAmount {kind : Resource Rat} (portless : kind.portRanges = [])
    {rs : List (Resource Rat)} (h : ∀ r ∈ rs, 0 ≤ r.amount) (missing : Rat) :
    List.Forall₂ (Reduced [kind]) rs (subtractAmount kind missing rs) := by
  have same : ∀ r : Resource Rat, 0 ≤ r.amount → Reduced [kind] r r :=
    fun r hr => .same hr fun p _ => not_usesPort portless r p
  induction rs generalizing missing with
  | nil => exact .nil
  | cons r rest ih =>
    have hr := h r List.mem_cons_self
    have hrest : ∀ s ∈ rest, 0 ≤ s.amount := fun s hs => h s (List.mem_cons_of_mem r hs)
    unfold subtractAmount
    split
    · exact List.forall₂_same.2 fun s hs => same s (h s hs)
    · next short =>
      split
      · next amount hkind hvalue =>
        have all : r.amount = amount := amount_of_scalar hvalue
        have upper := Amount.least_le_left amount missing
        have taken : 0 ≤ Amount.least amount missing := by
          have tol := Amount.tolerance_pos
          unfold Amount.least
          split <;> linarith
        refine .cons ⟨by simp, ⟨fun _ => ⟨_, hvalue⟩, fun _ => ⟨_, rfl⟩⟩, ?_, ?_, ?_, ?_⟩ (ih hrest _)
        · rw [amount_withScalar]
          linarith
        · rw [amount_withScalar]
          linarith
        · intro p
          rw [portRanges_withScalar, portRanges_of_scalar hvalue]
          simp [PortRange.allPorts]
        · intro others
          have kind_r := others kind (List.mem_singleton_self kind)
          rw [sameKind_comm, hkind] at kind_r
          cases kind_r
      · exact .cons (same r hr) (ih hrest _)

/-- Taking ports reduces the resources of their kind and leaves the others. -/
theorem reduced_subtractPorts {kind : Resource Rat} {ranges : List PortRange}
    (hkind : kind.value = .ranges ranges) {rs : List (Resource Rat)} (h : ∀ r ∈ rs, 0 ≤ r.amount) :
    List.Forall₂ (Reduced [kind]) rs (subtractPorts kind ranges rs) := by
  have uses : ∀ (r : Resource Rat) p, UsesPort [kind] r p ↔
      r.sameKind kind = true ∧ PortRange.anyContains ranges p = true := by
    intro r p
    rw [sameKind_comm, ← PortRange.mem_allPorts]
    simp [UsesPort, portRanges_of_ranges hkind]
  rw [subtractPorts, List.forall₂_map_right_iff, List.forall₂_same]
  intro r hr
  split
  · next former same hvalue =>
    have none_there : r.amount = 0 := amount_of_ranges hvalue
    refine ⟨by simp, ?_, le_refl _, le_of_eq none_there.symm, ?_, ?_⟩
    · simp [withValue, hvalue]
    · intro p
      rw [portRanges_withRanges, PortRange.mem_allPorts_ofPorts, List.mem_filter, uses,
        portRanges_of_ranges hvalue]
      simp [same]
    · intro others
      have other := others kind (List.mem_singleton_self kind)
      rw [sameKind_comm, same] at other
      cases other
  · next other =>
    refine .same (h r hr) fun p hp hused => ?_
    obtain ⟨same, -⟩ := (uses r p).1 hused
    cases hvalue : r.value with
    | scalar a => exact absurd hp (not_mem_allPorts (portRanges_of_scalar hvalue) p)
    | ranges former => exact other former same hvalue

section

variable {rs used : List (Resource Rat)}

/-- Taking a part reduces each resource. -/
theorem reduced_subtract (h : ∀ r ∈ rs, 0 ≤ r.amount) (u : Resource Rat) :
    List.Forall₂ (Reduced [u]) rs (subtract rs u) := by
  unfold subtract
  split
  · next amount hvalue =>
    exact reduced_subtractAmount (portRanges_of_scalar hvalue) h amount
  · next ranges hvalue => exact reduced_subtractPorts hvalue h

/-- Taking parts one after another reduces each resource by all of them. -/
theorem reduced_foldl (h : ∀ r ∈ rs, 0 ≤ r.amount) (used : List (Resource Rat)) :
    List.Forall₂ (Reduced used) rs (used.foldl subtract rs) := by
  induction used generalizing rs with
  | nil => exact List.forall₂_same.2 fun r hr => .same (h r hr) (by simp [UsesPort])
  | cons u rest ih => exact Reduced.forall₂_trans (reduced_subtract h u) (ih (nonneg_subtract h u))

/-! ## No kind loses more than was used of it -/

theorem kindTotal_le_subtractAmount (kind k : Resource Rat) {missing : Rat} (hmissing : 0 ≤ missing)
    (rs : List (Resource Rat)) : kindTotal k rs ≤
      kindTotal k (subtractAmount kind missing rs) + if kind.sameKind k then missing else 0 := by
  have taken : ∀ {a : Rat}, 0 ≤ a → (0 : Rat) ≤ if kind.sameKind k then a else 0 := by
    intro a ha
    split
    · exact ha
    · exact le_refl 0
  induction rs generalizing missing with
  | nil => exact le_add_of_nonneg_right (taken hmissing)
  | cons r rest ih =>
    unfold subtractAmount
    split
    · exact le_add_of_nonneg_right (taken hmissing)
    · split
      · next amount hkind hvalue =>
        have all : r.amount = amount := amount_of_scalar hvalue
        have upper := Amount.least_le_right amount missing
        have lacking : 0 ≤ missing - Amount.least amount missing := by linarith
        have rest_loses := ih lacking
        rw [kindTotal_cons, kindTotal_cons, sameKind_withValue, amount_withScalar,
          sameKind_congr hkind, all]
        by_cases same : kind.sameKind k = true
        · simp only [if_pos same] at rest_loses ⊢
          linarith
        · simp only [if_neg same] at rest_loses ⊢
          linarith
      · have rest_loses := ih hmissing
        rw [kindTotal_cons, kindTotal_cons]
        linarith

theorem kindTotal_le_subtract {u : Resource Rat} (hu : 0 ≤ u.amount) (k : Resource Rat)
    (rs : List (Resource Rat)) :
    kindTotal k rs ≤ kindTotal k (subtract rs u) + if u.sameKind k then u.amount else 0 := by
  unfold subtract
  split
  · next amount hvalue =>
    have all : u.amount = amount := amount_of_scalar hvalue
    rw [all] at hu ⊢
    exact kindTotal_le_subtractAmount u k hu rs
  · rw [kindTotal_subtractPorts]
    split <;> linarith

theorem kindTotal_le_foldl (h : ∀ u ∈ used, 0 ≤ u.amount) (k : Resource Rat)
    (rs : List (Resource Rat)) :
    kindTotal k rs ≤ kindTotal k (used.foldl subtract rs) + kindTotal k used := by
  induction used generalizing rs with
  | nil => exact le_add_of_nonneg_right (le_refl 0)
  | cons u rest ih =>
    have first := kindTotal_le_subtract (h u List.mem_cons_self) k rs
    have others := ih (fun v hv => h v (List.mem_cons_of_mem u hv)) (subtract rs u)
    rw [List.foldl_cons, kindTotal_cons]
    linarith

/-! ## What is left out -/

theorem kindCount_foldl (k : Resource Rat) : kindCount k (used.foldl subtract rs) = kindCount k rs := by
  have same := leftOf_foldl rs used
  generalize used.foldl subtract rs = ss at same
  induction same with
  | nil => rfl
  | cons first _ ih => rw [kindCount_cons, kindCount_cons, sameKind_congr first.kind, ih]

/-- Of what is left out there is no more than the tolerance in each resource. -/
theorem kindTotal_le_filter_isLeft (rs : List (Resource Rat)) (k : Resource Rat) :
    kindTotal k rs ≤ kindTotal k (rs.filter isLeft) + kindCount k rs * Amount.tolerance := by
  have tol := Amount.tolerance_pos
  induction rs with
  | nil => simp [kindCount]
  | cons r rest ih =>
    have counted : ((kindCount k (r :: rest) : Nat) : Rat) * Amount.tolerance =
        (if r.sameKind k then Amount.tolerance else 0) + kindCount k rest * Amount.tolerance := by
      rw [kindCount_cons]
      split <;> push_cast <;> ring
    rw [counted, kindTotal_cons, List.filter_cons]
    by_cases left : r.isLeft = true
    · rw [if_pos left, kindTotal_cons]
      split <;> linarith
    · have little : r.amount ≤ Amount.tolerance := by
        cases hvalue : r.value with
        | scalar a => simpa [isLeft, hvalue, amount_of_scalar hvalue] using left
        | ranges ranges =>
          rw [amount_of_ranges hvalue]
          exact le_of_lt tol
      rw [if_neg left]
      split <;> linarith

/-- What becomes of a resource: it remains, reduced, or it is left out because its ports are used up or
so little of it is there that it is within the tolerance. -/
inductive Leaves (used : List (Resource Rat)) (r : Resource Rat) : Option (Resource Rat) → Prop where
  | remains {s : Resource Rat} (reduced : Reduced used r s)
      (more : ∀ a, s.value = .scalar a → Amount.tolerance < a) : Leaves used r (some s)
  | gone (ports : ∀ p ∈ PortRange.allPorts r.portRanges, UsesPort used r p)
      (little : (∀ u ∈ used, u.sameKind r = false) → r.amount ≤ Amount.tolerance) : Leaves used r none

theorem Reduced.leaves {r s : Resource Rat} (h : Reduced used r s) :
    Leaves used r (Option.guard isLeft s) := by
  cases left : s.isLeft with
  | true =>
    rw [Option.guard, if_pos left]
    refine .remains h fun a ha => ?_
    simpa [isLeft, ha] using left
  | false =>
    have empty : PortRange.allPorts s.portRanges = [] ∧ s.amount ≤ Amount.tolerance := by
      unfold isLeft at left
      split at left
      · next a hvalue =>
        rw [portRanges_of_scalar hvalue, amount_of_scalar hvalue]
        exact ⟨rfl, not_lt.1 (of_decide_eq_false left)⟩
      · next ranges hvalue =>
        have none_left : ranges = [] := by simpa using left
        rw [portRanges_of_ranges hvalue, amount_of_ranges hvalue, none_left]
        exact ⟨rfl, le_of_lt Amount.tolerance_pos⟩
    rw [Option.guard, left, if_neg Bool.false_ne_true]
    refine .gone (fun p hp => ?_) fun others => ?_
    · by_contra unused
      have held := (h.ports p).2 ⟨hp, unused⟩
      rw [empty.1] at held
      cases held
    · rw [← h.untouched others]
      exact empty.2

end

end Resource

/-! ## Offers -/

namespace Offer

open Resource

/-- What was offered, what was used of it and what remains balance. Amounts of a kind do up to the
tolerance for each part that was used and each resource that was offered. -/
structure Balances (o : Offer Rat) (used : List (Resource Rat)) (rest : Offer Rat) : Prop where
  identity : rest.id = o.id ∧ rest.agentId = o.agentId ∧ rest.hostname = o.hostname ∧
    rest.attributes = o.attributes
  total : ∀ k, |kindTotal k rest.resources - (kindTotal k o.resources - kindTotal k used)| ≤
    kindCount k used * Amount.tolerance + kindCount k o.resources * Amount.tolerance
  /-- What becomes of the offered resources, one by one; those that remain keep their order. -/
  each : ∃ left : List (Option (Resource Rat)),
    List.Forall₂ (Leaves used) o.resources left ∧ rest.resources = left.reduceOption

/-- If of no kind of its parts a list has more than another has, it has not of any kind. -/
theorem kindTotal_le_of_affordable {rs used : List (Resource Rat)} (nonneg : ∀ r ∈ rs, 0 ≤ r.amount)
    (affordable : ∀ u ∈ used, kindTotal u used ≤ kindTotal u rs) (k : Resource Rat) :
    kindTotal k used ≤ kindTotal k rs := by
  by_cases there : ∃ u ∈ used, u.sameKind k = true
  · obtain ⟨u, hu, same⟩ := there
    rw [← kindTotal_congr same, ← kindTotal_congr same]
    exact affordable u hu
  · have none_used : used.filter (·.sameKind k) = [] :=
      List.filter_eq_nil_iff.2 fun u hu same => there ⟨u, hu, same⟩
    rw [kindTotal, none_used]
    exact kindTotal_nonneg nonneg k

/-- What remains of an offer balances, as long as no more of a kind was used than there is. -/
theorem balances_without {o : Offer Rat} {used : List (Resource Rat)}
    (nonneg : ∀ r ∈ o.resources, 0 ≤ r.amount) (used_nonneg : ∀ u ∈ used, 0 ≤ u.amount)
    (affordable : ∀ u ∈ used, kindTotal u used ≤ kindTotal u o.resources) :
    o.Balances used (o.without used) := by
  have remaining : (o.without used).resources = (used.foldl subtract o.resources).filter isLeft := rfl
  refine ⟨⟨rfl, rfl, rfl, rfl⟩, ?_, ?_⟩
  · intro k
    have tol := Amount.tolerance_pos
    have left_nonneg := nonneg_foldl nonneg used
    have dropped_le := kindTotal_filter_le left_nonneg isLeft k
    have dropped := kindTotal_le_filter_isLeft (used.foldl subtract o.resources) k
    have lost := kindTotal_le_foldl used_nonneg k o.resources
    have enough := kindTotal_le_of_affordable nonneg affordable k
    have parts : (0 : Rat) ≤ kindCount k used * Amount.tolerance := by positivity
    have resources : (0 : Rat) ≤ kindCount k o.resources * Amount.tolerance := by positivity
    rw [kindCount_foldl] at dropped
    rw [remaining, abs_le]
    refine ⟨by linarith, ?_⟩
    rcases kindTotal_foldl nonneg used k with taken | used_up <;> linarith
  · have reduced := reduced_foldl nonneg used
    refine ⟨(used.foldl subtract o.resources).map (Option.guard isLeft), ?_, ?_⟩
    · rw [List.forall₂_map_right_iff]
      exact reduced.imp fun _ _ => Reduced.leaves
    · rw [remaining, List.reduceOption, List.filterMap_map, Function.id_comp,
        List.filterMap_eq_filter]

end Offer

namespace Sample

/-- Two resources of one kind of processors, memory, and ports in two ranges. -/
def balanceOffer : Offer Rat where
  id := ⟨.ofNat 6⟩
  agentId := ⟨.ofNat 2⟩
  hostname := "host"
  attributes := ∅
  resources := [.scalar .cpus (1 / 2), .scalar .mem 64, .scalar .cpus 2,
    .ports [⟨31000, 31003⟩, ⟨31010, 31010⟩], .scalar .gpus 1]

/-- The first part uses up one of the processor resources and begins the other; the memory is used in
two parts that leave next to nothing. -/
def balanceUsed : List (Resource Rat) :=
  [.scalar .cpus 1, .scalar .mem 40, .ports [⟨31001, 31002⟩], .scalar .mem (24 - 1 / 2000000),
    .ports [.single 31010], .scalar .cpus (1 / 4)]

end Sample

/-- Of no kind is more used than there is, and what remains balances. -/
theorem Offer.balances_without_sample :
    (∀ u ∈ Sample.balanceUsed,
        Resource.kindTotal u Sample.balanceUsed ≤
          Resource.kindTotal u Sample.balanceOffer.resources) ∧
      Sample.balanceOffer.Balances Sample.balanceUsed
        (Sample.balanceOffer.without Sample.balanceUsed) := by
  have affordable : ∀ u ∈ Sample.balanceUsed, Resource.kindTotal u Sample.balanceUsed ≤
      Resource.kindTotal u Sample.balanceOffer.resources := by
    decide +kernel
  exact ⟨affordable, balances_without (by decide +kernel) (by decide +kernel) affordable⟩

end Placement
