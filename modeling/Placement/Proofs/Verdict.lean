/-
The verdict on an offer.

All requirements of a run spec are taken from one pool, and one that is not met may have looked at all
of it. Still each is judged as if it were the only one: what is taken for one name is of no use to
another, and what cannot be had in full is not taken. `Matching.Met` and `HostPorts.Bindable` say of the
offer alone when a requirement is met, and `Matching.verdict_match?` that the verdict is made of these.
-/
import Placement.Proofs.Bindable
import Placement.Proofs.Provenance
import Placement.Proofs.Supply

namespace Placement

namespace Pool

open Resource

/-! ## One requirement -/

/-- Plain amounts of the name can be taken from the resource, if they may be at all. -/
def offers (s : Selector) (name : ResourceName) (r : Resource Rat) : Bool :=
  s.accepts r && r.serves name

variable {s : Selector} {name : ResourceName} {amount : Rat} {p p' : Pool Rat}

/-- What is usable is reserved, or it is not. -/
theorem stock_usable (s : Selector) (name : ResourceName) (p : Pool Rat) :
    stock (usable s name true) p + stock (usable s name false) p = stock (offers s name) p := by
  induction p with
  | nil => exact add_zero 0
  | cons c rest ih =>
    have split : ∀ reserved, usable s name reserved c.resource =
        (offers s name c.resource && c.resource.isReserved == reserved) := by
      intro reserved
      rw [Bool.eq_iff_iff, usable_iff, offers]
      simp only [Bool.and_eq_true, beq_iff_eq]
      tauto
    rw [stock_cons, stock_cons, stock_cons, ← ih, split, split]
    cases c.resource.isReserved with
    | true => simp [add_assoc]
    | false => simp [add_left_comm]

theorem takeScalar?_eq_none_iff : p.takeScalar? s name amount = none ↔
    stock (offers s name) p + Amount.tolerance < amount := by
  rw [takeScalar?_eq, stock_usable]
  split
  · next short => simp [short]
  · next enough => simp [enough]

end Pool

theorem MismatchReason.ofResource_injective : Function.Injective ofResource := by
  intro a b h
  cases a <;> cases b <;> first | rfl | cases h

namespace Matching

open Pool Resource

/-! ## All requirements -/

section

variable {s : Selector} {required : Requirements Rat} {names : List ResourceName}
  {reasons : List MismatchReason} {p : Pool Rat} {fails : ResourceName → Bool}

/-- A reason comes for each requirement that the pool has too little for at the start, whatever is
taken for the others. -/
theorem reasons_takeScalars (distinct : names.Nodup)
    (new : ∀ name ∈ names, MismatchReason.ofResource name ∉ reasons)
    (judged : ∀ name ∈ names, fails name = true ↔ Amount.tolerance < required.of name ∧
      stock (offers s name) p + Amount.tolerance < required.of name) :
    (takeScalars s required reasons names p).2.1 =
      reasons ++ (names.filter fails).map .ofResource := by
  induction names generalizing reasons p with
  | nil => simp [takeScalars]
  | cons name rest ih =>
    obtain ⟨unlike, distinct⟩ := List.nodup_cons.1 distinct
    have new' : ∀ other ∈ rest, MismatchReason.ofResource other ∉ reasons :=
      fun other hother => new other (List.mem_cons_of_mem name hother)
    have judged' := fun other hother => judged other (List.mem_cons_of_mem name hother)
    have here := judged name List.mem_cons_self
    unfold takeScalars
    split
    · next small =>
      have passes : ¬fails name = true := fun h => absurd (here.1 h).1 (not_lt.2 small)
      rw [List.filter_cons_of_neg passes]
      exact ih distinct new' judged'
    · next large =>
      split
      · next parts mid taken =>
        have passes : ¬fails name = true := by
          intro h
          rw [takeScalar?_eq_none_iff.2 (here.1 h).2] at taken
          cases taken
        rw [List.filter_cons_of_neg passes]
        refine ih distinct new' ?_
        intro other hother
        have kept : stock (offers s other) mid = stock (offers s other) p := by
          refine stock_of_takeScalar? taken ?_ fun r hr => (Bool.and_eq_true_iff.1 hr).2
          exact fun same => unlike (same ▸ hother)
        rw [judged' other hother, kept]
      · next short =>
        have misses : fails name = true :=
          here.2 ⟨not_le.1 large, takeScalar?_eq_none_iff.1 short⟩
        have added : addReason reasons (.ofResource name) = reasons ++ [.ofResource name] := by
          have absent := new name List.mem_cons_self
          rw [addReason, if_neg (by simpa using absent)]
        have new'' : ∀ other ∈ rest,
            MismatchReason.ofResource other ∉ reasons ++ [.ofResource name] := by
          intro other hother again
          rcases List.mem_append.1 again with before | same
          · exact new' other hother before
          · exact unlike (MismatchReason.ofResource_injective (List.mem_singleton.1 same) ▸ hother)
        rw [added, List.filter_cons_of_pos misses, ih distinct new'' judged', List.append_assoc]
        rfl

end

/-! ## The offer -/

/-- The accepted resources of the name have what is required of it, up to the tolerance. So little that
it is within the tolerance need not be there. -/
def Met (s : Selector) (rs : List (Resource Rat)) (required : Requirements Rat)
    (name : ResourceName) : Prop :=
  required.of name ≤ Amount.tolerance ∨
    required.of name ≤ amountOf (Pool.offers s name) rs + Amount.tolerance

instance (s : Selector) (rs : List (Resource Rat)) (required : Requirements Rat)
    (name : ResourceName) : Decidable (Met s rs required name) :=
  inferInstanceAs (Decidable (_ ∨ _))

/-- The ports of the resources that the selector accepts. -/
def acceptedPorts (s : Selector) (rs : List (Resource Rat)) : List Port :=
  portsOf (rs.filter fun r => r.name == .ports && s.accepts r)

/-- The reasons of the requirements that an offer does not meet. -/
def shortfalls (s : Selector) (o : Offer Rat) (runSpec : RunSpec Rat) (known : List Instance) :
    List MismatchReason :=
  (scalarNames.filter fun name => ¬Met s o.resources runSpec.totalResources name).map .ofResource ++
    if HostPorts.Bindable (HostPorts.inUse o.agentId known) (acceptedPorts s o.resources)
        runSpec.portRequests then [] else [.insufficientPorts]

section

variable {gpus : GpuPolicy} {o : Offer Rat} {runSpec : RunSpec Rat} {known : List Instance}
  {s : Selector}

theorem reasons_offer (s : Selector) (o : Offer Rat) (required : Requirements Rat) :
    (takeScalars s required [] scalarNames (ofResources o.resources)).2.1 =
      (scalarNames.filter fun name => ¬Met s o.resources required name).map .ofResource := by
  refine (reasons_takeScalars (by decide) (by simp) ?_).trans (List.nil_append _)
  intro name _
  rw [decide_eq_true_eq, Met, not_or, not_le, not_le, stock_ofResources]

/-- Ports are bound after amounts have been taken as if none had been. -/
theorem isSome_assign?_offer (s : Selector) (o : Offer Rat) (required : Requirements Rat)
    (excluded : List Port) (requests : List HostPort) :
    (HostPorts.assign? s excluded requests
      (takeScalars s required [] scalarNames (ofResources o.resources)).2.2).isSome = true ↔
      HostPorts.Bindable excluded (acceptedPorts s o.resources) requests := by
  have kept := frame_takeScalars s o .none required
  refine HostPorts.isSome_assign?_iff ?_ (List.flatMap_eq_nil_iff.2 (takenPorts_of_frame kept))
  exact (resources_of_frame kept).trans (resources_ofResources o.resources)

/-- An offer that is looked at is matched if it falls short of nothing, and refused for just what it
falls short of otherwise. -/
theorem match?_none (scarce : declinesForGpus gpus o runSpec = false)
    (accepted : o.resources.any s.accepts = true) :
    (shortfalls s o runSpec known = [] ∧ ∃ m, match? gpus o runSpec known s .none = .ok m) ∨
      (shortfalls s o runSpec known ≠ [] ∧
        match? gpus o runSpec known s .none = .error (shortfalls s o runSpec known)) := by
  have reasons := reasons_offer s o runSpec.totalResources
  have ports := isSome_assign?_offer s o runSpec.totalResources (HostPorts.inUse o.agentId known)
    runSpec.portRequests
  rw [shortfalls, ← reasons]
  unfold match?
  rw [scarce, accepted]
  simp only [Bool.false_eq_true, Bool.not_true, if_false, takeVolumes]
  cases assigned : HostPorts.assign? s (HostPorts.inUse o.agentId known) runSpec.portRequests
      (takeScalars s runSpec.totalResources [] scalarNames (ofResources o.resources)).2.2 with
  | none =>
    rw [assigned] at ports
    rw [if_neg fun bindable => nomatch ports.2 bindable]
    exact .inr ⟨by simp, rfl⟩
  | some bound =>
    rw [assigned] at ports
    rw [if_pos (ports.1 rfl), List.append_nil]
    by_cases none_short :
        (takeScalars s runSpec.totalResources [] scalarNames (ofResources o.resources)).2.1 = []
    · exact .inl ⟨none_short, _, if_pos (by rw [none_short]; rfl)⟩
    · exact .inr ⟨none_short, if_neg fun h => none_short (List.isEmpty_iff.1 h)⟩

/-- An offer that is not kept for its GPUs and has something that may be used is matched just if each
requirement is met for itself. Otherwise it is refused for all those that are not met, each once and
in their order. -/
theorem verdict_match? (scarce : declinesForGpus gpus o runSpec = false)
    (accepted : o.resources.any s.accepts = true) :
    ((∃ m, match? gpus o runSpec known s .none = .ok m) ↔
      (∀ name ∈ scalarNames, Met s o.resources runSpec.totalResources name) ∧
        HostPorts.Bindable (HostPorts.inUse o.agentId known) (acceptedPorts s o.resources)
          runSpec.portRequests) ∧
    ((¬∃ m, match? gpus o runSpec known s .none = .ok m) →
      match? gpus o runSpec known s .none = .error (shortfalls s o runSpec known)) ∧
    (shortfalls s o runSpec known).Sublist [.insufficientCpus, .insufficientMemory, .insufficientDisk,
      .insufficientGpus, .insufficientPorts] := by
  have all_met : shortfalls s o runSpec known = [] ↔
      (∀ name ∈ scalarNames, Met s o.resources runSpec.totalResources name) ∧
        HostPorts.Bindable (HostPorts.inUse o.agentId known) (acceptedPorts s o.resources)
          runSpec.portRequests := by
    rw [shortfalls, List.append_eq_nil_iff, List.map_eq_nil_iff, List.filter_eq_nil_iff]
    simp
  rw [← all_met]
  refine ⟨?_, ?_, ?_⟩
  · rcases match?_none scarce accepted with ⟨none_short, found⟩ | ⟨short, refused⟩
    · exact ⟨fun _ => none_short, fun _ => found⟩
    · refine ⟨fun ⟨m, found⟩ => ?_, fun none_short => absurd none_short short⟩
      cases refused.symm.trans found
  · intro unmatched
    rcases match?_none scarce accepted with ⟨-, found⟩ | ⟨-, refused⟩
    · exact absurd found unmatched
    · exact refused
  · have order : ([.insufficientCpus, .insufficientMemory, .insufficientDisk, .insufficientGpus,
        .insufficientPorts] : List MismatchReason) =
          scalarNames.map .ofResource ++ [.insufficientPorts] := rfl
    rw [order, shortfalls]
    refine (List.filter_sublist.map _).append ?_
    split
    · exact List.nil_sublist _
    · exact List.Sublist.refl _

end

end Matching

namespace Sample

/-- An instance needs one processor, some memory, one port by its number and another. -/
def shop : RunSpec Rat :=
  { RunSpec.ofId ⟨"/shop", by decide⟩ 1 ⟨0, 0⟩ with
    resources := ⟨1, 512, 0, 0⟩
    ports := [.ofHostPort (.fixed 31000), .ofHostPort .dynamic] }

/-- There is memory, but neither a whole processor nor a second port. -/
def scantOffer : Offer Rat where
  id := ⟨.ofNat 4⟩
  agentId := ⟨.ofNat 2⟩
  hostname := "host"
  attributes := ∅
  resources := [.scalar .cpus (1 / 2), .scalar .mem 1024, .ports [⟨31000, 31000⟩]]

end Sample

theorem Matching.verdict_match?_sample :
    match? .restricted Sample.scantOffer Sample.shop [] ⟨Roles.ofList ["*"], .unreserved⟩ .none =
      .error [.insufficientCpus, .insufficientPorts] := by
  obtain ⟨verdict, refused, -⟩ := @verdict_match? .restricted Sample.scantOffer Sample.shop []
    ⟨Roles.ofList ["*"], .unreserved⟩ (by decide +kernel) (by decide +kernel)
  have short : shortfalls ⟨Roles.ofList ["*"], .unreserved⟩ Sample.scantOffer Sample.shop [] =
      [.insufficientCpus, .insufficientPorts] := by
    decide +kernel
  rw [← short]
  refine refused fun found => ?_
  exact absurd (verdict.1 found).1 (by decide +kernel)

end Placement
