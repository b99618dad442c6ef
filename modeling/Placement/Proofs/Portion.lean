/-
Portions of a match are parts of it.

`Portion.Splits` says that some parts were handed out and what is left of a list. It holds of taking
one scalar, all scalars of a requirement, and bound ports, and of one after another (`Splits.trans`).
So nothing is handed out twice (`Splits.total`).
-/
import Placement.Proofs.Kind
import Placement.Proofs.PortRange
import Placement.Decision.Portion

namespace Placement.Portion

open Resource

/-- The parts that were taken are of kinds that were there, with none but the ports `bound`, and what
is left is as it was, or is a scalar. -/
structure Splits (parts taken : List (Resource Rat)) (bound : List Port)
    (rest : List (Resource Rat)) : Prop where
  total : ∀ k, kindTotal k taken + kindTotal k rest = kindTotal k parts
  held : ∀ f ∈ taken, ∃ r ∈ parts, f.sameKind r = true ∧
    ∀ port ∈ PortRange.allPorts f.portRanges, port ∈ PortRange.allPorts r.portRanges
  ports : (portsOf taken).Sublist bound
  unchanged : ∀ f ∈ rest, f.portRanges = [] ∨ f ∈ parts
  kinds : ∀ f ∈ rest, ∃ r ∈ parts, f.sameKind r = true
  nonneg : (∀ r ∈ parts, 0 ≤ r.amount) → ∀ f ∈ rest, 0 ≤ f.amount

theorem Splits.refl (parts : List (Resource Rat)) : Splits parts [] [] parts :=
  ⟨fun _ => zero_add _, fun _ h => absurd h List.not_mem_nil, .slnil, fun _ h => .inr h,
    fun f h => ⟨f, h, sameKind_self f⟩, id⟩

section

variable {parts taken mid more rest : List (Resource Rat)} {bound bound' : List Port}

theorem Splits.trans (h : Splits parts taken bound mid) (h' : Splits mid more bound' rest) :
    Splits parts (taken ++ more) (bound ++ bound') rest := by
  refine ⟨?_, ?_, ?_, ?_, ?_,
    fun nonneg => h'.nonneg (h.nonneg nonneg)⟩
  · intro k
    have first := h.total k
    have second := h'.total k
    rw [kindTotal_append]
    linarith
  · intro f hf
    rcases List.mem_append.1 hf with hf | hf
    · exact h.held f hf
    · obtain ⟨r, hr, hkind, hports⟩ := h'.held f hf
      rcases h.unchanged r hr with scalar | before
      · -- Without ports, a part of the same kind will do.
        obtain ⟨s, hs, hkind'⟩ := h.kinds r hr
        refine ⟨s, hs, by rw [sameKind_congr hkind, hkind'], ?_⟩
        intro port hport
        exact absurd (hports port hport) (not_mem_allPorts scalar port)
      · exact ⟨r, before, hkind, hports⟩
  · rw [portsOf_append]
    exact h.ports.append h'.ports
  · intro f hf
    exact (h'.unchanged f hf).elim .inl (h.unchanged f)
  · intro f hf
    obtain ⟨r, hr, hkind⟩ := h'.kinds f hf
    obtain ⟨s, hs, hkind'⟩ := h.kinds r hr
    exact ⟨s, hs, by rw [sameKind_congr hkind, hkind']⟩

/-- Leaving the first part alone. -/
theorem Splits.cons (h : Splits parts taken bound rest) (r : Resource Rat) :
    Splits (r :: parts) taken bound (r :: rest) := by
  refine ⟨?_, ?_, h.ports, ?_, ?_,
    ?_⟩
  · intro k
    have := h.total k
    simp only [kindTotal_cons]
    linarith
  · intro f hf
    obtain ⟨s, hs, hkind⟩ := h.held f hf
    exact ⟨s, List.mem_cons_of_mem r hs, hkind⟩
  · intro f hf
    rcases List.mem_cons.1 hf with rfl | hf
    · exact .inr List.mem_cons_self
    · exact (h.unchanged f hf).imp_right (List.mem_cons_of_mem r)
  · intro f hf
    rcases List.mem_cons.1 hf with rfl | hf
    · exact ⟨f, List.mem_cons_self, sameKind_self f⟩
    · obtain ⟨s, hs, hkind⟩ := h.kinds f hf
      exact ⟨s, List.mem_cons_of_mem r hs, hkind⟩
  · intro nonneg f hf
    rcases List.mem_cons.1 hf with rfl | hf
    · exact nonneg f List.mem_cons_self
    · exact h.nonneg (fun s hs => nonneg s (List.mem_cons_of_mem r hs)) f hf

/-- Taking some of a scalar in front. -/
theorem splits_slice {r : Resource Rat} {a b : Rat} (hr : r.amount = a) (hb : b ≤ a)
    (rest : List (Resource Rat)) :
    Splits (r :: rest) [r.withValue (.scalar b)] [] (r.withValue (.scalar (a - b)) :: rest) := by
  refine ⟨?_, ?_, ?_, ?_, ?_, ?_⟩
  · intro k
    by_cases same : r.sameKind k = true
    · simp only [kindTotal_cons, kindTotal_nil, sameKind_withValue, amount_withScalar, same, hr, if_true]
      linarith
    · simp [kindTotal_cons, same]
  · intro f hf
    obtain rfl := List.mem_singleton.1 hf
    refine ⟨r, List.mem_cons_self, sameKind_self r, ?_⟩
    intro port hport
    exact absurd hport (not_mem_allPorts rfl port)
  · exact .slnil
  · intro f hf
    rcases List.mem_cons.1 hf with rfl | hf
    · exact .inl rfl
    · exact .inr (List.mem_cons_of_mem r hf)
  · intro f hf
    rcases List.mem_cons.1 hf with rfl | hf
    · exact ⟨r, List.mem_cons_self, sameKind_self r⟩
    · exact ⟨f, List.mem_cons_of_mem r hf, sameKind_self f⟩
  · intro nonneg f hf
    rcases List.mem_cons.1 hf with rfl | hf
    · simp only [amount_withScalar]
      linarith
    · exact nonneg f (List.mem_cons_of_mem r hf)

end

/-! ## Scalars -/

theorem splits_takeScalar (name : ResourceName) (missing : Rat) (parts : List (Resource Rat)) :
    Splits parts (takeScalar name missing parts).1 [] (takeScalar name missing parts).2 := by
  induction parts generalizing missing with
  | nil => exact .refl []
  | cons r rest ih =>
    unfold takeScalar
    split
    · exact .refl _
    · split
      · next amount _ hvalue =>
        have hr : r.amount = amount := amount_of_scalar hvalue
        simp only
        split
        · exact (ih missing).cons r
        · have upper := Amount.least_le_left amount missing
          have more := (ih (missing - Amount.least amount missing)).cons
            (r.withValue (.scalar (amount - Amount.least amount missing)))
          exact (splits_slice hr upper rest).trans more
      · exact (ih missing).cons r

theorem splits_takeScalars (required : Requirements Rat) (names : List ResourceName)
    (parts : List (Resource Rat)) :
    Splits parts (takeScalars required names parts).1 [] (takeScalars required names parts).2 := by
  induction names generalizing parts with
  | nil => exact .refl parts
  | cons name rest ih =>
    unfold takeScalars
    exact (splits_takeScalar name (required.of name) parts).trans (ih _)

theorem splits_take (required : Requirements Rat) (parts : List (Resource Rat)) :
    Splits parts (take required parts).1 [] (take required parts).2 :=
  splits_takeScalars required _ parts

/-! ## Ports -/

/-- The ports that are handed out are among those that are bound, in their order. -/
theorem portsOf_ports (hostPorts : List (Option Port)) (parts : List (Resource Rat)) :
    (portsOf (ports hostPorts parts)).Sublist (hostPorts.filterMap id) := by
  unfold ports
  generalize hostPorts.filterMap id = bound
  induction bound with
  | nil => exact .slnil
  | cons port rest ih =>
    rw [List.filterMap_cons]
    cases parts.find? fun r => PortRange.anyContains r.portRanges port with
    | none => exact ih.cons port
    | some r =>
      have single : portsOf [r.withValue (.ranges [.single port])] = [port] := by
        rw [portsOf, List.flatMap_singleton, portRanges_withRanges, PortRange.allPorts_single]
      have split_first := @portsOf_append Rat [r.withValue (.ranges [.single port])]
        (rest.filterMap fun p => (parts.find? fun r => PortRange.anyContains r.portRanges p).map
          fun r => r.withValue (.ranges [.single p]))
      rw [single] at split_first
      exact split_first ▸ ih.cons_cons port

/-- Handing out ports leaves the parts as they are. -/
theorem splits_ports (hostPorts : List (Option Port)) (parts : List (Resource Rat)) :
    Splits parts (ports hostPorts parts) (hostPorts.filterMap id) parts := by
  have from_part : ∀ u ∈ ports hostPorts parts, u.amount = 0 ∧ ∃ r ∈ parts, u.sameKind r = true ∧
      ∀ port ∈ PortRange.allPorts u.portRanges, port ∈ PortRange.allPorts r.portRanges := by
    intro u hu
    obtain ⟨port, -, heq⟩ := List.mem_filterMap.1 hu
    obtain ⟨r, found, rfl⟩ := Option.map_eq_some_iff.1 heq
    refine ⟨rfl, r, List.mem_of_find?_eq_some found, sameKind_self r, fun q hq => ?_⟩
    have holds : PortRange.anyContains r.portRanges port = true :=
      List.find?_some (p := fun r : Resource Rat => PortRange.anyContains r.portRanges port) found
    rw [portRanges_withRanges, PortRange.allPorts_single, List.mem_singleton] at hq
    rw [hq]
    exact PortRange.mem_allPorts.2 holds
  refine ⟨?_, fun u hu => (from_part u hu).2, portsOf_ports hostPorts parts,
    fun f hf => .inr hf, fun f hf => ⟨f, hf, sameKind_self f⟩, id⟩
  intro k
  rw [kindTotal_eq_zero (fun u hu => (from_part u hu).1) k, zero_add]

end Placement.Portion
