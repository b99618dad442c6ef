/-
Which port a dynamic request is bound to.

A dynamic request has a choice of the ports that nobody has: `HostPorts.choices` lists those of reserved
resources or, where none is left of these, those of the others. `HostPorts.lowest_assign?` says that it is
bound to the first of them in the order of the offer. That is the lowest one if the offer lists its ports
in ascending order (`Offer.Ascending`), and need not be if it does not (`Sample.passed_over`).
-/
import Placement.Proofs.Assignment

namespace Placement

variable {α : Type}

/-- The ports of the accepted resources that are reserved, or of those that are not, in the order of the
offer. -/
def Offer.portsBy (s : Selector) (reserved : Bool) (o : Offer α) : List Port :=
  Resource.portsOf ((o.portResources s).filter (·.isReserved == reserved))

/-- The offer lists its ports in ascending order, those of reserved resources and the others apart. -/
def Offer.Ascending (s : Selector) (o : Offer α) : Prop :=
  ∀ reserved, (o.portsBy s reserved).Pairwise (· ≤ ·)

namespace HostPorts

open Pool

/-! ## What there is to choose from -/

/-- The ports that are not taken: those of reserved resources, or if there are none those of the others. -/
def choices (s : Selector) (o : Offer α) (taken : List Port) : List Port :=
  if (o.portsBy s true).filter (!taken.contains ·) = [] then
    (o.portsBy s false).filter (!taken.contains ·)
  else (o.portsBy s true).filter (!taken.contains ·)

section

variable {s : Selector} {o : Offer α} {taken : List Port}

/-- The first choice is the first port that is not taken, where those of reserved resources go first. -/
theorem head?_choices (s : Selector) (o : Offer α) (taken : List Port) :
    (choices s o taken).head? =
      (o.portsBy s true ++ o.portsBy s false).find? (!taken.contains ·) := by
  unfold choices
  rw [List.find?_append, ← List.head?_filter, ← List.head?_filter]
  split
  · next none_reserved => rw [none_reserved, List.head?_nil, Option.none_or]
  · next some_reserved =>
    obtain ⟨port, more, first⟩ := List.exists_cons_of_ne_nil some_reserved
    rw [first, List.head?_cons, Option.some_or]

/-- Among ports in ascending order the first choice is the lowest. -/
theorem le_of_head?_choices (ascending : o.Ascending s) {port q : Port}
    (first : (choices s o taken).head? = some port) (hq : q ∈ choices s o taken) : port ≤ q := by
  have sorted : (choices s o taken).Pairwise (· ≤ ·) := by
    unfold choices
    split
    · exact (ascending false).filter _
    · exact (ascending true).filter _
  obtain ⟨more, heq⟩ := List.head?_eq_some_iff.1 first
  rw [heq] at sorted hq
  rcases List.mem_cons.1 hq with rfl | hq
  · exact le_refl q
  · exact (List.pairwise_cons.1 sorted).1 q hq

end

/-! ## Dynamic requests -/

section

variable {s : Selector} {excluded taken : List Port} {requests : List HostPort} {o : Offer α}
  {p p' : Pool α} {hosts : List (Option Port)}

theorem candidatePorts_eq (resources : p.map Chunk.resource = o.resources) :
    p.candidatePorts s = o.portsBy s true ++ o.portsBy s false := by
  have same : ∀ reserved, p.portsOf (eligible s .ports reserved) = o.portsBy s reserved := by
    intro reserved
    rw [portsOf_eq, resources, Offer.portsBy, Offer.portResources, List.filter_filter]
    refine congrArg Resource.portsOf (List.filter_congr fun r _ => ?_)
    rw [eligible, Bool.and_comm]
  rw [candidatePorts, same, same]

/-- A search for a free port finds the first choice. -/
theorem find?_isFree (resources : p.map Chunk.resource = o.resources)
    (given : ∀ port, port ∈ p.given ↔ port ∈ taken) :
    (p.candidatePorts s).find? (isFree excluded p) = (choices s o (excluded ++ taken)).head? := by
  rw [head?_choices, candidatePorts_eq resources]
  refine congrArg (fun test => List.find? test _) (funext fun port => ?_)
  rw [Bool.eq_iff_iff, isFree_iff, given]
  simp

/-- Each dynamic request has its first choice of the ports that neither were taken before all requests nor
went to one in front of it. -/
theorem first_bind? (resources : p.map Chunk.resource = o.resources)
    (given : ∀ port, port ∈ p.given ↔ port ∈ taken)
    (fixed : ∀ port ∈ fixedPorts requests, port ∈ taken)
    (h : bind? s excluded requests p = some (hosts, p')) :
    ∀ i, requests[i]? = some .dynamic → ∃ port, hosts[i]? = some (some port) ∧
      (choices s o (excluded ++ (taken ++ (hosts.take i).filterMap id))).head? = some port := by
  induction requests generalizing p taken hosts with
  | nil => simp
  | cons request rest ih =>
    intro i hi
    cases request with
    | fixed port =>
      obtain ⟨⟨more, p''⟩, hrest, heq⟩ := Option.map_eq_some_iff.1 h
      obtain ⟨rfl, rfl⟩ := Prod.mk.inj heq
      obtain _ | i := i
      · cases hi
      · -- The port of this request was taken before.
        have among : ∀ q, q ∈ p.given ↔ q ∈ taken ++ [port] := by
          intro q
          rw [given, List.mem_append, List.mem_singleton]
          refine ⟨.inl, fun either => either.elim id ?_⟩
          rintro rfl
          exact fixed q List.mem_cons_self
        obtain ⟨q, hq, first⟩ := ih resources among
          (fun q hq => List.mem_append_left _ (fixed q (List.mem_cons_of_mem port hq))) hrest i hi
        refine ⟨q, hq, ?_⟩
        rwa [List.append_assoc] at first
    | none =>
      obtain ⟨⟨more, p''⟩, hrest, heq⟩ := Option.map_eq_some_iff.1 h
      obtain ⟨rfl, rfl⟩ := Prod.mk.inj heq
      obtain _ | i := i
      · cases hi
      · exact ih resources given fixed hrest i hi
    | dynamic =>
      obtain ⟨port, found, h⟩ := Option.bind_eq_some_iff.1 h
      obtain ⟨mid, took, h⟩ := Option.bind_eq_some_iff.1 h
      obtain ⟨⟨more, p''⟩, hrest, h⟩ := Option.bind_eq_some_iff.1 h
      obtain ⟨rfl, rfl⟩ := Prod.mk.inj (Option.some.inj h)
      obtain _ | i := i
      · refine ⟨port, rfl, ?_⟩
        rw [find?_isFree resources given] at found
        simpa using found
      · have free : isFree excluded p port = true := List.find?_some found
        simp only [isFree, Bool.and_eq_true, Bool.not_eq_true'] at free
        have gives := gives_takePort? took free.2
        have among : ∀ q, q ∈ mid.given ↔ q ∈ taken ++ [port] := by
          intro q
          rw [gives.given.mem_iff, List.mem_append, List.mem_append, given, or_comm]
        obtain ⟨q, hq, first⟩ := ih (gives.resources.trans resources) among
          (fun q hq => List.mem_append_left _ (fixed q hq)) hrest i hi
        refine ⟨q, hq, ?_⟩
        rwa [List.append_assoc] at first

/-- Going through the dynamic requests in order, each is bound to its first choice of the ports that are
not excluded, not asked for by number and not given to a request in front of it: to one of a reserved
resource as long as there is any. If the offer lists its ports in ascending order, that is the lowest. -/
theorem lowest_assign? (resources : p.map Chunk.resource = o.resources) (untouched : p.given = [])
    (h : assign? s excluded requests p = some (hosts, p')) :
    ∀ i, requests[i]? = some .dynamic → ∃ port, hosts[i]? = some (some port) ∧
      (choices s o (excluded ++ (fixedPorts requests ++ (hosts.take i).filterMap id))).head? =
        some port ∧
      (o.Ascending s → ∀ q ∈ choices s o (excluded ++ (fixedPorts requests ++
        (hosts.take i).filterMap id)), port ≤ q) := by
  obtain ⟨mid, first, others⟩ := Option.bind_eq_some_iff.1 h
  obtain ⟨ports, gives, perm⟩ := gives_takeFixed? first
  have given : ∀ port, port ∈ mid.given ↔ port ∈ fixedPorts requests := by
    intro port
    rw [gives.given.mem_iff, untouched, List.append_nil, perm.mem_iff]
  intro i hi
  obtain ⟨port, hport, chosen⟩ :=
    first_bind? (gives.resources.trans resources) given (fun _ hq => hq) others i hi
  exact ⟨port, hport, chosen, fun ascending q hq => le_of_head?_choices ascending chosen hq⟩

end

end HostPorts

/-! ## Ports out of order -/

namespace Sample

/-- The offer names higher ports before lower ones. -/
def scatteredOffer : Offer Rat :=
  { portOffer with resources := [.ports [⟨31005, 31006⟩, ⟨31000, 31001⟩]] }

/-- A dynamic request is bound to the port that is named first, and a lower one is free. -/
theorem passed_over : ∃ p',
    HostPorts.assign? portSelector [] [.dynamic] (Pool.ofResources scatteredOffer.resources) =
        some ([some 31005], p') ∧
      ∃ q ∈ HostPorts.choices portSelector scatteredOffer [], q < 31005 := by
  have hosts : (HostPorts.assign? portSelector [] [.dynamic]
      (Pool.ofResources scatteredOffer.resources)).map (·.1) = some [some 31005] := by
    decide +kernel
  obtain ⟨⟨bound, p'⟩, assigned, rfl⟩ := Option.map_eq_some_iff.1 hosts
  exact ⟨p', assigned, 31000, by decide +kernel, by decide⟩

end Sample

/-- The second request finds no reserved port left and is bound to the lowest of the others. -/
theorem HostPorts.lowest_assign?_sample : Sample.portOffer.Ascending Sample.portSelector ∧
    ∃ p', HostPorts.assign? Sample.portSelector [] [.dynamic, .dynamic, .none, .fixed 31003]
        (Pool.ofResources Sample.portOffer.resources) =
          some ([some 31002, some 31000, none, some 31003], p') ∧
      HostPorts.choices Sample.portSelector Sample.portOffer [31003, 31002] =
        [31000, 31001, 31001] ∧
      ∀ q ∈ HostPorts.choices Sample.portSelector Sample.portOffer [31003, 31002], 31000 ≤ q := by
  have ascending : Sample.portOffer.Ascending Sample.portSelector := by
    intro reserved
    cases reserved <;> decide +kernel
  have hosts : (HostPorts.assign? Sample.portSelector []
      [.dynamic, .dynamic, .none, .fixed 31003]
      (Pool.ofResources Sample.portOffer.resources)).map (·.1) =
        some [some 31002, some 31000, none, some 31003] := by
    decide +kernel
  obtain ⟨⟨bound, p'⟩, assigned, rfl⟩ := Option.map_eq_some_iff.1 hosts
  obtain ⟨port, hport, -, lowest⟩ := HostPorts.lowest_assign? (Pool.resources_ofResources _)
    (by decide +kernel) assigned 1 rfl
  obtain rfl := Option.some.inj (Option.some.inj hport)
  exact ⟨ascending, p', assigned, by decide +kernel, lowest ascending⟩

end Placement
