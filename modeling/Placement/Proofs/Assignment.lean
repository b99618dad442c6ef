/-
What requests for host ports are bound to.

`HostPorts.Bindable` says which requests can be bound, `HostPorts.Binding` what they are bound to if they
are: each as it asks for, to different ports that are accepted and not excluded, which are then taken from
resources that offer them. `HostPorts.binds_assign?` puts both together: the requests are bound just if
they can be, and soundly. That nothing is taken otherwise is how assignments are made, which give a pool
back only with all ports bound.
-/
import Placement.Proofs.Bindable
import Placement.Proofs.Ports

namespace Placement

variable {α : Type}

/-- The port resources of an offer that a selector accepts. -/
def Offer.portResources (s : Selector) (o : Offer α) : List (Resource α) :=
  o.resources.filter fun r => r.name == .ports && s.accepts r

namespace HostPorts

open Pool Resource

/-! ## Answers to requests -/

/-- What a request may be bound to: a fixed one to its own port, a dynamic one to some port, and a
request for no host port to none. -/
inductive Answers : HostPort → Option Port → Prop where
  | fixed (port : Port) : Answers (.fixed port) (some port)
  | dynamic (port : Port) : Answers .dynamic (some port)
  | none : Answers .none none

theorem answers_bind? {s : Selector} {excluded : List Port} {requests : List HostPort}
    {p p' : Pool α} {hosts : List (Option Port)}
    (h : bind? s excluded requests p = some (hosts, p')) : List.Forall₂ Answers requests hosts := by
  induction requests generalizing p hosts with
  | nil =>
    obtain ⟨rfl, -⟩ := Prod.mk.inj (Option.some.inj h)
    exact .nil
  | cons request rest ih =>
    cases request with
    | fixed port =>
      obtain ⟨⟨more, p''⟩, hrest, heq⟩ := Option.map_eq_some_iff.1 h
      obtain ⟨rfl, rfl⟩ := Prod.mk.inj heq
      exact .cons (.fixed port) (ih hrest)
    | none =>
      obtain ⟨⟨more, p''⟩, hrest, heq⟩ := Option.map_eq_some_iff.1 h
      obtain ⟨rfl, rfl⟩ := Prod.mk.inj heq
      exact .cons .none (ih hrest)
    | dynamic =>
      obtain ⟨port, -, h⟩ := Option.bind_eq_some_iff.1 h
      obtain ⟨mid, -, h⟩ := Option.bind_eq_some_iff.1 h
      obtain ⟨⟨more, p''⟩, hrest, h⟩ := Option.bind_eq_some_iff.1 h
      obtain ⟨rfl, rfl⟩ := Prod.mk.inj (Option.some.inj h)
      exact .cons (.dynamic port) (ih hrest)

/-- Every request is answered, in order. -/
theorem answers_assign? {s : Selector} {excluded : List Port} {requests : List HostPort}
    {p p' : Pool α} {hosts : List (Option Port)}
    (h : assign? s excluded requests p = some (hosts, p')) :
    List.Forall₂ Answers requests hosts := by
  obtain ⟨mid, -, bound⟩ := Option.bind_eq_some_iff.1 h
  exact answers_bind? bound

/-! ## Where bound ports come from -/

section

variable {s : Selector} {excluded : List Port} {requests : List HostPort} {o : Offer α}
  {p p' : Pool α} {hosts : List (Option Port)}

/-- The ports that a chunk has given away are its own, and it is one of those that are accepted. -/
theorem given_assign? (resources : p.map Chunk.resource = o.resources) (untouched : p.given = [])
    (h : assign? s excluded requests p = some (hosts, p')) :
    ∀ c ∈ p', ∀ port ∈ c.takenPorts, c.resource ∈ o.portResources s ∧
      port ∈ PortRange.allPorts c.resource.portRanges := by
  have gives := gives_assign? h
  have none_given : ∀ c ∈ p, c.takenPorts = [] := List.flatMap_eq_nil_iff.1 untouched
  have granted : p'.Granted s := by
    refine preserved_assign? (P := Pool.Granted s) (fun _ _ _ _ taken => granted_takePort? taken) h ?_
    exact fun c hc given => absurd (none_given c hc) given
  have offered : p'.Offered := by
    refine gives.offered fun c hc port hport => ?_
    rw [none_given c hc] at hport
    cases hport
  intro c hc port hport
  obtain ⟨named, accepted⟩ := granted c hc (List.ne_nil_of_mem hport)
  have there : c.resource ∈ o.resources := by
    rw [← resources, ← gives.resources]
    exact List.mem_map_of_mem hc
  refine ⟨List.mem_filter.2 ⟨there, ?_⟩, PortRange.mem_allPorts.2 (offered c hc port hport).2⟩
  rw [named, accepted]
  rfl

/-- Parts with ports, one for each of some of the resources, in their order, and with ports that this
resource offers. -/
def Backed (resources parts : List (Resource α)) : Prop :=
  ∃ rs, rs.Sublist resources ∧ List.Forall₂ (fun r u => u = r.withValue (.ranges u.portRanges) ∧
    ∀ port ∈ PortRange.allPorts u.portRanges, port ∈ PortRange.allPorts r.portRanges) rs parts

theorem backed_consumedPorts (resources : p.map Chunk.resource = o.resources)
    (given : ∀ c ∈ p, ∀ port ∈ c.takenPorts, c.resource ∈ o.portResources s ∧
      port ∈ PortRange.allPorts c.resource.portRanges) :
    Backed (o.portResources s) p.consumedPorts := by
  refine ⟨(p.filter fun c => !c.takenPorts.isEmpty).map Chunk.resource, ?_, ?_⟩
  · -- A chunk that gave ports away is accepted, so that the others may be left out first.
    have accepted : (p.filter fun c => !c.takenPorts.isEmpty) =
        (p.filter fun c => c.resource.name == .ports && s.accepts c.resource).filter
          fun c => !c.takenPorts.isEmpty := by
      rw [List.filter_filter]
      refine List.filter_congr fun c hc => ?_
      rw [Bool.eq_iff_iff, Bool.and_eq_true]
      refine ⟨fun some_given => ⟨some_given, ?_⟩, And.left⟩
      obtain ⟨port, hport⟩ := List.exists_mem_of_ne_nil c.takenPorts (by simpa using some_given)
      exact (List.mem_filter.1 (given c hc port hport).1).2
    rw [accepted, Offer.portResources, ← resources, List.filter_map]
    exact List.filter_sublist.map _
  · rw [consumedPorts, List.forall₂_map_left_iff, List.forall₂_map_right_iff, List.forall₂_same]
    intro c hc
    refine ⟨rfl, fun port hport => ?_⟩
    rw [portRanges_withRanges, PortRange.mem_allPorts_ofPorts] at hport
    exact (given c (List.mem_filter.1 hc).1 port hport).2

end

/-! ## Sound and complete -/

/-- How requests are bound to ports of an offer: to `hosts`, which are taken as `parts`. -/
structure Binding (s : Selector) (excluded : List Port) (o : Offer α) (requests : List HostPort)
    (hosts : List (Option Port)) (parts : List (Resource α)) : Prop where
  answers : List.Forall₂ Answers requests hosts
  distinct : (hosts.filterMap id).Nodup
  accepted : ∀ port ∈ hosts.filterMap id, port ∈ portsOf (o.portResources s) ∧ port ∉ excluded
  /-- The parts hold the bound ports, each once. -/
  covered : (portsOf parts).Perm (hosts.filterMap id)
  backed : Backed (o.portResources s) parts

/-- The pool that there is after requests have been tried. An assignment that fails carries none, so by
construction it is then the one before, whatever ports were picked until the failure. -/
def poolAfter (s : Selector) (excluded : List Port) (requests : List HostPort) (p : Pool α) :
    Pool α :=
  (assign? s excluded requests p).elim p (·.2)

/-- Whatever the selector accepts, and in whatever order and however often the offer lists a port: from a
pool that has given no port away, requests are bound just if they can be, and bound soundly. So where they
cannot be bound the assignment fails, and `poolAfter` is the pool before by construction. -/
theorem binds_assign? {s : Selector} {o : Offer α} {p : Pool α}
    (resources : p.map Chunk.resource = o.resources) (untouched : p.given = [])
    (excluded : List Port) (requests : List HostPort) :
    ((assign? s excluded requests p).isSome = true ↔
      Bindable excluded (portsOf (o.portResources s)) requests) ∧
    (∀ hosts p', assign? s excluded requests p = some (hosts, p') →
      Binding s excluded o requests hosts p'.consumedPorts) ∧
    (¬Bindable excluded (portsOf (o.portResources s)) requests →
      poolAfter s excluded requests p = p) := by
  have bindable : (assign? s excluded requests p).isSome = true ↔ _ :=
    isSome_assign?_iff resources untouched
  refine ⟨bindable, ?_, ?_⟩
  · intro hosts p' h
    have gives := gives_assign? h
    have given := given_assign? resources untouched h
    have perm := gives.given
    rw [untouched, List.append_nil] at perm
    obtain ⟨distinct, allowed⟩ := bound_assign? untouched h
    refine ⟨answers_assign? h, distinct, ?_, ?_, ?_⟩
    · intro port hport
      obtain ⟨c, hc, taken⟩ := List.mem_flatMap.1 (perm.mem_iff.2 hport)
      obtain ⟨accepted, held⟩ := given c hc port taken
      exact ⟨mem_portsOf.2 ⟨c.resource, accepted, held⟩, allowed port hport⟩
    · exact (portsOf_consumedPorts (perm.nodup_iff.2 distinct)).trans perm
    · exact backed_consumedPorts (gives.resources.trans resources) given
  · intro impossible
    have refused : assign? s excluded requests p = none := by
      rw [← Option.not_isSome_iff_eq_none, bindable]
      exact impossible
    rw [poolAfter, refused]
    rfl

end HostPorts

/-! ## Ports that are offered twice -/

namespace Sample

/-- Two of the ports are offered twice, one of them under a reservation too. -/
def portOffer : Offer Rat where
  id := ⟨.ofNat 4⟩
  agentId := ⟨.ofNat 2⟩
  hostname := "host"
  attributes := ∅
  resources := [.ports [⟨31000, 31001⟩, ⟨31001, 31002⟩],
    (Resource.ports [⟨31002, 31003⟩]).withReservation ⟨none, ∅⟩]

/-- Reserved resources are used first, whatever their labels. -/
def portSelector : Selector := ⟨Roles.ofList ["*"], .preferReserved ∅⟩

end Sample

/-- The fixed port comes last and is not given to the dynamic requests before it; a further request is too
many. -/
theorem HostPorts.binds_assign?_sample :
    ∃ p', HostPorts.assign? Sample.portSelector [31001] [.dynamic, .dynamic, .none, .fixed 31003]
        (Pool.ofResources Sample.portOffer.resources) =
          some ([some 31002, some 31000, none, some 31003], p') ∧
      HostPorts.Binding Sample.portSelector [31001] Sample.portOffer
        [.dynamic, .dynamic, .none, .fixed 31003] [some 31002, some 31000, none, some 31003]
        p'.consumedPorts ∧
      HostPorts.poolAfter Sample.portSelector [31001]
        [.dynamic, .dynamic, .dynamic, .fixed 31003]
        (Pool.ofResources Sample.portOffer.resources) =
          Pool.ofResources Sample.portOffer.resources := by
  have resources := Pool.resources_ofResources Sample.portOffer.resources
  have untouched : (Pool.ofResources Sample.portOffer.resources).given = [] := by decide +kernel
  obtain ⟨-, sound, -⟩ := HostPorts.binds_assign? resources untouched [31001]
    [.dynamic, .dynamic, .none, .fixed 31003]
  obtain ⟨-, -, unchanged⟩ := HostPorts.binds_assign? resources untouched [31001]
    [.dynamic, .dynamic, .dynamic, .fixed 31003]
  have hosts : (HostPorts.assign? Sample.portSelector [31001]
      [.dynamic, .dynamic, .none, .fixed 31003]
      (Pool.ofResources Sample.portOffer.resources)).map (·.1) =
        some [some 31002, some 31000, none, some 31003] := by
    decide +kernel
  obtain ⟨⟨bound, p'⟩, assigned, rfl⟩ := Option.map_eq_some_iff.1 hosts
  exact ⟨p', assigned, sound _ _ assigned, unchanged (by decide +kernel)⟩

end Placement
