/-
What a match uses can be had from its offer.

* `Offer.Affords` says of a list of parts what an offer can give: amounts of each kind up to the
  tolerance for each part, disks with volumes whole and once, ports once and out of the offer.
* `Matching.made_match?` tells apart where the parts of a match come from, and
  `Matching.affords_match?` draws from it that the offer affords them.
-/
import Placement.Proofs.HostPorts
import Placement.Proofs.Pool
import Placement.Matching

namespace Placement

open Resource

/-! ## What an offer can give -/

/-- The parts can be taken of the offer together. -/
structure Offer.Affords (o : Offer Rat) (used : List (Resource Rat)) : Prop where
  total : ∀ k, kindTotal k used ≤
    kindTotal k o.resources + kindCount k used * Amount.tolerance
  /-- A disk with a volume is used as it was offered. -/
  whole : ∀ u ∈ used, u.Bare ∨ u ∈ o.resources ∧ 0 < u.amount
  volumes : (volumesOf used).Nodup
  ports : (portsOf used).Nodup
  offered : ∀ u ∈ used, ∀ port ∈ PortRange.allPorts u.portRanges, ∃ r ∈ o.resources,
    r.name = .ports ∧ u.sameKind r = true ∧ port ∈ PortRange.allPorts r.portRanges

namespace Matching

/-! ## Where the parts come from -/

/-- The parts of a match: disks of existing volumes, scalars, disks for new volumes, and ports. -/
structure Made (o : Offer Rat) (m : ResourceMatch Rat)
    (existing scalars created ports : List (Resource Rat)) : Prop where
  resources : m.resources = existing ++ scalars ++ created ++ ports
  total : ∀ k, kindTotal k existing + kindTotal k scalars + kindTotal k created ≤
    kindTotal k o.resources + kindCount k created * Amount.tolerance
  whole : ∀ r ∈ existing, 0 < r.amount ∧ r ∈ o.resources
  volumes : (volumesOf existing).Nodup
  scalar : ∀ f ∈ scalars, 0 < f.amount ∧ f.Bare
  carved : ∀ f ∈ created, f.Bare ∧ f.portRanges = []
  valueless : ∀ u ∈ ports, u.amount = 0 ∧ u.Bare
  bound : (portsOf ports).Perm m.assignedPorts
  distinct : (portsOf ports).Nodup
  offered : ∀ u ∈ ports, ∀ port ∈ PortRange.allPorts u.portRanges, ∃ r ∈ o.resources,
    r.name = .ports ∧ u.sameKind r = true ∧ port ∈ PortRange.allPorts r.portRanges

section

variable {o : Offer Rat} {m : ResourceMatch Rat} {existing scalars created ports : List (Resource Rat)}

theorem Made.kindTotal_ports (made : Made o m existing scalars created ports) (k : Resource Rat) :
    kindTotal k ports = 0 := kindTotal_eq_zero (fun u hu => (made.valueless u hu).1) k

theorem Made.portsOf_resources (made : Made o m existing scalars created ports) :
    portsOf m.resources = portsOf ports := by
  have none_existing : portsOf existing = [] :=
    portsOf_eq_nil fun r hr => portRanges_of_amount (made.whole r hr).1
  have none_scalar : portsOf scalars = [] :=
    portsOf_eq_nil fun r hr => portRanges_of_amount (made.scalar r hr).1
  have none_created : portsOf created = [] := portsOf_eq_nil fun r hr => (made.carved r hr).2
  simp [made.resources, portsOf_append, none_existing, none_scalar, none_created]

theorem Made.volumesOf_resources (made : Made o m existing scalars created ports) :
    volumesOf m.resources = volumesOf existing := by
  have none_scalar : volumesOf scalars = [] := volumesOf_eq_nil fun r hr => (made.scalar r hr).2
  have none_created : volumesOf created = [] := volumesOf_eq_nil fun r hr => (made.carved r hr).1
  have none_ports : volumesOf ports = [] := volumesOf_eq_nil fun r hr => (made.valueless r hr).2
  simp [made.resources, volumesOf_append, none_scalar, none_created, none_ports]

theorem Made.kindTotal_resources (made : Made o m existing scalars created ports)
    (k : Resource Rat) : kindTotal k m.resources ≤
      kindTotal k o.resources + kindCount k created * Amount.tolerance := by
  have total := made.total k
  have valueless := made.kindTotal_ports k
  simp only [made.resources, kindTotal_append, valueless]
  linarith

/-- A part is a disk for a new volume or not, and comes with what is known of it. -/
theorem Made.cases (made : Made o m existing scalars created ports) {u : Resource Rat}
    (hu : u ∈ m.resources) :
    (u ∈ existing ∨ u ∈ scalars) ∨ u ∈ created ∨ u ∈ ports := by
  rw [made.resources, List.mem_append, List.mem_append, List.mem_append] at hu
  rcases hu with (hu | hu) | hu
  · exact .inl hu
  · exact .inr (.inl hu)
  · exact .inr (.inr hu)

/-- Without volumes, parts have amounts of zero at least, and none is a disk with a volume. -/
theorem Made.plain (made : Made o m [] scalars [] ports) {u : Resource Rat}
    (hu : u ∈ m.resources) : 0 ≤ u.amount ∧ u.Bare := by
  rcases made.cases hu with (hu | hu) | hu | hu
  · simp at hu
  · obtain ⟨pos, bare⟩ := made.scalar u hu
    exact ⟨le_of_lt pos, bare⟩
  · simp at hu
  · obtain ⟨zero, bare⟩ := made.valueless u hu
    exact ⟨le_of_eq zero.symm, bare⟩

theorem Made.affords (made : Made o m existing scalars created ports) : o.Affords m.resources := by
  have tol := Amount.tolerance_pos
  refine ⟨?_, ?_, ?_, ?_, ?_⟩
  · intro k
    have count : (kindCount k created : Rat) ≤ kindCount k m.resources := by
      rw [made.resources, kindCount_append, kindCount_append]
      exact Nat.cast_le.2 (by omega)
    have := made.kindTotal_resources k
    nlinarith
  · intro u hu
    rcases made.cases hu with (hu | hu) | hu | hu
    · exact .inr (made.whole u hu).symm
    · exact .inl (made.scalar u hu).2
    · exact .inl (made.carved u hu).1
    · exact .inl (made.valueless u hu).2
  · rw [made.volumesOf_resources]
    exact made.volumes
  · rw [made.portsOf_resources]
    exact made.distinct
  · intro u hu port hport
    rcases made.cases hu with (hu | hu) | hu | hu
    · exact absurd hport (not_mem_allPorts (portRanges_of_amount (made.whole u hu).1) port)
    · exact absurd hport (not_mem_allPorts (portRanges_of_amount (made.scalar u hu).1) port)
    · exact absurd hport (not_mem_allPorts (made.carved u hu).2 port)
    · exact made.offered u hu port hport

end

/-! ## Steps of a match -/

section

variable {α : Type} [Amount α] {gpus : GpuPolicy} {o : Offer α} {runSpec : RunSpec α}
  {known : List Instance} {s : Selector} {request : VolumeRequest α} {m : ResourceMatch α}

/-- The steps of a match that succeeds. -/
theorem match?_eq_ok (h : match? gpus o runSpec known s request = .ok m) :
    ∃ volumes scalars pool,
      volumes = takeVolumes s (Pool.ofResources o.resources) request ∧
      scalars = takeScalars s runSpec.totalResources volumes.reasons scalarNames volumes.pool ∧
      HostPorts.assign? s (HostPorts.inUse o.agentId known) runSpec.portRequests scalars.2.2 =
        some (m.hostPorts, pool) ∧
      m.resources = volumes.existing ++ scalars.1 ++ volumes.created.map (·.2) ++
        pool.consumedPorts ∧ m.newVolumes = volumes.created ∧ scalars.2.1 = [] := by
  unfold match? at h
  simp only at h
  split at h
  · cases h
  · split at h
    · cases h
    · split at h
      · cases h
      · next hosts pool assigned =>
        split at h
        · next met =>
          obtain rfl := Except.ok.inj h
          exact ⟨_, _, pool, rfl, rfl, assigned, rfl, rfl, List.isEmpty_iff.1 met⟩
        · cases h

/-- A match succeeds if each of its steps does. -/
theorem match?_eq_ok_of_steps {existing parts : List (Resource α)} {p p' pool : Pool α}
    {hosts : List (Option Port)} (open_ : declinesForGpus gpus o runSpec = false)
    (accepted : o.resources.any s.accepts = true)
    (volumes : takeVolumes s (Pool.ofResources o.resources) request = ⟨existing, [], [], p⟩)
    (scalars : takeScalars s runSpec.totalResources [] scalarNames p = (parts, [], p'))
    (ports : HostPorts.assign? s (HostPorts.inUse o.agentId known) runSpec.portRequests p' =
      some (hosts, pool)) :
    match? gpus o runSpec known s request =
      .ok ⟨existing ++ parts ++ pool.consumedPorts, hosts, []⟩ := by
  simp [match?, open_, accepted, volumes, scalars, ports]

end

/-! ## Matches -/

/-- What taking the volumes of a request gives. -/
structure Taken (o : Offer Rat) (request : VolumeRequest Rat) (taken : VolumesTaken Rat) : Prop where
  pays : Pool.Pays (Pool.ofResources o.resources) (taken.existing ++ taken.created.map (·.2))
    (taken.created.map (·.2)) taken.pool
  whole : ∀ r ∈ taken.existing, 0 < r.amount ∧ r ∈ o.resources
  volumes : (volumesOf taken.existing).Nodup
  carved : ∀ f ∈ taken.created.map (·.2), f.Bare ∧ f.portRanges = []
  none_asked : request = .none → taken.existing = [] ∧ taken.created = []

theorem taken_takeVolumes (s : Selector) (o : Offer Rat) {request : VolumeRequest Rat}
    (distinct : ∀ ids, request = .existing ids → ids.Nodup) :
    Taken o request (takeVolumes s (Pool.ofResources o.resources) request) := by
  have no_part : ∀ {P : Resource Rat → Prop}, ∀ r ∈ ([] : List (Resource Rat)), P r := by
    simp
  unfold takeVolumes
  split
  · exact ⟨.refl _, no_part, List.nodup_nil, no_part, fun _ => ⟨rfl, rfl⟩⟩
  · next volumes =>
    obtain ⟨pays, carved⟩ := Pool.pays_takeVolumes s volumes (Pool.ofResources o.resources)
    refine ⟨pays, no_part, List.nodup_nil, ?_, nofun⟩
    intro f hf
    obtain ⟨no_volume, no_ports⟩ := carved f hf
    exact ⟨fun _ => no_volume, no_ports⟩
  · next ids =>
    split
    · next rs p found =>
      have fresh : ∀ c ∈ Pool.ofResources o.resources, c.resource.amount = c.remaining := by
        intro c hc
        obtain ⟨r, -, rfl⟩ := List.mem_map.1 hc
        rfl
      obtain ⟨pays, volumes, whole⟩ := Pool.pays_takeExisting? (distinct ids rfl) fresh found
      refine ⟨?_, ?_, volumes, no_part, nofun⟩
      · simpa using pays
      · intro r hr
        obtain ⟨held, c, hc, rfl⟩ := whole r hr
        obtain ⟨r', hr', rfl⟩ := List.mem_map.1 hc
        exact ⟨lt_trans Amount.tolerance_pos held, hr'⟩
    · exact ⟨.refl _, no_part, List.nodup_nil, no_part, nofun⟩

/-- The resources of ports that are bound, in a pool of an offer that had given none away. -/
theorem ports_of_gives {o : Offer Rat} {p pool : Pool Rat} {ports : List Port}
    (frame : p.frame = (Pool.ofResources o.resources).frame) (gives : Pool.Gives p ports pool) :
    (portsOf pool.consumedPorts).Perm ports ∧ (portsOf pool.consumedPorts).Nodup ∧
      ∀ u ∈ pool.consumedPorts, (u.amount = 0 ∧ u.Bare) ∧
        ∀ port ∈ PortRange.allPorts u.portRanges, ∃ r ∈ o.resources,
          r.name = .ports ∧ u.sameKind r = true ∧ port ∈ PortRange.allPorts r.portRanges := by
  have fresh := Pool.takenPorts_of_frame frame
  have same_resources : pool.map Chunk.resource = o.resources := by
    rw [gives.resources, Pool.resources_of_frame frame, Pool.resources_ofResources]
  have none_given : p.given = [] := List.flatMap_eq_nil_iff.2 fresh
  have offered : pool.Offered := by
    refine gives.offered ?_
    intro c hc port hport
    rw [fresh c hc] at hport
    cases hport
  have distinct : pool.given.Nodup := gives.distinct (none_given ▸ List.nodup_nil)
  have given := gives.given
  rw [none_given, List.append_nil] at given
  have perm := Pool.portsOf_consumedPorts distinct
  refine ⟨perm.trans given, perm.nodup_iff.2 distinct, ?_⟩
  intro u hu
  refine ⟨Pool.plain_consumedPorts offered hu, ?_⟩
  intro port hport
  rw [← same_resources]
  exact Pool.offered_consumedPorts offered hu hport

section

variable {gpus : GpuPolicy} {o : Offer Rat} {runSpec : RunSpec Rat} {known : List Instance}
  {s : Selector} {request : VolumeRequest Rat} {m : ResourceMatch Rat}

/-- Where the parts of a match come from. Without volumes asked for, none are there. -/
theorem made_match? (nonneg : ∀ r ∈ o.resources, 0 ≤ r.amount)
    (distinct : ∀ ids, request = .existing ids → ids.Nodup)
    (h : match? gpus o runSpec known s request = .ok m) :
    ∃ existing scalars created ports, Made o m existing scalars created ports ∧
      (request = .none → existing = [] ∧ created = []) := by
  obtain ⟨volumes, scalars, pool, hvolumes, hscalars, assigned, resources, -, -⟩ := match?_eq_ok h
  have taken : Taken o request volumes := hvolumes ▸ taken_takeVolumes s o distinct
  obtain ⟨pays, parts⟩ := pays_takeScalars s runSpec.totalResources scalarNames volumes.reasons
    volumes.pool
  rw [← hscalars] at pays parts
  have all := taken.pays.append pays
  obtain ⟨bound, different, ports⟩ := ports_of_gives all.frame (HostPorts.gives_assign? assigned)
  refine ⟨volumes.existing, scalars.1, volumes.created.map (·.2), pool.consumedPorts,
    ⟨resources, ?_, taken.whole, taken.volumes, ?_, taken.carved, ?_, bound, different, ?_⟩, ?_⟩
  · intro k
    have total := all.total k
    have left := Pool.headroom_nonneg k scalars.2.2
    simp only [Pool.headroom_ofResources nonneg, kindTotal_append, List.append_nil] at total
    linarith
  · intro f hf
    exact ⟨(parts f hf).1, parts.bare f hf⟩
  · intro u hu
    exact (ports u hu).1
  · intro u hu port hport
    exact (ports u hu).2 port hport
  · intro hnone
    obtain ⟨no_existing, no_created⟩ := taken.none_asked hnone
    exact ⟨no_existing, by rw [no_created]; rfl⟩

/-- An offer affords what a match uses of it, as long as existing volumes are asked for once. -/
theorem affords_match? (nonneg : ∀ r ∈ o.resources, 0 ≤ r.amount)
    (distinct : ∀ ids, request = .existing ids → ids.Nodup)
    (h : match? gpus o runSpec known s request = .ok m) : o.Affords m.resources := by
  obtain ⟨existing, scalars, created, ports, made, -⟩ := made_match? nonneg distinct h
  exact made.affords

end

end Matching

end Placement
