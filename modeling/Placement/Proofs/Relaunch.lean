/-
A task that holds a reservation can be launched on it.

`Offer.Returns` says of a later offer that it has a reservation again, and `Task.WaitsAlone` that a
task still waits on it. `Decision.relaunches_evaluate` is the main result: from then on an offer that
has the reservation is answered with the launch of the task, which uses all its volumes and takes
amounts and ports from fragments of the reservation only. It puts together what the reservation was
founded on (`Decision.founded_evaluate`), scalars that are taken from reserved chunks alone
(`Matching.takeScalars_of_stock`) and ports that are bound again (`HostPorts.assign?_of_holds`).
-/
import Placement.Proofs.Reservation
import Placement.Proofs.Lifecycle

namespace Placement

open Resource

namespace Pool

/-! ## Volumes that are on an offer -/

theorem exists_mapM {β γ : Type} {f : β → Option γ} {l : List β} (h : ∀ b ∈ l, ∃ c, f b = some c) :
    ∃ cs, l.mapM f = some cs := by
  induction l with
  | nil => exact ⟨[], rfl⟩
  | cons b rest ih =>
    obtain ⟨c, hc⟩ := h b List.mem_cons_self
    obtain ⟨cs, hcs⟩ := ih fun b' hb' => h b' (List.mem_cons_of_mem b hb')
    exact ⟨c :: cs, by rw [List.mapM_cons, hc, hcs]; rfl⟩

/-- Volumes that are all found on disks are taken, and are those of the disks. -/
theorem takeExisting?_of_found {ids : List VolumeId} {p : Pool Rat}
    (found : ∀ v ∈ ids, ∃ r, p.resourceOfVolume? v = some r ∧ r.name = .disk) :
    p.takeExisting? ids = some (ids.filterMap p.resourceOfVolume?, emptyVolumes ids p) ∧
      volumesOf (ids.filterMap p.resourceOfVolume?) = ids := by
  constructor
  · obtain ⟨rs, hrs⟩ := exists_mapM fun v hv => (found v hv).imp fun _ h => h.1
    rw [takeExisting?, hrs, filterMap_of_mapM hrs]
    rfl
  · induction ids with
    | nil => rfl
    | cons v rest ih =>
      obtain ⟨r, hr, hname⟩ := found v List.mem_cons_self
      obtain ⟨carries, -⟩ := resourceOfVolume?_eq_some hr
      have here : r.persistence.map (·.volumeId) = some v := by
        unfold carriesVolume at carries
        split at carries
        · next q hq => rw [hq, Option.map_some, beq_iff_eq.1 carries]
        · cases carries
      have others := ih fun w hw => found w (List.mem_cons_of_mem v hw)
      unfold volumesOf at others ⊢
      rw [List.filterMap_cons, hr, List.filter_cons_of_pos (by simp [hname]), List.filterMap_cons,
        here, others]

/-- A resource that carries the volume is found if one has something of it. -/
theorem exists_resourceOfVolume? {rs : List (Resource Rat)} {v : VolumeId} {d : Resource Rat}
    (hd : d ∈ rs) (carries : d.carriesVolume v = true) (held : Amount.tolerance < d.amount) :
    ∃ r ∈ rs, (ofResources rs).resourceOfVolume? v = some r ∧ r.carriesVolume v = true := by
  have some_holds : ((ofResources rs).find? (holdsVolume v)).isSome = true := by
    rw [List.find?_isSome]
    refine ⟨⟨d, d.amount, []⟩, List.mem_map_of_mem hd, ?_⟩
    simp [holdsVolume, held, carries]
  obtain ⟨c, hc⟩ := Option.isSome_iff_exists.1 some_holds
  have found : (ofResources rs).resourceOfVolume? v = some c.resource := by
    rw [resourceOfVolume?, hc]
    rfl
  obtain ⟨r, hr, rfl⟩ := List.mem_map.1 (List.mem_of_find?_eq_some hc)
  exact ⟨r, hr, found, (resourceOfVolume?_eq_some found).1⟩

/-- Chunks that hold none of the volumes are left alone. -/
theorem filter_emptyVolumes {test : Resource Rat → Bool} {ids : List VolumeId} {p : Pool Rat}
    (apart : ∀ c ∈ p, ∀ v ∈ ids, c.resource.carriesVolume v = true → test c.resource = false) :
    ((emptyVolumes ids p).filter fun c => test c.resource) =
      p.filter fun c => test c.resource := by
  induction p generalizing ids with
  | nil => rfl
  | cons c rest ih =>
    unfold emptyVolumes
    split
    · next id found =>
      have holds : holdsVolume id c = true := List.find?_some (p := (holdsVolume · c)) found
      have passes := apart c List.mem_cons_self id (List.mem_of_find?_eq_some found)
        (Bool.and_eq_true_iff.1 holds).2
      have apart' : ∀ c' ∈ rest, ∀ v ∈ ids.filter (· ≠ id), c'.resource.carriesVolume v = true →
          test c'.resource = false :=
        fun c' hc' v hv => apart c' (List.mem_cons_of_mem c hc') v (List.mem_filter.1 hv).1
      rw [List.filter_cons_of_neg (by simp [passes]), List.filter_cons_of_neg (by simp [passes]),
        ih apart']
    · have apart' : ∀ c' ∈ rest, ∀ v ∈ ids, c'.resource.carriesVolume v = true →
          test c'.resource = false := fun c' hc' => apart c' (List.mem_cons_of_mem c hc')
      rw [List.filter_cons, ih apart', List.filter_cons]

end Pool

/-! ## Offers that have a reservation again -/

/-- A resource that nobody holds, without volumes and GPUs. -/
structure Resource.Free (r : Resource Rat) : Prop where
  unreserved : r.isReserved = false
  nonneg : 0 ≤ r.amount
  bare : r.persistence = none
  gpus : r.name = .gpus → r.amount = 0

/-- The offer of an agent has a reservation again: in any order the fragments `rest` that back none of
the volumes `ids`, the disks `create` of these volumes, and free resources. -/
structure Offer.Returns (o : Offer Rat) (agentId : AgentId) (ids : List VolumeId)
    (reserve create rest : List (Resource Rat)) : Prop where
  agent : o.agentId = agentId
  backing : ∃ backing, reserve.Perm (rest ++ backing) ∧ List.Forall₂ BecomesVolume backing create
  unbacked : ∀ r ∈ rest, ∀ v ∈ ids, r.carriesVolume v = false
  resources : ∃ more, o.resources.Perm (rest ++ create ++ more) ∧ ∀ r ∈ more, r.Free

namespace Offer.Returns

variable {o : Offer Rat} {agentId : AgentId} {ids : List VolumeId}
  {reserve create rest : List (Resource Rat)}

theorem mem (h : o.Returns agentId ids reserve create rest) {r : Resource Rat} :
    (r ∈ rest ∨ r ∈ create → r ∈ o.resources) ∧
      (r ∈ o.resources → (r ∈ rest ∨ r ∈ create) ∨ r.Free) := by
  obtain ⟨more, perm, free⟩ := h.resources
  rw [perm.mem_iff, List.mem_append, List.mem_append]
  exact ⟨.inl, Or.imp_right (free r)⟩

/-- Nothing but the disks carries one of the volumes. -/
theorem mem_create (h : o.Returns agentId ids reserve create rest) {r : Resource Rat}
    (hr : r ∈ o.resources) {v : VolumeId} (hv : v ∈ ids) (carries : r.carriesVolume v = true) :
    r ∈ create := by
  rcases h.mem.2 hr with (hr | hr) | free
  · cases carries.symm.trans (h.unbacked r hr v hv)
  · exact hr
  · rw [carriesVolume, free.bare] at carries
    cases carries

end Offer.Returns

namespace Decision

variable {policy : LaunchPolicy} {runSpec : RunSpec Rat} {o o' : Offer Rat} {t : Task}
  {reserve create rest : List (Resource Rat)}

/-! ## What a task's own selector takes of it -/

theorem Held.accepts {r : Resource Rat} {id : TaskId} (h : Held policy id r)
    (runSpec : RunSpec Rat) : (ownSelector policy runSpec id).accepts r = true := by
  obtain ⟨role, reservation⟩ := h
  have listed : ((runSpec.roles policy.defaultRole).insert policy.reservationRole ()).contains
      r.role = true := by
    rw [role, OrderedMap.contains, OrderedMap.find?_insert, if_pos rfl]
    rfl
  have labels : (reservationLabels policy id).includes (reservationLabels policy id) = true := by
    rw [Labels.includes, List.all_eq_true]
    intro e he
    rw [beq_iff_eq, OrderedMap.find?_eq_some_iff]
    exact he
  simp [Selector.accepts, ownSelector, listed, Selector.labelled, Resource.reservationLabels,
    reservation, ownInfo, labels]

theorem Held.isReserved {r : Resource Rat} {id : TaskId} (h : Held policy id r) :
    r.isReserved = true := by
  rw [Resource.isReserved, h.2]
  rfl

namespace Founded

/-- The disks of volumes are held as the fragments are that they were. -/
theorem held_create (h : Founded policy runSpec o t reserve create) {d : Resource Rat}
    (hd : d ∈ create) : Held policy t.id d := by
  obtain ⟨plain, backing, perm, becomes, -⟩ := h.supplied
  obtain ⟨f, hf, p, rfl⟩ := exists_of_forall₂ becomes hd
  exact h.held f (perm.mem_iff.2 (List.mem_append_right plain hf))

theorem held_returned (h : Founded policy runSpec o t reserve create)
    (returns : o'.Returns o.agentId t.volumeIds reserve create rest) {r : Resource Rat}
    (hr : r ∈ rest ∨ r ∈ create) : Held policy t.id r := by
  obtain ⟨backing, perm, -⟩ := returns.backing
  rcases hr with hr | hr
  · exact h.held r (perm.mem_iff.2 (List.mem_append_left backing hr))
  · exact h.held_create hr

/-! ## Volumes -/

/-- Each disk carries a volume of the task. -/
theorem carries_create (h : Founded policy runSpec o t reserve create) {d : Resource Rat}
    (hd : d ∈ create) : ∃ v ∈ t.volumeIds, d.carriesVolume v = true := by
  have listed : d.persistence.map (·.volumeId) ∈ t.volumeIds.map some :=
    h.volumes ▸ List.mem_map_of_mem hd
  obtain ⟨v, hv, same⟩ := List.mem_map.1 listed
  obtain ⟨q, hq, rfl⟩ := Option.map_eq_some_iff.1 same.symm
  exact ⟨q.volumeId, hv, by simp [carriesVolume, hq]⟩

/-- Each volume of the task is on one of the disks. -/
theorem exists_create (h : Founded policy runSpec o t reserve create) {v : VolumeId}
    (hv : v ∈ t.volumeIds) : ∃ d ∈ create, d.carriesVolume v = true := by
  have listed : some v ∈ create.map fun d => d.persistence.map (·.volumeId) :=
    h.volumes ▸ List.mem_map_of_mem hv
  obtain ⟨d, hd, same⟩ := List.mem_map.1 listed
  obtain ⟨q, hq, rfl⟩ := Option.map_eq_some_iff.1 same
  exact ⟨d, hd, by simp [carriesVolume, hq]⟩

/-- No plain amounts are taken of the disks. -/
theorem usable_create (h : Founded policy runSpec o t reserve create) {d : Resource Rat}
    (hd : d ∈ create) (s : Selector) (name : ResourceName) (reserved : Bool) :
    Pool.usable s name reserved d = false := by
  rw [Bool.eq_false_iff]
  intro usable
  obtain ⟨v, -, carries⟩ := h.carries_create hd
  obtain ⟨-, plain⟩ := Bool.and_eq_true_iff.1 (Pool.usable_iff.1 usable).1
  rw [carriesVolume, Pool.bare_of_servesScalar plain (h.created d hd).1] at carries
  cases carries

/-- All volumes of the task are taken from the offer again. -/
theorem takeExisting?_returned (h : Founded policy runSpec o t reserve create)
    (returns : o'.Returns o.agentId t.volumeIds reserve create rest) :
    ∃ disks, (Pool.ofResources o'.resources).takeExisting? t.volumeIds =
        some (disks, Pool.emptyVolumes t.volumeIds (Pool.ofResources o'.resources)) ∧
      volumesOf disks = t.volumeIds ∧ ∀ d ∈ disks, d ∈ create := by
  have found : ∀ v ∈ t.volumeIds, ∃ r ∈ create,
      (Pool.ofResources o'.resources).resourceOfVolume? v = some r := by
    intro v hv
    obtain ⟨d, hd, carries⟩ := h.exists_create hv
    obtain ⟨r, hr, found, carries⟩ := Pool.exists_resourceOfVolume?
      (returns.mem.1 (.inr hd)) carries (h.created d hd).2.1
    exact ⟨r, returns.mem_create hr hv carries, found⟩
  obtain ⟨taken, volumes⟩ := Pool.takeExisting?_of_found fun v hv =>
    (found v hv).imp fun r hr => ⟨hr.2, (h.created r hr.1).1⟩
  refine ⟨_, taken, volumes, ?_⟩
  intro d hd
  obtain ⟨v, hv, hfound⟩ := List.mem_filterMap.1 hd
  obtain ⟨r, hr, hfound'⟩ := found v hv
  obtain rfl := Option.some.inj (hfound.symm.trans hfound')
  exact hr

/-! ## Scalars -/

/-- Whichever fragments are said to back the volumes, the others supply all requirements. -/
theorem supply_rest (h : Founded policy runSpec o t reserve create)
    (returns : o'.Returns o.agentId t.volumeIds reserve create rest) {name : ResourceName}
    (hname : name ∈ Matching.scalarNames)
    (large : Amount.tolerance < runSpec.totalResources.of name) :
    runSpec.totalResources.of name ≤ amountOf (serves name) rest + Amount.tolerance := by
  obtain ⟨plain, backing, perm, becomes, supplied⟩ := h.supplied
  obtain ⟨backing', perm', becomes'⟩ := returns.backing
  have bare : ∀ f ∈ backing, f.Bare :=
    fun f hf => h.bare f (perm.mem_iff.2 (List.mem_append_right plain hf))
  have bare' : ∀ f ∈ backing', f.Bare :=
    fun f hf => h.bare f (perm'.mem_iff.2 (List.mem_append_right rest hf))
  have backs := amountOf_becomesVolume becomes becomes' bare bare' name
  have total : amountOf (serves name) plain + amountOf (serves name) backing =
      amountOf (serves name) rest + amountOf (serves name) backing' := by
    rw [← amountOf_append, ← amountOf_append, ← amountOf_perm perm, amountOf_perm perm']
  linarith [supplied name hname large]

/-- Taking the volumes leaves all plain amounts in stock. -/
theorem stock_emptyVolumes (h : Founded policy runSpec o t reserve create)
    (returns : o'.Returns o.agentId t.volumeIds reserve create rest)
    (s : Selector) (name : ResourceName) (reserved : Bool) :
    Pool.stock (Pool.usable s name reserved)
        (Pool.emptyVolumes t.volumeIds (Pool.ofResources o'.resources)) =
      amountOf (Pool.usable s name reserved) o'.resources := by
  have apart : ∀ c ∈ Pool.ofResources o'.resources, ∀ v ∈ t.volumeIds,
      c.resource.carriesVolume v = true → Pool.usable s name reserved c.resource = false := by
    intro c hc v hv carries
    obtain ⟨r, hr, rfl⟩ := List.mem_map.1 hc
    exact h.usable_create (returns.mem_create hr hv carries) s name reserved
  rw [Pool.stock_congr (Pool.filter_emptyVolumes apart), Pool.stock_ofResources]

/-- What the offer has of a name in reserved resources is what the fragments supply; in others, it
lacks nothing. -/
theorem amountOf_returned (h : Founded policy runSpec o t reserve create)
    (returns : o'.Returns o.agentId t.volumeIds reserve create rest) (name : ResourceName) :
    amountOf (Pool.usable (ownSelector policy runSpec t.id) name true) o'.resources =
        amountOf (serves name) rest ∧
      0 ≤ amountOf (Pool.usable (ownSelector policy runSpec t.id) name false) o'.resources := by
  obtain ⟨more, perm, free⟩ := returns.resources
  have none_created : ∀ reserved,
      amountOf (Pool.usable (ownSelector policy runSpec t.id) name reserved) create = 0 :=
    fun reserved => amountOf_eq_zero fun d hd usable =>
      absurd usable (Bool.eq_false_iff.1 (h.usable_create hd _ name reserved))
  simp only [amountOf_perm perm, amountOf_append, none_created, add_zero]
  constructor
  · have none_free : amountOf (Pool.usable (ownSelector policy runSpec t.id) name true) more = 0 :=
      amountOf_eq_zero fun r hr usable =>
        absurd (Pool.usable_iff.1 usable).2.2 (Bool.eq_false_iff.1 (free r hr).unreserved)
    rw [none_free, add_zero]
    refine amountOf_congr ?_
    intro r hr
    have held := h.held_returned returns (.inl hr)
    rw [Bool.eq_iff_iff, Pool.usable_iff]
    exact ⟨fun usable => usable.1, fun serves => ⟨serves, held.accepts runSpec, held.isReserved⟩⟩
  · have none_held : amountOf (Pool.usable (ownSelector policy runSpec t.id) name false) rest = 0 :=
      amountOf_eq_zero fun r hr usable =>
        absurd (h.held_returned returns (.inl hr)).isReserved
          (Bool.eq_false_iff.1 (Pool.usable_iff.1 usable).2.2)
    rw [none_held, zero_add]
    exact amountOf_nonneg fun r hr => (free r hr).nonneg

/-! ## Ports -/

/-- The offer has the ports of the reservation in its reserved resources, and no others there. -/
theorem mem_portsOf_returned (h : Founded policy runSpec o t reserve create)
    (returns : o'.Returns o.agentId t.volumeIds reserve create rest) (port : Port) :
    port ∈ portsOf (o'.resources.filter
        (Pool.eligible (ownSelector policy runSpec t.id) .ports true)) ↔
      port ∈ portsOf reserve := by
  obtain ⟨backing, perm, becomes⟩ := returns.backing
  have port_of : ∀ {r : Resource Rat}, port ∈ PortRange.allPorts r.portRanges → r.portRanges ≠ [] :=
    fun hport none_ => not_mem_allPorts none_ port hport
  rw [mem_portsOf, mem_portsOf]
  constructor
  · rintro ⟨r, hr, hport⟩
    obtain ⟨hr, eligible⟩ := List.mem_filter.1 hr
    simp only [Pool.eligible, Bool.and_eq_true, beq_iff_eq] at eligible
    rcases returns.mem.2 hr with (hr | hr) | free
    · exact ⟨r, perm.mem_iff.2 (List.mem_append_left backing hr), hport⟩
    · exact absurd (h.created r hr).2.2 (port_of hport)
    · cases free.unreserved.symm.trans eligible.2
  · rintro ⟨r, hr, hport⟩
    rcases List.mem_append.1 (perm.mem_iff.1 hr) with hrest | hbacking
    · have held := h.held_returned returns (.inl hrest)
      refine ⟨r, List.mem_filter.2 ⟨returns.mem.1 (.inl hrest), ?_⟩, hport⟩
      simp [Pool.eligible, h.named r hr (port_of hport), held.accepts runSpec, held.isReserved]
    · -- A fragment that backs a volume has the value of its disk, which is an amount.
      obtain ⟨d, hd, p, rfl⟩ := exists_of_forall₂ becomes.flip hbacking
      exact absurd (h.created _ hd).2.2 (port_of hport)

/-! ## The match -/

/-- The offer is not kept for workloads that need GPUs, unless this is one. -/
theorem not_declined (h : Founded policy runSpec o t reserve create)
    (returns : o'.Returns o.agentId t.volumeIds reserve create rest) (gpus : GpuPolicy) :
    Matching.declinesForGpus gpus o' runSpec = false := by
  by_cases large : Amount.tolerance < runSpec.totalResources.gpus
  · simp [Matching.declinesForGpus, large]
  · obtain ⟨backing, perm, -⟩ := returns.backing
    have none_ : o'.total .gpus = 0 := by
      have total : o'.total .gpus = amountOf (·.name == .gpus) o'.resources := List.sum_eq_foldl.symm
      rw [total]
      refine amountOf_eq_zero ?_
      intro r hr named
      have named := beq_iff_eq.1 named
      rcases returns.mem.2 hr with (hr | hr) | free
      · exact absurd (h.gpus r (perm.mem_iff.2 (List.mem_append_left backing hr)) named) large
      · cases (h.created r hr).1.symm.trans named
      · exact free.gpus named
    simp [Matching.declinesForGpus, Offer.hasGpus, none_]

/-- All requirements are taken from reserved resources. -/
theorem takeScalars_returned (h : Founded policy runSpec o t reserve create)
    (returns : o'.Returns o.agentId t.volumeIds reserve create rest) :
    ∃ parts p', Matching.takeScalars (ownSelector policy runSpec t.id) runSpec.totalResources []
        Matching.scalarNames (Pool.emptyVolumes t.volumeIds (Pool.ofResources o'.resources)) =
          (parts, [], p') ∧
      p'.frame = (Pool.ofResources o'.resources).frame ∧
      ∀ f ∈ parts, f.Bare ∧ f.portRanges = [] ∧
        ∃ r ∈ o'.resources, r.isReserved = true ∧ f.sameKind r = true := by
  have enough : ∀ name ∈ Matching.scalarNames,
      Amount.tolerance < runSpec.totalResources.of name →
      runSpec.totalResources.of name ≤
          Pool.stock (Pool.usable (ownSelector policy runSpec t.id) name true)
            (Pool.emptyVolumes t.volumeIds (Pool.ofResources o'.resources)) + Amount.tolerance ∧
        0 ≤ Pool.stock (Pool.usable (ownSelector policy runSpec t.id) name false)
          (Pool.emptyVolumes t.volumeIds (Pool.ofResources o'.resources)) := by
    intro name hname large
    obtain ⟨reserved, others⟩ := h.amountOf_returned returns name
    rw [h.stock_emptyVolumes returns, h.stock_emptyVolumes returns, reserved]
    exact ⟨h.supply_rest returns hname large, others⟩
  obtain ⟨parts, p', taken, frame, plain⟩ := Matching.takeScalars_of_stock (by decide) enough
  refine ⟨parts, p', taken, frame.trans (Pool.frame_emptyVolumes _ _), ?_⟩
  intro f hf
  obtain ⟨pos, c, hc, ⟨bare, -, reserved⟩, hslice⟩ := plain f hf
  have offered : c.resource ∈ o'.resources := by
    rw [← Pool.resources_ofResources o'.resources,
      ← Pool.resources_of_frame (Pool.frame_emptyVolumes t.volumeIds _)]
    exact List.mem_map_of_mem hc
  have kind : f.sameKind c.resource = true := by
    rw [hslice]
    exact sameKind_self _
  exact ⟨bare_congr kind bare, portRanges_of_amount pos, c.resource, offered, reserved, kind⟩

/-- All requests for host ports are met by ports of the reservation. -/
theorem assign?_returned (h : Founded policy runSpec o t reserve create)
    (returns : o'.Returns o.agentId t.volumeIds reserve create rest) {excluded : List Port}
    (open_ : ∀ port ∈ portsOf reserve, port ∉ excluded) {p : Pool Rat}
    (frame : p.frame = (Pool.ofResources o'.resources).frame) :
    ∃ hosts pool, HostPorts.assign? (ownSelector policy runSpec t.id) excluded
        runSpec.portRequests p = some (hosts, pool) ∧
      ∀ u ∈ pool.consumedPorts, u.name = .ports ∧
        (∃ r ∈ o'.resources, r.isReserved = true ∧ u.sameKind r = true) ∧
        ∀ port ∈ PortRange.allPorts u.portRanges, port ∈ portsOf reserve := by
  have fresh := Pool.takenPorts_of_frame frame
  have resources : p.map Chunk.resource = o'.resources := by
    rw [Pool.resources_of_frame frame, Pool.resources_ofResources]
  have untouched : p.given = [] := List.flatMap_eq_nil_iff.2 fresh
  have holds : Pool.Holds (ownSelector policy runSpec t.id) (portsOf reserve) p := by
    refine ⟨?_, ?_, fun c hc some_given => absurd (fresh c hc) some_given⟩
    · intro port
      rw [Pool.portsOf_eq, resources]
      exact h.mem_portsOf_returned returns port
    · rw [untouched]
      simp
  obtain ⟨hosts, pool, assigned, holds'⟩ :=
    HostPorts.assign?_of_holds holds open_ h.distinct h.ports untouched
  refine ⟨hosts, pool, assigned, ?_⟩
  intro u hu
  obtain ⟨⟨r, hr, eligible, kind⟩, ports⟩ := holds'.consumedPorts hu
  rw [(HostPorts.gives_assign? assigned).resources, resources] at hr
  simp only [Pool.eligible, Bool.and_eq_true, beq_iff_eq] at eligible
  exact ⟨(name_congr kind).trans eligible.1.1, ⟨r, hr, eligible.2, kind⟩, ports⟩

/-- An offer that has the reservation again matches. All parts are of what has been reserved, the
volumes are those of the task, and the ports are of the reservation. -/
theorem match?_returned (h : Founded policy runSpec o t reserve create)
    (returns : o'.Returns o.agentId t.volumeIds reserve create rest)
    (gpus : GpuPolicy) {known : List Instance}
    (open_ : ∀ port ∈ portsOf reserve, port ∉ HostPorts.inUse o'.agentId known) :
    ∃ m, Matching.match? gpus o' runSpec known (ownSelector policy runSpec t.id)
        (.existing t.volumeIds) = .ok m ∧
      volumesOf m.resources = t.volumeIds ∧
      (∀ u ∈ m.resources, ∃ f ∈ rest ++ create, u.sameKind f = true) ∧
      ∀ port ∈ portsOf m.resources, port ∈ portsOf reserve := by
  obtain ⟨disks, existing, volumes, created⟩ := h.takeExisting?_returned returns
  obtain ⟨parts, p', scalars, frame, plain⟩ := h.takeScalars_returned returns
  obtain ⟨hosts, pool, assigned, bound⟩ := h.assign?_returned returns open_ frame
  have accepted : o'.resources.any (ownSelector policy runSpec t.id).accepts = true := by
    obtain ⟨v, hv⟩ := List.exists_mem_of_ne_nil _ h.listed
    obtain ⟨d, hd, -⟩ := h.exists_create hv
    exact List.any_eq_true.2
      ⟨d, returns.mem.1 (.inr hd), (h.held_create hd).accepts runSpec⟩
  have reserved_returned : ∀ r ∈ o'.resources, r.isReserved = true → r ∈ rest ++ create := by
    intro r hr reserved
    rcases returns.mem.2 hr with returned | free
    · exact List.mem_append.2 returned
    · cases free.unreserved.symm.trans reserved
  refine ⟨_, Matching.match?_eq_ok_of_steps (h.not_declined returns gpus) accepted
    (by rw [Matching.takeVolumes, existing]) scalars assigned, ?_, ?_, ?_⟩
  · have none_plain : volumesOf parts = [] := volumesOf_eq_nil fun f hf => (plain f hf).1
    have none_bound : volumesOf pool.consumedPorts = [] :=
      volumesOf_eq_nil fun u hu disk => by cases (bound u hu).1.symm.trans disk
    rw [volumesOf_append, volumesOf_append, volumes, none_plain, none_bound, List.append_nil,
      List.append_nil]
  · intro u hu
    rcases List.mem_append.1 hu with hu | hu
    · rcases List.mem_append.1 hu with hu | hu
      · exact ⟨u, List.mem_append_right rest (created u hu), sameKind_self u⟩
      · obtain ⟨-, -, r, hr, reserved, kind⟩ := plain u hu
        exact ⟨r, reserved_returned r hr reserved, kind⟩
    · obtain ⟨-, ⟨r, hr, reserved, kind⟩, -⟩ := bound u hu
      exact ⟨r, reserved_returned r hr reserved, kind⟩
  · intro port hport
    rw [portsOf_append, portsOf_append, portsOf_eq_nil fun d hd => (h.created d (created d hd)).2.2,
      portsOf_eq_nil fun f hf => (plain f hf).2.1, List.nil_append, List.nil_append] at hport
    obtain ⟨u, hu, hport⟩ := mem_portsOf.1 hport
    exact (bound u hu).2.2 port hport

end Founded

end Decision

/-! ## The launch -/

/-- A task waits on its reservation, alone in its instance, and no other instance of the run spec has
one that does. -/
def Task.WaitsAlone (known : List Instance) (id : RunSpecId) (t : Task) : Prop :=
  t.isReserved = true ∧ ∃ i ∈ known, i.runSpecId = id ∧ i.tasks.values = [t] ∧
    ∀ j ∈ known, j.runSpecId = id → j.hasReservedTask = true → j = i

namespace Decision

section

variable {α : Type} [Amount α] {policy : LaunchPolicy} {gpus : GpuPolicy} {runSpec : RunSpec α}
  {o : Offer α} {known : List Instance} {additional : Nat} {now : Timestamp} {ids ids' : IdSupply}
  {t : Task}

/-- Nothing is decided for a run spec that is resident and of task groups. -/
theorem isPod_eq_false_of_evaluate {op : InstanceOp α} (resident : runSpec.isResident = true)
    (h : evaluate policy gpus runSpec o known additional now ids = (.ok (.op op), ids')) :
    runSpec.isPod = false := by
  unfold evaluate Decision.resident at h
  simp only [resident, if_true] at h
  split at h
  · cases h
  · split at h
    · cases h
    · next single =>
      simp only [Bool.or_eq_true, not_or, Bool.not_eq_true] at single
      exact single.1

/-- An offer that matches is answered with the launch of the task. -/
theorem launchOnReservation_of_match {m : ResourceMatch α}
    (found : Matching.match? gpus o runSpec known (ownSelector policy runSpec t.id)
      (.existing t.volumeIds) = .ok m) :
    launchOnReservation policy gpus runSpec o known t now =
      .ok (.op (.launchTask (taskInfo runSpec o t.id none m.resources m.hostPorts)
        (.launchOnReservation t.id runSpec.version (.fresh .created now) m.assignedPorts))) := by
  rw [ownSelector] at found
  rw [launchOnReservation]
  simp only [found]
  rw [InstanceOp.ofTask_of_named rfl, ofOp]

/-- Where an instance is missing, a decision is taken on the first task that waits on the offer, or on a
new reservation if there is none. -/
theorem evaluate_of_missing (resident : runSpec.isResident = true) (single : runSpec.isPod = false)
    (alone : ∀ i ∈ known, i.runSpecId = runSpec.id → i.hasReservedTask = true → i.tasks.size = 1)
    (missing : ((known.filter fun i => i.runSpecId == runSpec.id).filter (·.isPlaced)).length <
      runSpec.instances) (asked : 1 ≤ additional) :
    evaluate policy gpus runSpec o known additional now ids =
      match (((known.filter fun i => i.runSpecId == runSpec.id).filter (·.hasReservedTask)).flatMap
          (·.tasks.values)).find? (waitsOn o) with
      | some t => (launchOnReservation policy gpus runSpec o known t now, ids)
      | none =>
        if runSpec.instances ≤
            ((known.filter fun i => i.runSpecId == runSpec.id).filter (·.isPlaced)).length +
              ((known.filter fun i => i.runSpecId == runSpec.id).filter (·.hasReservedTask)).length then
          (.ok (.mismatch [.noCorrespondingReservationFound]), ids)
        else foundReservation policy gpus runSpec o known now ids := by
  have going : ¬ (decide (additional = 0) || decide (runSpec.instances ≤
      ((known.filter fun i => i.runSpecId == runSpec.id).filter (·.isPlaced)).length)) = true := by
    simp only [Bool.or_eq_true, decide_eq_true_eq]
    omega
  have single_tasks : ((known.filter fun i => i.runSpecId == runSpec.id).filter
      (·.hasReservedTask)).any (·.tasks.size != 1) = false := by
    rw [List.any_eq_false]
    intro i hi
    obtain ⟨hi, reserved⟩ := List.mem_filter.1 hi
    obtain ⟨hi, own⟩ := List.mem_filter.1 hi
    simp [alone i hi (beq_iff_eq.1 own) reserved]
  unfold evaluate Decision.resident
  cases found : (((known.filter fun i => i.runSpecId == runSpec.id).filter
      (·.hasReservedTask)).flatMap (·.tasks.values)).find? (waitsOn o) <;>
    simp only [if_neg going, resident, if_true, single, single_tasks, Bool.or_false,
      Bool.false_eq_true, if_false, found]

/-- An offer with all volumes of a task that waits is for that task. -/
theorem evaluate_of_waitsAlone (resident : runSpec.isResident = true) (single : runSpec.isPod = false)
    (waits : t.WaitsAlone known runSpec.id) (here : waitsOn o t = true) (asked : 1 ≤ additional)
    (missing : ((known.filter fun i => i.runSpecId == runSpec.id).filter (·.isPlaced)).length <
      runSpec.instances) :
    evaluate policy gpus runSpec o known additional now ids =
      (launchOnReservation policy gpus runSpec o known t now, ids) := by
  obtain ⟨reserved, i, hi, spec, alone, only⟩ := waits
  have own : ∀ j, j ∈ (known.filter fun i => i.runSpecId == runSpec.id).filter (·.hasReservedTask) ↔
      j = i := by
    intro j
    rw [List.mem_filter, List.mem_filter, beq_iff_eq]
    constructor
    · rintro ⟨⟨hj, hspec⟩, hreserved⟩
      exact only j hj hspec hreserved
    · rintro rfl
      refine ⟨⟨hi, spec⟩, ?_⟩
      simp [Instance.hasReservedTask, alone, reserved]
  have size : ∀ j ∈ known, j.runSpecId = runSpec.id → j.hasReservedTask = true → j.tasks.size = 1 := by
    intro j hj hspec hreserved
    rw [only j hj hspec hreserved, OrderedMap.size, ← List.length_map (·.2)]
    exact congrArg List.length alone
  have found : (((known.filter fun i => i.runSpecId == runSpec.id).filter
      (·.hasReservedTask)).flatMap (·.tasks.values)).find? (waitsOn o) = some t := by
    have there : t ∈ ((known.filter fun i => i.runSpecId == runSpec.id).filter
        (·.hasReservedTask)).flatMap (·.tasks.values) :=
      List.mem_flatMap.2 ⟨i, (own i).2 rfl, alone ▸ List.mem_singleton_self t⟩
    obtain ⟨u, hu⟩ := Option.isSome_iff_exists.1 (List.find?_isSome.2 ⟨t, there, here⟩)
    obtain ⟨j, hj, hmem⟩ := List.mem_flatMap.1 (List.mem_of_find?_eq_some hu)
    rw [(own j).1 hj, alone, List.mem_singleton] at hmem
    rw [hu, hmem]
  rw [evaluate_of_missing resident single size missing asked, found]

end

/-- Once a reservation has been decided on for a task, an offer of its agent that has the reservation
again is answered with the launch of the task, whatever else is known by then. The launch uses all
volumes of the task, and takes amounts and ports of the fragments of the reservation alone. -/
theorem relaunches_evaluate {policy : LaunchPolicy} {gpus : GpuPolicy} {runSpec : RunSpec Rat}
    {o o' : Offer Rat} {known known' : List Instance} {additional additional' : Nat}
    {now now' : Timestamp} {ids ids₁ ids' : IdSupply}
    {consumed reserve create rest : List (Resource Rat)} {t u : Task}
    (sizes : ∀ v ∈ runSpec.volumes, 1 ≤ v.size)
    (founded : evaluate policy gpus runSpec o known additional now ids =
      (.ok (.op (.reserveAndCreate consumed reserve create (.reserve t))), ids₁))
    (returns : o'.Returns o.agentId t.volumeIds reserve create rest)
    (continues : t.Continues u) (waits : u.WaitsAlone known' runSpec.id)
    (missing : ((known'.filter fun i => i.runSpecId == runSpec.id).filter (·.isPlaced)).length <
      runSpec.instances)
    (open_ : ∀ port ∈ portsOf reserve, port ∉ HostPorts.inUse o'.agentId known')
    (asked : 1 ≤ additional') :
    ∃ info ports, evaluate policy gpus runSpec o' known' additional' now' ids' =
        (.ok (.op (.launchTask info
          (.launchOnReservation t.id runSpec.version (.fresh .created now') ports))), ids') ∧
      info.taskId = t.id ∧ volumesOf info.resources = t.volumeIds ∧
      (∀ r ∈ info.resources,
        r.reservation = some ⟨some policy.frameworkId, reservationLabels policy t.id⟩ ∧
          ∃ f ∈ rest ++ create, r.sameKind f = true) ∧
      ∀ port ∈ portsOf info.resources, port ∈ portsOf reserve := by
  have holds := founded_evaluate sizes founded
  obtain ⟨m, found, volumes, fragments, ports⟩ := holds.match?_returned returns gpus open_
  rw [← continues.id, ← continues.volumeIds] at found
  have here : waitsOn o' u = true := by
    have agent : u.agent.agentId = o'.agentId := by
      rw [continues.agent, holds.agent, returns.agent]
      rfl
    have listed : t.volumeIds.isEmpty = false := by simp [holds.listed]
    have there : (t.volumeIds.all fun v => o'.resources.any (·.carriesVolume v)) = true := by
      rw [List.all_eq_true]
      intro v hv
      obtain ⟨d, hd, carries⟩ := holds.exists_create hv
      exact List.any_eq_true.2 ⟨d, returns.mem.1 (.inr hd), carries⟩
    simp [waitsOn, waits.1, agent, continues.volumeIds, listed, there]
  refine ⟨taskInfo runSpec o' u.id none m.resources m.hostPorts, m.assignedPorts, ?_, continues.id,
    volumes, ?_, ports⟩
  · rw [evaluate_of_waitsAlone holds.resident (isPod_eq_false_of_evaluate holds.resident founded)
      waits here asked missing, launchOnReservation_of_match found, continues.id]
  · intro r hr
    obtain ⟨f, hf, kind⟩ := fragments r hr
    have held := holds.held_returned returns (List.mem_append.1 hf)
    exact ⟨(sameKind_iff.1 kind).2.2.1.trans held.2, f, hf, kind⟩

end Decision

/-! ## A reservation and its launch -/

namespace Sample

/-- An instance needs one processor, a volume and a host port. -/
def cache : RunSpec Rat :=
  { RunSpec.ofId ⟨"/cache", by decide⟩ 1 ⟨0, 0⟩ with
    resources := ⟨1, 0, 0, 0⟩
    ports := [.ofHostPort .dynamic]
    volumes := [⟨"files", 50, .root⟩] }

def cacheOffer : Offer Rat where
  id := ⟨.ofNat 4⟩
  agentId := ⟨.ofNat 2⟩
  hostname := "host"
  attributes := ∅
  resources := [.scalar .cpus 2, .scalar .disk 100, .ports [⟨31000, 31001⟩]]

def cacheVolume : VolumeId :=
  ⟨⟨"/cache", by decide⟩, "files", (IdSupply.numbered ⟨5, 0⟩).nextUlid.2.nextUuid.1, by decide⟩

/-- The task that waits on the reservation. -/
def cacheTask : Task :=
  Decision.foundedTask cache cacheOffer
    (.forInstance cache.id (IdSupply.numbered ⟨5, 0⟩).nextId.1) [cacheVolume] ⟨0, 0⟩ ⟨300, 0⟩

/-- A resource as the reservation of the task holds it. -/
def cacheHeld (r : Resource Rat) : Resource Rat :=
  Decision.reserved .usual (Decision.ownInfo .usual cacheTask.id) r

def cacheReserve : List (Resource Rat) :=
  [cacheHeld (.scalar .cpus 1), cacheHeld (.scalar .disk 50), cacheHeld (.ports [⟨31000, 31000⟩])]

/-- The fragments that back no volume. -/
def cacheRest : List (Resource Rat) :=
  [cacheHeld (.scalar .cpus 1), cacheHeld (.ports [⟨31000, 31000⟩])]

/-- The disk of the volume. -/
def cacheDisk : Resource Rat :=
  { cacheHeld (.scalar .disk 50) with disk := some ⟨.root, some ⟨cacheVolume, "files"⟩⟩ }

def cacheInstance : Instance where
  id := cacheTask.instanceId
  runSpecId := cache.id
  agent := cacheTask.agent
  runSpecVersion := cache.version
  state := ⟨.reserved, ⟨0, 0⟩, none⟩
  tasks := .ofList [(cacheTask.id, cacheTask)]

/-- The same agent again, with other processors and ports beside the reservation. -/
def laterOffer : Offer Rat :=
  { cacheOffer with
    id := ⟨.ofNat 5⟩
    resources := [.ports [⟨31001, 31001⟩], .scalar .cpus 1, cacheDisk] ++ cacheRest }

def founding : Decision.Result Rat :=
  Decision.evaluate .usual .restricted cache cacheOffer [] 1 ⟨0, 0⟩ (.numbered ⟨5, 0⟩)

def relaunching : Decision.Result Rat :=
  Decision.evaluate .usual .restricted cache laterOffer [cacheInstance] 1 ⟨60, 0⟩
    (.numbered ⟨60, 0⟩)

theorem returns_laterOffer :
    laterOffer.Returns cacheOffer.agentId cacheTask.volumeIds cacheReserve [cacheDisk] cacheRest := by
  refine ⟨rfl, ⟨[cacheHeld (.scalar .disk 50)], ?_, ?_⟩, ?_,
    [.ports [⟨31001, 31001⟩], .scalar .cpus 1], ?_, ?_⟩
  · decide +kernel
  · exact .cons ⟨⟨cacheVolume, "files"⟩, rfl⟩ .nil
  · decide +kernel
  · decide +kernel
  · intro r hr
    rcases List.mem_pair.1 hr with rfl | rfl
    · exact ⟨rfl, by decide +kernel, rfl, by decide +kernel⟩
    · exact ⟨rfl, by decide +kernel, rfl, by decide +kernel⟩

theorem waitsAlone_cacheTask : cacheTask.WaitsAlone [cacheInstance] cache.id := by
  refine ⟨rfl, cacheInstance, List.mem_singleton_self _, rfl, by decide +kernel, ?_⟩
  intro j hj _ _
  exact List.mem_singleton.1 hj

end Sample

/-- The reservation is decided on, and the later offer launches the task on it. -/
theorem relaunches_evaluate_sample :
    Sample.founding.1 = .ok (.op (.reserveAndCreate
      [.scalar .cpus 1, .scalar .disk 50, .ports [⟨31000, 31000⟩]] Sample.cacheReserve
      [Sample.cacheDisk] (.reserve Sample.cacheTask))) ∧
    Sample.laterOffer.Returns Sample.cacheOffer.agentId Sample.cacheTask.volumeIds
      Sample.cacheReserve [Sample.cacheDisk] Sample.cacheRest ∧
    Sample.cacheTask.WaitsAlone [Sample.cacheInstance] Sample.cache.id ∧
    ∃ info ports, Sample.relaunching = (.ok (.op (.launchTask info
        (.launchOnReservation Sample.cacheTask.id ⟨0, 0⟩ (.fresh .created ⟨60, 0⟩) ports))),
          .numbered ⟨60, 0⟩) ∧
      volumesOf info.resources = [Sample.cacheVolume] ∧
      ∀ port ∈ portsOf info.resources, port ∈ portsOf Sample.cacheReserve := by
  have founded : Sample.founding.1 = .ok (.op (.reserveAndCreate
      [.scalar .cpus 1, .scalar .disk 50, .ports [⟨31000, 31000⟩]] Sample.cacheReserve
      [Sample.cacheDisk] (.reserve Sample.cacheTask))) := by
    decide +kernel
  have sizes : ∀ v ∈ Sample.cache.volumes, 1 ≤ v.size := by decide +kernel
  have missing : (([Sample.cacheInstance].filter fun i => i.runSpecId == Sample.cache.id).filter
      (·.isPlaced)).length < Sample.cache.instances := by
    decide +kernel
  have unused : ∀ port ∈ portsOf Sample.cacheReserve,
      port ∉ HostPorts.inUse Sample.laterOffer.agentId [Sample.cacheInstance] := by
    have none_used : HostPorts.inUse Sample.laterOffer.agentId [Sample.cacheInstance] = [] := by
      decide +kernel
    rw [none_used]
    exact fun port _ => List.not_mem_nil
  have decided : Sample.founding = (.ok (.op (.reserveAndCreate
      [.scalar .cpus 1, .scalar .disk 50, .ports [⟨31000, 31000⟩]] Sample.cacheReserve
      [Sample.cacheDisk] (.reserve Sample.cacheTask))), Sample.founding.2) :=
    Prod.ext founded rfl
  obtain ⟨info, ports, launched, -, volumes, -, bound⟩ :=
    Decision.relaunches_evaluate sizes decided Sample.returns_laterOffer (.refl _)
      Sample.waitsAlone_cacheTask missing unused (le_refl 1)
  exact ⟨founded, Sample.returns_laterOffer, Sample.waitsAlone_cacheTask, info, ports, launched,
    volumes, bound⟩

end Placement
