/-
What a new reservation holds.

* `Resource.BecomesVolume` relates the fragment that a volume is created on to the disk it becomes.
* `Decision.Founded` says what a reservation holds for its task, seen from its fragments: the
  requirements, the host ports and the volumes of one instance, all under the labels of the task.
  `founded_evaluate` has it of every decision for a new reservation.
-/
import Placement.Proofs.Matching
import Placement.Proofs.Reached
import Placement.Proofs.Rebinding
import Placement.Proofs.Remaining
import Placement.Proofs.Supply

namespace Placement

open Resource

theorem Amount.twice_tolerance_lt_one : Amount.tolerance + Amount.tolerance < (1 : Rat) := by
  show mkRat 1 1000000 + mkRat 1 1000000 < 1
  decide +kernel

/-! ## Fragments that become volumes -/

namespace Resource

/-- A volume has been created on a fragment: nothing but its disk information is different. -/
def BecomesVolume {α : Type} (f d : Resource α) : Prop :=
  ∃ p, d = { f with disk := some ⟨f.diskSource, some p⟩ }

/-- Fragments that become the same volumes supply the same. -/
theorem amountOf_becomesVolume {fs gs ds : List (Resource Rat)} (h : List.Forall₂ BecomesVolume fs ds)
    (h' : List.Forall₂ BecomesVolume gs ds) (bare : ∀ f ∈ fs, f.Bare) (bare' : ∀ g ∈ gs, g.Bare)
    (name : ResourceName) : amountOf (serves name) fs = amountOf (serves name) gs := by
  induction h generalizing gs with
  | nil =>
    cases h'
    rfl
  | @cons f d _ _ first _ ih =>
    cases h' with
    | @cons g _ _ _ first' rest' =>
      obtain ⟨p, rfl⟩ := first
      obtain ⟨q, same⟩ := first'
      obtain ⟨hname, hvalue, -, -, hdisk⟩ := Resource.mk.inj same
      have source : f.diskSource = g.diskSource := (DiskInfo.mk.inj (Option.some.inj hdisk)).1
      have passes : serves name f = serves name g := by
        by_cases disk : f.name = .disk
        · simp only [serves, Pool.servesScalar, bare f List.mem_cons_self disk,
            bare' g List.mem_cons_self (hname ▸ disk), source, hname]
        · have plain : (g.name != .disk) = true := bne_iff_ne.2 (hname ▸ disk)
          simp only [serves, Pool.servesScalar, hname, plain, Bool.true_or]
      have here : f.amount = g.amount := congrArg ResourceValue.amount hvalue
      rw [amountOf_cons, amountOf_cons, passes, here,
        ih rest' (fun f hf => bare f (List.mem_cons_of_mem _ hf))
          fun g hg => bare' g (List.mem_cons_of_mem _ hg)]

end Resource

namespace Pool

/-! ## Volumes that are carved -/

/-- All volumes are carved if none is missing, each from a disk and, up to the tolerance, at the size
that was asked for. -/
theorem carved_takeVolumes (s : Selector) (vs : List (PersistentVolume Rat)) (p : Pool Rat) :
    ((p.takeVolumes s vs).2.1 = true → (p.takeVolumes s vs).1.map (·.1) = vs) ∧
      ∀ x ∈ (p.takeVolumes s vs).1, x.1 ∈ vs ∧ x.2.name = .disk ∧
        x.1.size ≤ x.2.amount + Amount.tolerance := by
  induction vs generalizing p with
  | nil => exact ⟨fun _ => rfl, by simp [takeVolumes]⟩
  | cons v rest ih =>
    unfold takeVolumes
    split
    · next f p' taken =>
      obtain ⟨best, -, found⟩ := Option.bind_eq_some_iff.1 taken
      have fits : ∀ c : Chunk Rat, (fitsVolume s v c && Amount.sortsBefore c.remaining best) = true →
          fitsVolume s v c = true := fun c hc => (Bool.and_eq_true_iff.1 hc).1
      obtain ⟨-, c, -, passes, rfl⟩ :=
        pays_takeFirst? (fun c hc => volumePart_le (fits c hc)) found
      have fit := fits c passes
      simp only [fitsVolume, eligible, Bool.and_eq_true, beq_iff_eq, decide_eq_true_eq] at fit
      obtain ⟨all, carved⟩ := ih p'
      refine ⟨fun none_missing => congrArg (v :: ·) (all none_missing), ?_⟩
      intro x hx
      rcases List.mem_cons.1 hx with rfl | hx
      · refine ⟨List.mem_cons_self, fit.1.1.1.1.1.1, ?_⟩
        have size : v.size ≤ (if v.diskType == .mount then c.remaining else v.size) +
            Amount.tolerance := by
          split
          · exact fit.1.2
          · exact le_add_of_nonneg_right (le_of_lt Amount.tolerance_pos)
        exact size
      · obtain ⟨hv, fitting⟩ := carved x hx
        exact ⟨List.mem_cons_of_mem v hv, fitting⟩
    · obtain ⟨-, carved⟩ := ih p
      refine ⟨(by simp), ?_⟩
      intro x hx
      obtain ⟨hv, fitting⟩ := carved x hx
      exact ⟨List.mem_cons_of_mem v hv, fitting⟩

end Pool

namespace Matching

/-! ## Matches with new volumes -/

/-- The parts of a match with new volumes: `scalars` for the requirements, those for the volumes, and
`ports` for the host ports. -/
structure Drawn (runSpec : RunSpec Rat) (m : ResourceMatch Rat)
    (scalars ports : List (Resource Rat)) : Prop where
  resources : m.resources = scalars ++ m.newVolumes.map (·.2) ++ ports
  supplied : ∀ name ∈ scalarNames, Amount.tolerance < runSpec.totalResources.of name →
    runSpec.totalResources.of name ≤ amountOf (serves name) scalars + Amount.tolerance
  served : ∀ f ∈ scalars, f.Bare ∧ f.portRanges = [] ∧
    ∃ name ∈ scalarNames, Amount.tolerance < runSpec.totalResources.of name ∧ f.name = name
  complete : m.newVolumes.map (·.1) = runSpec.volumes
  carved : ∀ x ∈ m.newVolumes, x.2.name = .disk ∧ x.2.persistence = none ∧ x.2.portRanges = [] ∧
    x.1.size ≤ x.2.amount + Amount.tolerance
  valueless : ∀ u ∈ ports, u.name = .ports ∧ u.amount = 0
  bound : HostPorts.Suffices runSpec.portRequests (portsOf ports)
  distinct : (portsOf ports).Nodup

theorem drawn_match? {gpus : GpuPolicy} {o : Offer Rat} {runSpec : RunSpec Rat}
    {known : List Instance} {s : Selector} {m : ResourceMatch Rat}
    (h : match? gpus o runSpec known s (.create runSpec.volumes) = .ok m) :
    ∃ scalars ports, Drawn runSpec m scalars ports := by
  obtain ⟨taken, scalars, pool, htaken, hscalars, assigned, resources, newVolumes, met⟩ :=
    match?_eq_ok h
  rw [takeVolumes] at htaken
  obtain ⟨pays, new⟩ :=
    Pool.pays_takeVolumes s runSpec.volumes (Pool.ofResources o.resources)
  obtain ⟨all, carved⟩ :=
    Pool.carved_takeVolumes s runSpec.volumes (Pool.ofResources o.resources)
  generalize (Pool.ofResources o.resources).takeVolumes s runSpec.volumes = volumes
    at htaken pays new all carved
  subst htaken
  rw [hscalars] at met
  have none_missing : volumes.2.1 = true := by
    have no_reason := reasons_of_takeScalars met
    by_contra missing
    simp [missing] at no_reason
  obtain ⟨pays', -⟩ := pays_takeScalars s runSpec.totalResources scalarNames
    (if volumes.2.1 then [] else [.insufficientDisk]) volumes.2.2
  obtain ⟨supplied, parts⟩ := supply_of_takeScalars met
  rw [← hscalars] at pays' supplied parts
  have frame := pays'.frame.trans pays.frame
  obtain ⟨bound, different, ports⟩ := ports_of_gives frame (HostPorts.gives_assign? assigned)
  obtain ⟨others, held, count⟩ := HostPorts.held_assign? assigned
  refine ⟨scalars.1, pool.consumedPorts, ?_, supplied, ?_, ?_, ?_, ?_,
    ⟨others, bound.trans held, count⟩, different⟩
  · rw [resources, newVolumes]
    rfl
  · intro f hf
    obtain ⟨pos, c, -, ⟨name, hname, large, hserves⟩, hslice⟩ := parts f hf
    obtain ⟨named, plain⟩ := Bool.and_eq_true_iff.1 hserves
    refine ⟨?_, portRanges_of_amount pos, name, hname, large, ?_⟩
    · rw [hslice]
      exact Pool.bare_of_servesScalar plain
    · rw [hslice]
      exact beq_iff_eq.1 named
  · rw [newVolumes]
    exact all none_missing
  · intro x hx
    rw [newVolumes] at hx
    obtain ⟨no_volume, no_ports⟩ := new x.2 (List.mem_map_of_mem hx)
    obtain ⟨-, hname, size⟩ := carved x hx
    exact ⟨hname, no_volume, no_ports, size⟩
  · intro u hu
    obtain ⟨⟨zero, -⟩, offered⟩ := ports u hu
    obtain ⟨c, -, some_given, rfl⟩ := Pool.mem_consumedPorts.1 hu
    obtain ⟨port, hport⟩ := List.exists_mem_of_ne_nil _ some_given
    obtain ⟨r, -, hname, kind, -⟩ := offered port (PortRange.mem_allPorts_ofPorts.2 hport)
    exact ⟨(name_congr kind).trans hname, zero⟩

end Matching

namespace Decision

/-! ## New volumes -/

/-- The disks of new volumes are the reserved parts that were carved for them. -/
theorem becomesVolume_createVolumes {policy : LaunchPolicy} {info : ReservationInfo} {id : RunSpecId}
    {parts : List (PersistentVolume Rat × Resource Rat)} {volumes : List (VolumeId × Resource Rat)}
    {ids ids' : IdSupply} (h : createVolumes policy info id parts ids = (.ok volumes, ids')) :
    List.Forall₂ BecomesVolume (parts.map fun x => reserved policy info x.2)
      (volumes.map (·.2)) := by
  induction parts generalizing ids volumes with
  | nil =>
    obtain rfl := Except.ok.inj (Prod.mk.inj h).1
    exact .nil
  | cons part rest ih =>
    unfold createVolumes at h
    split at h
    · cases h
    · simp only at h
      split at h
      · cases h
      · next more left later =>
        obtain ⟨hvolumes, rfl⟩ := Prod.mk.inj h
        obtain rfl := Except.ok.inj hvolumes
        exact .cons ⟨_, rfl⟩ (ih later)

/-! ## Reservations -/

/-- Who holds the reservation of a task, and the labels that tell it apart. -/
def ownInfo (policy : LaunchPolicy) (id : TaskId) : ReservationInfo :=
  ⟨some policy.frameworkId, reservationLabels policy id⟩

/-- The resource is held under the reservation of a task. -/
def Held (policy : LaunchPolicy) (id : TaskId) (r : Resource Rat) : Prop :=
  r.role = policy.reservationRole ∧ r.reservation = some (ownInfo policy id)

/-- What a reservation holds for a task of a run spec: `reserve` are its fragments and `create` the
disks of its volumes. -/
structure Founded (policy : LaunchPolicy) (runSpec : RunSpec Rat) (o : Offer Rat) (t : Task)
    (reserve create : List (Resource Rat)) : Prop where
  agent : t.agent = o.agent
  resident : runSpec.isResident = true
  held : ∀ r ∈ reserve, Held policy t.id r
  bare : ∀ r ∈ reserve, r.Bare
  /-- The fragments that back no volume supply all requirements. -/
  supplied : ∃ plain backing, reserve.Perm (plain ++ backing) ∧
    List.Forall₂ BecomesVolume backing create ∧
    ∀ name ∈ Matching.scalarNames, Amount.tolerance < runSpec.totalResources.of name →
      runSpec.totalResources.of name ≤ amountOf (serves name) plain + Amount.tolerance
  gpus : ∀ r ∈ reserve, r.name = .gpus → Amount.tolerance < runSpec.totalResources.gpus
  ports : HostPorts.Suffices runSpec.portRequests (portsOf reserve)
  distinct : (portsOf reserve).Nodup
  named : ∀ r ∈ reserve, r.portRanges ≠ [] → r.name = .ports
  volumes : create.map (fun d => d.persistence.map (·.volumeId)) = t.volumeIds.map some
  created : ∀ d ∈ create, d.name = .disk ∧ Amount.tolerance < d.amount ∧ d.portRanges = []
  listed : t.volumeIds ≠ []

section

variable {policy : LaunchPolicy} {gpus : GpuPolicy} {runSpec : RunSpec Rat} {o : Offer Rat}
  {known : List Instance} {now : Timestamp} {ids ids' : IdSupply}

/-- Reserving a part changes neither its ports nor what it supplies. -/
theorem portsOf_reserved (info : ReservationInfo) (rs : List (Resource Rat)) :
    portsOf (rs.map (reserved policy info)) = portsOf rs := by
  rw [portsOf, List.flatMap_map]
  rfl

theorem amountOf_reserved (info : ReservationInfo) (name : ResourceName) (rs : List (Resource Rat)) :
    amountOf (serves name) (rs.map (reserved policy info)) = amountOf (serves name) rs :=
  amountOf_map (fun _ => rfl) fun _ => rfl

/-- The reservation that is founded on a match with new volumes. -/
theorem founded_of_drawn {m : ResourceMatch Rat} {scalars ports : List (Resource Rat)}
    {volumes : List (VolumeId × Resource Rat)} {id : TaskId} {deadline : Timestamp}
    (resident : runSpec.isResident = true) (sizes : ∀ v ∈ runSpec.volumes, 1 ≤ v.size)
    (drawn : Matching.Drawn runSpec m scalars ports)
    (created : createVolumes policy (ownInfo policy id) runSpec.id m.newVolumes ids =
      (.ok volumes, ids')) :
    Founded policy runSpec o (foundedTask runSpec o id (volumes.map (·.1)) now deadline)
      (m.resources.map (reserved policy (ownInfo policy id))) (volumes.map (·.2)) := by
  have becomes := becomesVolume_createVolumes created
  have none_scalar : portsOf scalars = [] := portsOf_eq_nil fun f hf => (drawn.served f hf).2.1
  have none_carved : portsOf (m.newVolumes.map (·.2)) = [] := by
    refine portsOf_eq_nil ?_
    intro f hf
    obtain ⟨x, hx, rfl⟩ := List.mem_map.1 hf
    exact (drawn.carved x hx).2.2.1
  have ports_of : portsOf (m.resources.map (reserved policy (ownInfo policy id))) =
      portsOf ports := by
    rw [portsOf_reserved, drawn.resources, portsOf_append, portsOf_append, none_scalar, none_carved,
      List.nil_append, List.nil_append]
  have cases_ : ∀ u ∈ m.resources, u ∈ scalars ∨ (∃ x ∈ m.newVolumes, x.2 = u) ∨ u ∈ ports := by
    intro u hu
    rw [drawn.resources, List.mem_append, List.mem_append, List.mem_map, or_assoc] at hu
    exact hu
  refine ⟨rfl, resident, ?_, ?_, ?_, ?_, ?_, ?_, ?_, ?_, ?_, ?_⟩
  · intro r hr
    obtain ⟨u, -, rfl⟩ := List.mem_map.1 hr
    exact ⟨rfl, rfl⟩
  · intro r hr
    obtain ⟨u, hu, rfl⟩ := List.mem_map.1 hr
    show u.name = .disk → u.persistence = none
    intro disk
    rcases cases_ u hu with hu | ⟨x, hx, rfl⟩ | hu
    · exact (drawn.served u hu).1 disk
    · exact (drawn.carved x hx).2.1
    · cases (drawn.valueless u hu).1.symm.trans disk
  · refine ⟨(scalars ++ ports).map (reserved policy (ownInfo policy id)),
      (m.newVolumes.map (·.2)).map (reserved policy (ownInfo policy id)), ?_, ?_, ?_⟩
    · rw [drawn.resources, ← List.map_append]
      refine List.Perm.map _ ?_
      rw [List.append_assoc, List.append_assoc]
      exact List.perm_append_comm.append_left scalars
    · rw [List.map_map]
      exact becomes
    · intro name hname large
      have no_value : amountOf (serves name) ports = 0 :=
        amountOf_eq_zero fun u hu _ => (drawn.valueless u hu).2
      rw [amountOf_reserved, amountOf_append, no_value, add_zero]
      exact drawn.supplied name hname large
  · intro r hr
    obtain ⟨u, hu, rfl⟩ := List.mem_map.1 hr
    intro gpus
    have gpus : u.name = .gpus := gpus
    rcases cases_ u hu with hu | ⟨x, hx, rfl⟩ | hu
    · obtain ⟨-, -, name, -, large, same⟩ := drawn.served u hu
      rw [← same, gpus] at large
      exact large
    · cases (drawn.carved x hx).1.symm.trans gpus
    · cases (drawn.valueless u hu).1.symm.trans gpus
  · rw [ports_of]
    exact drawn.bound
  · rw [ports_of]
    exact drawn.distinct
  · intro r hr
    obtain ⟨u, hu, rfl⟩ := List.mem_map.1 hr
    intro some_port
    rcases cases_ u hu with hu | ⟨x, hx, rfl⟩ | hu
    · exact absurd (drawn.served u hu).2.1 some_port
    · exact absurd (drawn.carved x hx).2.2.1 some_port
    · exact (drawn.valueless u hu).1
  · have named := (volumes_of_createVolumes created).1
    rw [volumeIds_foundedTask, List.map_map, List.map_map]
    exact named
  · intro d hd
    obtain ⟨f, hf, p, rfl⟩ := exists_of_forall₂ becomes hd
    obtain ⟨x, hx, rfl⟩ := List.mem_map.1 hf
    obtain ⟨hname, -, no_ports, size⟩ := drawn.carved x hx
    have asked : x.1 ∈ runSpec.volumes := drawn.complete ▸ List.mem_map_of_mem hx
    refine ⟨hname, ?_, no_ports⟩
    show Amount.tolerance < x.2.amount
    linarith [sizes x.1 asked, Amount.twice_tolerance_lt_one]
  · intro none_listed
    have same := becomes.length_eq
    have total := congrArg List.length drawn.complete
    rw [volumeIds_foundedTask] at none_listed
    rw [List.map_eq_nil_iff.1 none_listed] at same
    simp only [List.length_map, List.map_nil, List.length_nil] at same total
    rw [same] at total
    simp [RunSpec.isResident, List.eq_nil_of_length_eq_zero total.symm] at resident

/-- A decision for a new reservation founds one for the task that it records. -/
theorem founded_evaluate {additional : Nat} {consumed reserve create : List (Resource Rat)} {t : Task}
    (sizes : ∀ v ∈ runSpec.volumes, 1 ≤ v.size)
    (h : evaluate policy gpus runSpec o known additional now ids =
      (.ok (.op (.reserveAndCreate consumed reserve create (.reserve t))), ids')) :
    Founded policy runSpec o t reserve create := by
  generalize hop : InstanceOp.reserveAndCreate consumed reserve create (.reserve t) = op at h
  cases (reached_evaluate h).2 with
  | launched m ephemeral found made =>
    obtain ⟨tasks, launches⟩ := launches_of_made made
    have isLaunch := launches.isLaunch
    rw [← hop] at isLaunch
    cases isLaunch
  | relaunched => cases hop
  | reserved m volumes deadline resident room found created timed =>
    cases hop
    obtain ⟨scalars, ports, drawn⟩ := Matching.drawn_match? found
    exact founded_of_drawn resident sizes drawn created

end

end Decision

end Placement
