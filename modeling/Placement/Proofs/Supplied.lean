/-
A match takes no more than it has to, and all that it has to.

`Matching.Supplied` says what the parts of a match make up: for each scalar requirement its amount, up
to the tolerance, for each new volume a part of a disk, and for each existing one the disk that carries
it; and all of them can be put down to resources of the offer that have as much. `Matching.supplied_match?`
has it of every match.

Volumes, plain disk space and the other scalars draw on one pool. For the amounts it is enough to look
at one step at a time (`Pool.Yields`). That a mount goes whole is a law of the pool: what is left of one
is all of it or nothing (`Pool.Undivided`).

Whether a mount is whole is asked up to the tolerance. So a mount of no more than the tolerance counts as
whole also when a volume has had it, and a volume of size zero may then be backed by nothing:
`Sample.drained_mount`. Of every larger mount a volume gets all.
-/
import Placement.Proofs.Reservation
import Placement.Proofs.Shares

namespace Placement

open Resource

namespace Pool

/-! ## No more than is missing -/

section

variable {p p' : Pool Rat} {fs : List (Resource Rat)}

/-- No chunk gives more than is missing. -/
theorem drain_missing_nonneg (serves : Resource Rat → Bool) {missing : Rat} (h : 0 ≤ missing)
    (p : Pool Rat) : 0 ≤ (p.drain serves missing).1 := by
  induction p generalizing missing with
  | nil => exact h
  | cons c rest ih =>
    unfold drain
    split
    · exact h
    · simp only
      split
      · have upper := Amount.least_le_right c.remaining missing
        exact ih (by linarith)
      · exact ih h

theorem total_takeScalar?_le {s : Selector} {name : ResourceName} {amount : Rat} (h : 0 ≤ amount)
    (taken : p.takeScalar? s name amount = some (fs, p')) :
    (fs.map Resource.amount).sum ≤ amount := by
  rw [takeScalar?_eq] at taken
  split at taken
  · cases taken
  · obtain ⟨rfl, -⟩ := Prod.mk.inj (Option.some.inj taken)
    have first := drain_taken (usable s name true) amount p
    have missing := drain_missing_nonneg (usable s name true) h p
    generalize p.drain (usable s name true) amount = reserved at first missing ⊢
    have second := drain_taken (usable s name false) reserved.1 reserved.2.2
    have left := drain_missing_nonneg (usable s name false) missing reserved.2.2
    rw [List.map_append, List.sum_append]
    linarith

end

/-! ## New volumes -/

/-- The part `f` of the resource makes the volume: it is of its size or, of a mount, all that is left.
That is the whole resource; only of a mount of no more than the tolerance may it be nothing. -/
structure Carved (v : PersistentVolume Rat) (r f : Resource Rat) : Prop where
  part : f = r.withValue (.scalar f.amount)
  disk : r.name = .disk
  source : r.diskSource.type = v.diskType
  unreserved : r.isReserved = false
  empty : r.persistence = none
  exact_size : v.diskType ≠ .mount → f.amount = v.size
  whole : v.diskType = .mount → v.size ≤ f.amount + Amount.tolerance ∧
    (f.amount = r.amount ∨ f.amount = 0 ∧ r.amount ≤ Amount.tolerance)

/-- What is left of a mount is all of it or nothing. -/
def Undivided (p : Pool Rat) : Prop :=
  ∀ c ∈ p, c.resource.diskSource.type = .mount →
    c.remaining = c.resource.amount ∨ c.remaining = 0

theorem undivided_ofResources (rs : List (Resource Rat)) : Undivided (ofResources rs) := by
  intro c hc _
  obtain ⟨r, -, rfl⟩ := List.mem_map.1 hc
  exact .inl rfl

section

variable {s : Selector} {p p' : Pool Rat}

theorem exact_takeVolume? {v : PersistentVolume Rat} {f : Resource Rat} (before : Undivided p)
    (h : p.takeVolume? s v = some (f, p')) :
    (∃ r ∈ p.map Chunk.resource, Carved v r f) ∧ Undivided p' ∧
      p'.map Chunk.resource = p.map Chunk.resource := by
  obtain ⟨first, c, others, rfl, fits, rfl, rfl⟩ := takeVolume?_eq_some h
  simp only [fitsVolume, eligible, Bool.and_eq_true, Bool.or_eq_true, beq_iff_eq, bne_iff_ne,
    decide_eq_true_eq, Option.isNone_iff_eq_none] at fits
  obtain ⟨⟨⟨⟨⟨⟨hname, -⟩, unreserved⟩, empty⟩, source⟩, room⟩, untouched⟩ := fits
  have hc : c ∈ first ++ c :: others := by simp
  refine ⟨⟨c.resource, List.mem_map_of_mem hc, rfl, hname, source, unreserved, empty, ?_, ?_⟩, ?_, ?_⟩
  · intro divisible
    show volumePart v c = v.size
    rw [volumePart, if_neg (by simpa using divisible)]
  · intro mount
    have all : volumePart v c = c.remaining := by rw [volumePart, if_pos (by simp [mount])]
    have near := untouched.resolve_left (fun other => other mount)
    show v.size ≤ volumePart v c + _ ∧ (volumePart v c = _ ∨ volumePart v c = 0 ∧ _)
    rw [all]
    refine ⟨room, (before c hc (source.trans mount)).imp_right fun gone => ⟨gone, ?_⟩⟩
    simp only [Amount.isNear, Bool.and_eq_true, decide_eq_true_eq] at near
    linarith [near.2]
  · intro d hd isMount
    rcases List.mem_append.1 hd with hd | hd
    · exact before d (List.mem_append_left _ hd) isMount
    · rcases List.mem_cons.1 hd with rfl | hd
      · -- The chunk that the volume is carved from is a mount only if the volume takes it whole.
        have mount : v.diskType = .mount := source.symm.trans isMount
        refine .inr ?_
        show c.remaining - volumePart v c = 0
        rw [volumePart, if_pos (by simp [mount]), sub_self]
      · exact before d (List.mem_append_right _ (List.mem_cons_of_mem c hd)) isMount
  · simp

theorem exact_takeVolumes (vs : List (PersistentVolume Rat)) (before : Undivided p) :
    ∀ x ∈ (p.takeVolumes s vs).1, ∃ r ∈ p.map Chunk.resource, Carved x.1 r x.2 := by
  induction vs generalizing p with
  | nil => simp [takeVolumes]
  | cons v rest ih =>
    unfold takeVolumes
    split
    · next f p' taken =>
      obtain ⟨carved, undivided, resources⟩ := exact_takeVolume? before taken
      intro x hx
      rcases List.mem_cons.1 hx with rfl | hx
      · exact carved
      · rw [← resources]
        exact ih undivided x hx
    · exact ih before

end

/-! ## Existing volumes -/

theorem forall₂_of_mapM {α β : Type} {f : α → Option β} {l : List α} {bs : List β}
    (h : l.mapM f = some bs) : List.Forall₂ (fun a b => f a = some b) l bs := by
  induction l generalizing bs with
  | nil =>
    obtain rfl := Option.some.inj h
    exact .nil
  | cons a rest ih =>
    rw [List.mapM_cons] at h
    obtain ⟨b, hb, h⟩ := Option.bind_eq_some_iff.1 h
    obtain ⟨bs', hbs', h⟩ := Option.bind_eq_some_iff.1 h
    obtain rfl := Option.some.inj h
    exact .cons hb (ih hbs')

end Pool

namespace Matching

open Pool

/-! ## Requirements -/

/-- The parts of the name make up what is required of it, up to the tolerance. For so little that it is
within the tolerance there are none. -/
structure MakesUp (required : Requirements Rat) (fs : List (Resource Rat)) (name : ResourceName) :
    Prop where
  none_needed : required.of name ≤ Amount.tolerance → amountOf (·.name == name) fs = 0
  enough : Amount.tolerance < required.of name →
    required.of name - Amount.tolerance ≤ amountOf (·.name == name) fs
  no_more : Amount.tolerance < required.of name →
    amountOf (·.name == name) fs ≤ required.of name

section

variable {s : Selector} {required : Requirements Rat} {names : List ResourceName}
  {reasons : List MismatchReason} {p : Pool Rat}

/-- Parts are of the names that they were taken for, and serve these. -/
theorem serves_of_partsOf {fs : List (Resource Rat)} {test : ResourceName → Prop}
    (h : PartsOf p (fun r => ∃ name ∈ names, test name ∧ r.serves name = true) fs) :
    ∀ f ∈ fs, f.name ∈ names ∧ test f.name ∧ f.serves f.name = true := by
  intro f hf
  obtain ⟨-, c, -, ⟨name, hname, passes, hserves⟩, hslice⟩ := h f hf
  have same : f.name = name := by
    rw [hslice]
    exact name_of_serves hserves
  rw [same]
  refine ⟨hname, passes, ?_⟩
  rw [hslice]
  exact hserves

theorem amountOf_name_eq_zero {fs : List (Resource Rat)} {name : ResourceName}
    (h : ∀ f ∈ fs, f.name ≠ name) : amountOf (·.name == name) fs = 0 :=
  amountOf_eq_zero fun f hf passes => absurd (beq_iff_eq.1 passes) (h f hf)

/-- No more is taken for a name than is required of it. -/
theorem amountOf_takeScalars_le (distinct : names.Nodup)
    (met : (takeScalars s required reasons names p).2.1 = []) :
    ∀ name ∈ names, Amount.tolerance < required.of name →
      amountOf (·.name == name) (takeScalars s required reasons names p).1 ≤ required.of name := by
  have tol := Amount.tolerance_pos
  induction names generalizing reasons p with
  | nil => simp
  | cons name rest ih =>
    obtain ⟨unlike, distinct⟩ := List.nodup_cons.1 distinct
    intro other hother large
    by_cases small : required.of name ≤ Amount.tolerance
    · simp only [takeScalars, if_pos small] at met ⊢
      rcases List.mem_cons.1 hother with rfl | hother
      · exact absurd large (not_lt.2 small)
      · exact ih distinct met other hother large
    · cases taken : p.takeScalar? s name (required.of name) with
      | none =>
        simp only [takeScalars, if_neg small, taken] at met
        exact absurd (reasons_of_takeScalars met) (addReason_ne_nil _ _)
      | some result =>
        obtain ⟨first, mid⟩ := result
        simp only [takeScalars, if_neg small, taken] at met ⊢
        have named : ∀ f ∈ first, f.name = name := by
          intro f hf
          obtain ⟨-, c, -, hserves, hslice⟩ := (supply_of_takeScalar? taken).2 f hf
          rw [hslice]
          exact name_of_serves hserves
        rw [amountOf_append]
        rcases List.mem_cons.1 hother with rfl | hother
        · have later : amountOf (·.name == other)
              (takeScalars s required reasons rest mid).1 = 0 := by
            refine amountOf_name_eq_zero fun f hf same => ?_
            exact unlike (same ▸ (serves_of_partsOf (supply_of_takeScalars met).2 f hf).1)
          have all : first.filter (·.name == other) = first :=
            List.filter_eq_self.2 fun f hf => beq_iff_eq.2 (named f hf)
          have upper := total_takeScalar?_le (by linarith) taken
          rw [later, add_zero, amountOf, all]
          exact upper
        · have here : amountOf (·.name == other) first = 0 :=
            amountOf_name_eq_zero fun f hf same => unlike ((named f hf).symm.trans same ▸ hother)
          rw [here, zero_add]
          exact ih distinct met other hother large

/-- What is taken for requirements that are all met makes each of them up. -/
theorem makesUp_takeScalars (distinct : names.Nodup)
    (met : (takeScalars s required reasons names p).2.1 = []) :
    ∀ name ∈ names, MakesUp required (takeScalars s required reasons names p).1 name := by
  obtain ⟨supplied, parts⟩ := supply_of_takeScalars met
  have serve := serves_of_partsOf parts
  intro name hname
  refine ⟨?_, ?_, amountOf_takeScalars_le distinct met name hname⟩
  · intro small
    exact amountOf_name_eq_zero fun f hf same => not_lt.2 small (same ▸ (serve f hf).2.1)
  · intro large
    have same : amountOf (·.name == name) (takeScalars s required reasons names p).1 =
        amountOf (serves name) (takeScalars s required reasons names p).1 := by
      refine amountOf_congr fun f hf => ?_
      rw [Bool.eq_iff_iff, beq_iff_eq]
      constructor
      · rintro rfl
        exact (serve f hf).2.2
      · intro hserves
        exact name_of_serves hserves
    have enough := supplied name hname large
    rw [same]
    linarith

end

end Matching

/-! ## Requests for volumes -/

namespace VolumeRequest

/-- The volumes that are to be carved. -/
def toCreate : VolumeRequest Rat → List (PersistentVolume Rat)
  | .create volumes => volumes
  | _ => []

/-- The volumes that are to be found. -/
def toFind : VolumeRequest Rat → List VolumeId
  | .existing ids => ids
  | _ => []

end VolumeRequest

namespace Matching

open Pool

/-- What is taken for a request that is met: each new volume is carved, in the order in which they are
declared, and each existing one comes with the disk that carries it. -/
structure Fulfils (o : Offer Rat) (request : VolumeRequest Rat) (existing : List (Resource Rat))
    (created : List (PersistentVolume Rat × Resource Rat)) : Prop where
  declared : created.map (·.1) = request.toCreate
  carved : ∀ x ∈ created, ∃ r ∈ o.resources, Carved x.1 r x.2
  found : List.Forall₂ (fun id r => r ∈ o.resources ∧ r.carriesVolume id = true)
    request.toFind existing

theorem fulfils_takeVolumes {s : Selector} {o : Offer Rat} {request : VolumeRequest Rat}
    (met : (takeVolumes s (ofResources o.resources) request).reasons = []) :
    Fulfils o request (takeVolumes s (ofResources o.resources) request).existing
      (takeVolumes s (ofResources o.resources) request).created := by
  unfold takeVolumes at met ⊢
  split at met
  · exact ⟨rfl, by simp, .nil⟩
  · next volumes =>
    have all : ((ofResources o.resources).takeVolumes s volumes).2.1 = true := by
      by_contra missing
      simp [missing] at met
    refine ⟨(Pool.carved_takeVolumes s volumes _).1 all, ?_, .nil⟩
    have exact_parts := @exact_takeVolumes s _ volumes (undivided_ofResources o.resources)
    rwa [resources_ofResources] at exact_parts
  · next ids =>
    split at met
    · next rs p taken =>
      obtain ⟨rs', found, heq⟩ := Option.map_eq_some_iff.1 taken
      obtain ⟨rfl, -⟩ := Prod.mk.inj heq
      refine ⟨rfl, by simp, (forall₂_of_mapM found).imp ?_⟩
      intro id r hr
      obtain ⟨carries, c, hc, rfl, -⟩ := resourceOfVolume?_eq_some hr
      exact ⟨resources_ofResources o.resources ▸ List.mem_map_of_mem hc, carries⟩
    · cases met

/-! ## Matches -/

/-- The parts of a match: `existing` for volumes that are found, `plain` for the requirements, those of
new volumes, and `ports`, which have no amount. -/
structure Supplied (o : Offer Rat) (runSpec : RunSpec Rat) (request : VolumeRequest Rat)
    (m : ResourceMatch Rat) (existing plain ports : List (Resource Rat)) : Prop where
  resources : m.resources = existing ++ plain ++ m.newVolumes.map (·.2) ++ ports
  ports : ∀ u ∈ ports, ∃ ranges, u.value = .ranges ranges
  attributed : Attributed o.resources (existing ++ plain ++ m.newVolumes.map (·.2))
  makesUp : ∀ name ∈ scalarNames, MakesUp runSpec.totalResources plain name
  fulfils : Fulfils o request existing m.newVolumes

/-- A match conserves the offer and suffices for the run spec, whatever volumes it has to provide, as
long as existing ones are asked for once. -/
theorem supplied_match? {gpus : GpuPolicy} {o : Offer Rat} {runSpec : RunSpec Rat}
    {known : List Instance} {s : Selector} {request : VolumeRequest Rat} {m : ResourceMatch Rat}
    (nonneg : ∀ r ∈ o.resources, 0 ≤ r.amount)
    (distinct : ∀ ids, request = .existing ids → ids.Nodup)
    (h : match? gpus o runSpec known s request = .ok m) :
    ∃ existing plain ports, Supplied o runSpec request m existing plain ports := by
  obtain ⟨volumes, scalars, pool, hvolumes, hscalars, -, resources, created, met⟩ := match?_eq_ok h
  rw [hscalars] at met
  have fulfils : Fulfils o request volumes.existing volumes.created := by
    have volumes_met := reasons_of_takeScalars met
    rw [hvolumes] at volumes_met ⊢
    exact fulfils_takeVolumes volumes_met
  have makesUp := makesUp_takeScalars (by decide) met
  have yields := (hvolumes ▸ yields_takeVolumes s o distinct).trans
    (yields_takeScalars s runSpec.totalResources scalarNames volumes.reasons volumes.pool)
  rw [← hscalars] at makesUp yields
  refine ⟨volumes.existing, scalars.1, pool.consumedPorts, ⟨?_, ?_, ?_, makesUp, created ▸ fulfils⟩⟩
  · rw [resources, created]
  · intro u hu
    obtain ⟨c, -, -, rfl⟩ := mem_consumedPorts.1 hu
    exact ⟨_, rfl⟩
  · obtain ⟨shares, whole, each⟩ := yields.attributed nonneg
    refine ⟨shares, List.Perm.trans ?_ whole, each⟩
    rw [created, List.append_assoc, List.append_assoc]
    exact List.perm_append_comm.append_left volumes.existing

end Matching

namespace Sample

/-- An instance needs a processor and some disk space beside its volumes. -/
def archive : RunSpec Rat :=
  { RunSpec.ofId ⟨"/archive", by decide⟩ 1 ⟨0, 0⟩ with resources := ⟨1, 0, 20, 0⟩ }

/-- One volume shares the root disk with the plain space, the other has a mount for itself. -/
def archiveVolumes : List (PersistentVolume Rat) := [⟨"files", 50, .root⟩, ⟨"log", 400, .mount⟩]

/-- The processor has to be put together of two resources. -/
def archiveOffer : Offer Rat where
  id := ⟨.ofNat 4⟩
  agentId := ⟨.ofNat 2⟩
  hostname := "host"
  attributes := ∅
  resources := [.scalar .cpus (1 / 2), .scalar .cpus 2, .ofDisk 100 .root,
    .ofDisk 500 (.mount "/log")]

end Sample

theorem Matching.supplied_match?_sample : ∃ m,
    match? .restricted Sample.archiveOffer Sample.archive [] ⟨Roles.ofList ["*"], .unreserved⟩
        (.create Sample.archiveVolumes) = .ok m ∧
      m.resources.map (fun f => (f.name, f.amount)) =
        [(.cpus, 1 / 2), (.cpus, 1 / 2), (.disk, 20), (.disk, 50), (.disk, 500)] ∧
      ∃ existing plain ports, Supplied Sample.archiveOffer Sample.archive
        (.create Sample.archiveVolumes) m existing plain ports := by
  have outcome : (match? .restricted Sample.archiveOffer Sample.archive []
      ⟨Roles.ofList ["*"], .unreserved⟩ (.create Sample.archiveVolumes)).map
        (fun m => m.resources.map fun f => (f.name, f.amount)) =
      .ok [(.cpus, 1 / 2), (.cpus, 1 / 2), (.disk, 20), (.disk, 50), (.disk, 500)] := by
    decide +kernel
  cases hm : match? .restricted Sample.archiveOffer Sample.archive []
      ⟨Roles.ofList ["*"], .unreserved⟩ (.create Sample.archiveVolumes) with
  | error reasons =>
    rw [hm] at outcome
    cases outcome
  | ok m =>
    rw [hm] at outcome
    exact ⟨m, rfl, Except.ok.inj outcome, supplied_match? (by decide +kernel) nofun hm⟩

namespace Sample

/-- An instance that needs nothing but its volumes. -/
def marker : RunSpec Rat := RunSpec.ofId ⟨"/marker", by decide⟩ 1 ⟨0, 0⟩

def markerVolumes : List (PersistentVolume Rat) := [⟨"begun", 0, .mount⟩, ⟨"done", 0, .mount⟩]

/-- The one mount has half of the tolerance. -/
def markerOffer : Offer Rat :=
  { archiveOffer with resources := [.ofDisk (1 / 2000000) (.mount "/marks")] }

/-- The first volume takes the mount, and the second one is backed by what is left, which is nothing and
not a whole resource of the offer. -/
theorem drained_mount :
    (∀ r ∈ markerOffer.resources, 0 ≤ r.amount) ∧ (∀ v ∈ markerVolumes, 0 ≤ v.size) ∧
      (∀ name ∈ Matching.scalarNames, 0 ≤ marker.totalResources.of name) ∧
      ∃ m, Matching.match? .restricted markerOffer marker [] ⟨Roles.ofList ["*"], .unreserved⟩
          (.create markerVolumes) = .ok m ∧
        m.newVolumes.map (fun x => (x.1, x.2.amount)) =
          [(⟨"begun", 0, .mount⟩, 1 / 2000000), (⟨"done", 0, .mount⟩, 0)] ∧
        ∃ x ∈ m.newVolumes, x.1.diskType = .mount ∧
          ∀ r ∈ markerOffer.resources, x.2.amount ≠ r.amount := by
  refine ⟨by decide +kernel, by decide +kernel, by decide +kernel, ?_⟩
  have outcome : (Matching.match? .restricted markerOffer marker []
      ⟨Roles.ofList ["*"], .unreserved⟩ (.create markerVolumes)).map
        (·.newVolumes.map fun x => (x.1, x.2.amount)) =
      .ok [(⟨"begun", 0, .mount⟩, 1 / 2000000), (⟨"done", 0, .mount⟩, 0)] := by
    decide +kernel
  cases hm : Matching.match? .restricted markerOffer marker []
      ⟨Roles.ofList ["*"], .unreserved⟩ (.create markerVolumes) with
  | error reasons =>
    rw [hm] at outcome
    cases outcome
  | ok m =>
    rw [hm] at outcome
    have parts : m.newVolumes.map (fun x => (x.1, x.2.amount)) = _ := Except.ok.inj outcome
    have second : ((⟨"done", 0, .mount⟩ : PersistentVolume Rat), (0 : Rat)) ∈
        m.newVolumes.map fun x => (x.1, x.2.amount) := by
      rw [parts]
      exact List.mem_cons_of_mem _ List.mem_cons_self
    obtain ⟨x, hx, heq⟩ := List.mem_map.1 second
    obtain ⟨volume, nothing⟩ := Prod.mk.inj heq
    refine ⟨m, rfl, parts, x, hx, by rw [volume], ?_⟩
    rw [nothing]
    decide +kernel

end Sample

end Placement
