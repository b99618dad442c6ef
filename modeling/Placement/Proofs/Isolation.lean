/-
Reservations are kept apart.

What a decision may consume depends on what it does. A new instance and a new reservation come of
unreserved parts alone. A task that is launched on its reservation may also use parts whose labels
name the framework and the task, and the disks of its own volumes (`Decision.Isolated`).

* `Decision.eq_of_reservationLabels`: different tasks have different labels.
* `Decision.isolates_evaluate`: every operation keeps to its parts, so what has been reserved for one
  task is not consumed for another, unless it is a disk with a volume of that other task.
-/
import Placement.Proofs.Identifier
import Placement.Proofs.OrderedMap
import Placement.Proofs.Provenance
import Placement.Proofs.Relaunch

namespace Placement

open Resource

variable {α : Type}

/-! ## Labels -/

/-- Labels that include others have the same texts under their names. -/
theorem Labels.find?_of_includes {have_ wanted : Labels} (h : Labels.includes have_ wanted = true)
    {name text : String} (found : wanted.find? name = some text) : have_.find? name = some text := by
  have entry := (OrderedMap.find?_eq_some_iff wanted name text).1 found
  rw [Labels.includes, List.all_eq_true] at h
  exact beq_iff_eq.1 (h (name, text) entry)

/-- Different tasks have different texts. -/
theorem TaskId.eq_of_text {id id' : TaskId} (h : id.text = id'.text) : id = id' := by
  have read := TaskId.parse_text id
  rw [h, TaskId.parse_text id'] at read
  exact (Except.ok.inj read).symm

namespace Decision

variable {policy policy' : LaunchPolicy} {id id' : TaskId}

theorem find?_frameworkLabel (policy : LaunchPolicy) (id : TaskId) :
    (reservationLabels policy id).find? frameworkLabel = some policy.frameworkId := by
  have other : frameworkLabel ≠ taskLabel := by decide
  simp [reservationLabels, OrderedMap.find?_ofList, other.symm]

theorem find?_taskLabel (policy : LaunchPolicy) (id : TaskId) :
    (reservationLabels policy id).find? taskLabel = some id.text := by
  simp [reservationLabels, OrderedMap.find?_ofList]

/-- The labels of a reservation tell for which task it was made. -/
theorem eq_of_reservationLabels (h : reservationLabels policy id = reservationLabels policy' id') :
    id = id' := by
  have texts := find?_taskLabel policy id
  rw [h, find?_taskLabel policy' id'] at texts
  exact (TaskId.eq_of_text (Option.some.inj texts)).symm

/-! ## Parts that may be used -/

/-- The part is not reserved, and is under one of the roles. -/
def Free (roles : Roles) (u : Resource α) : Prop :=
  u.reservation = none ∧ roles.contains u.role = true

/-- The part is reserved, with labels that name the framework and a task. -/
def Labelled (policy : LaunchPolicy) (id : TaskId) (u : Resource α) : Prop :=
  ∃ info, u.reservation = some info ∧ info.labels.find? frameworkLabel = some policy.frameworkId ∧
    info.labels.find? taskLabel = some id.text

/-- The part may be used to launch a task on its reservation: it is unreserved and under the role of
reservations or one that the run spec accepts, or is reserved for the task, or is an offered disk with
one of the task's volumes. -/
def UsableFor (policy : LaunchPolicy) (runSpec : RunSpec α) (o : Offer α) (t : Task)
    (u : Resource α) : Prop :=
  (u.reservation = none ∧
      (u.role = policy.reservationRole ∨ (runSpec.roles policy.defaultRole).contains u.role = true)) ∨
    Labelled policy t.id u ∨ (u ∈ o.resources ∧ ∃ v ∈ t.volumeIds, u.carriesVolume v = true)

/-- The operation launches a known task, the only one of its instance, on its reservation. -/
def Relaunches (runSpec : RunSpec α) (known : List Instance) (op : InstanceOp α) (t : Task) : Prop :=
  (∃ i ∈ known, i.runSpecId = runSpec.id ∧ i.tasks.values = [t]) ∧ t.isReserved = true ∧
    ∃ info version condition ports,
      op = .launchTask info (.launchOnReservation t.id version condition ports)

/-- The operation consumes nothing but what it may use. -/
inductive Isolated (policy : LaunchPolicy) (runSpec : RunSpec α) (o : Offer α) (known : List Instance)
    (op : InstanceOp α) : Prop where
  /-- The launch of a new instance, or a new reservation. -/
  | fresh (new : ∀ s ∈ op.stateOps, ∃ t, s = .launchEphemeral t ∨ s = .reserve t)
      (free : ∀ u ∈ op.consumed, Free (runSpec.roles policy.defaultRole) u ∧ u.Bare)
  | relaunch (t : Task) (relaunches : Relaunches runSpec known op t)
      (usable : ∀ u ∈ op.consumed, UsableFor policy runSpec o t u)

variable {runSpec : RunSpec α} {o : Offer α}

/-- Without volumes asked for by name, an unreserved part is all that a match may use. -/
theorem free_of_fit {request : VolumeRequest α} {u : Resource α}
    (h : Matching.Fit (freeSelector policy runSpec) o request u)
    (new : ∀ ids, request ≠ .existing ids) : Free (runSpec.roles policy.defaultRole) u ∧ u.Bare := by
  rcases h with ⟨accepted, bare⟩ | ⟨ids, asked, -⟩
  · simp only [Selector.accepts, freeSelector, Bool.and_eq_true, Bool.not_eq_true', isReserved,
      Option.isSome_eq_false_iff, Option.isNone_iff_eq_none] at accepted
    exact ⟨⟨accepted.2, accepted.1⟩, bare⟩
  · exact absurd asked (new ids)

theorem usable_of_fit {t : Task} {u : Resource α}
    (h : Matching.Fit (ownSelector policy runSpec t.id) o (.existing t.volumeIds) u) :
    UsableFor policy runSpec o t u := by
  rcases h with ⟨accepted, -⟩ | ⟨ids, asked, offered, carries⟩
  · simp only [Selector.accepts, ownSelector, Bool.and_eq_true, Bool.or_eq_true, Bool.not_eq_true',
      OrderedMap.contains, OrderedMap.find?_insert, isReserved, Option.isSome_eq_false_iff,
      Option.isNone_iff_eq_none] at accepted
    obtain ⟨role, unreserved | labelled⟩ := accepted
    · refine .inl ⟨unreserved, ?_⟩
      split at role
      · next same => exact .inl same
      · exact .inr role
    · unfold Selector.labelled reservationLabels at labelled
      split at labelled
      · next labels held =>
        obtain ⟨info, reservation, rfl⟩ := Option.map_eq_some_iff.1 held
        exact .inr (.inl ⟨info, reservation,
          Labels.find?_of_includes labelled (find?_frameworkLabel policy t.id),
          Labels.find?_of_includes labelled (find?_taskLabel policy t.id)⟩)
      · cases labelled
  · obtain rfl := VolumeRequest.existing.inj asked
    exact .inr (.inr ⟨offered, carries⟩)

/-! ## Decisions -/

/-- The task that an operation makes a reservation for, and the fragments that it then holds: those
that back no volume yet, and the disks of its volumes. -/
def reservedFor? : InstanceOp α → Option (TaskId × List (Resource α))
  | .reserveAndCreate _ reserve create (.reserve t) => some (t.id, reserve ++ create)
  | _ => none

/-- Some decision reserves these fragments for the task. -/
def Reserves [Amount α] (id : TaskId) (fragments : List (Resource α)) : Prop :=
  ∃ (policy : LaunchPolicy) (gpus : GpuPolicy) (runSpec : RunSpec α) (o : Offer α)
    (known : List Instance) (additional : Nat) (now : Timestamp) (ids ids' : IdSupply)
    (op : InstanceOp α),
    evaluate policy gpus runSpec o known additional now ids = (.ok (.op op), ids') ∧
      reservedFor? op = some (id, fragments)

variable [Amount α] {gpus : GpuPolicy} {known : List Instance} {additional : Nat} {now : Timestamp}
  {ids ids' : IdSupply} {op : InstanceOp α}

/-- What is reserved for a task bears its labels. -/
theorem Reserves.labels {fragments : List (Resource α)} (h : Reserves id fragments) :
    ∃ policy : LaunchPolicy, ∀ f ∈ fragments,
      f.reservation = some ⟨some policy.frameworkId, reservationLabels policy id⟩ := by
  obtain ⟨policy, gpus, runSpec, o, known, additional, now, ids, ids', op, decided, held⟩ := h
  refine ⟨policy, ?_⟩
  cases (reached_evaluate decided).2 with
  | launched m ephemeral found made =>
    obtain ⟨tasks, launches⟩ := launches_of_made made
    cases op with
    | launchTask => cases held
    | launchGroup => cases held
    | reserveAndCreate => cases launches.isLaunch
  | relaunched => cases held
  | reserved m volumes deadline resident room found created timed =>
    obtain ⟨rfl, rfl⟩ := Prod.mk.inj (Option.some.inj held)
    intro f hf
    rcases List.mem_append.1 hf with hf | hf
    · obtain ⟨r, -, rfl⟩ := List.mem_map.1 hf
      rfl
    · obtain ⟨v, hv, rfl⟩ := List.mem_map.1 hf
      exact (volumes_of_createVolumes created).2 v hv

/-- An operation consumes what it may use. -/
theorem isolated_of_reached (h : Reached policy gpus runSpec o known now ids op ids') :
    Isolated policy runSpec o known op := by
  cases h with
  | launched m ephemeral found made =>
    obtain ⟨tasks, launches⟩ := launches_of_made made
    refine .fresh ?_ ?_
    · intro s hs
      obtain ⟨t, -, rfl, -⟩ := launches.stateOp hs
      exact ⟨t, .inl rfl⟩
    · intro u hu
      obtain ⟨r, hr, -, kind⟩ := pieces_made made u hu
      have asks : ∀ ids, (.none : VolumeRequest α) ≠ .existing ids := by simp
      obtain ⟨free, bare⟩ := free_of_fit (Matching.fit_match? found r hr) asks
      obtain ⟨-, role, reservation, -⟩ := sameKind_iff.1 kind
      exact ⟨⟨reservation.trans free.1, role ▸ free.2⟩, bare_congr kind bare⟩
  | relaunched i t m resident hi own alone waits found =>
    have reserved : t.isReserved = true := by
      simp only [waitsOn, Bool.and_eq_true] at waits
      exact waits.1.1.1
    refine .relaunch t ⟨⟨i, hi, own, alone⟩, reserved, _, _, _, _, rfl⟩ ?_
    intro u hu
    exact usable_of_fit (Matching.fit_match? found u hu)
  | reserved m volumes deadline resident room found created timed =>
    refine .fresh ?_ ?_
    · intro s hs
      exact ⟨_, .inr (List.mem_singleton.1 hs)⟩
    · intro u hu
      have asks : ∀ ids, VolumeRequest.create runSpec.volumes ≠ .existing ids := by simp
      exact free_of_fit (Matching.fit_match? found u hu) asks

/-- What is reserved for other tasks is left alone, unless it is a disk with a volume of the task that
is launched. -/
theorem Isolated.apart (h : Isolated policy runSpec o known op) {fragments : List (Resource α)}
    (reserves : Reserves id fragments) (other : ∀ s ∈ op.stateOps, s.taskId ≠ id) {f u : Resource α}
    (hf : f ∈ fragments) (hu : u ∈ op.consumed) (same : u.reservation = f.reservation) :
    ∃ t, Relaunches runSpec known op t ∧ ∃ v ∈ t.volumeIds, u.carriesVolume v = true := by
  obtain ⟨policy', labels⟩ := reserves.labels
  have held := same.trans (labels f hf)
  cases h with
  | fresh new free =>
    cases (free u hu).1.1.symm.trans held
  | relaunch t relaunches usable =>
    rcases usable u hu with ⟨unreserved, -⟩ | ⟨info, reservation, -, named⟩ | ⟨-, carries⟩
    · cases unreserved.symm.trans held
    · obtain rfl := Option.some.inj (reservation.symm.trans held)
      have texts := named.symm.trans (find?_taskLabel policy' id)
      obtain ⟨-, -, info, version, condition, ports, rfl⟩ := relaunches
      exact absurd (TaskId.eq_of_text (Option.some.inj texts)) (other _ (List.mem_singleton_self _))
    · exact ⟨t, relaunches, carries⟩

/-- Whatever is offered and known, an operation that is decided on consumes nothing but what it may
use. So nothing that has been reserved for one task, by this or another decision, is consumed for
others, except a disk with a volume of the task that is launched; for the labels of reservations tell
tasks apart. -/
theorem isolates_evaluate
    (h : evaluate policy gpus runSpec o known additional now ids = (.ok (.op op), ids')) :
    Isolated policy runSpec o known op ∧
      (∀ id (fragments : List (Resource α)), Reserves id fragments → (∀ s ∈ op.stateOps, s.taskId ≠ id) →
        ∀ f ∈ fragments, ∀ u ∈ op.consumed, u.reservation = f.reservation →
          ∃ t, Relaunches runSpec known op t ∧ ∃ v ∈ t.volumeIds, u.carriesVolume v = true) ∧
      ∀ policy₁ policy₂ id₁ id₂, id₁ ≠ id₂ →
        reservationLabels policy₁ id₁ ≠ reservationLabels policy₂ id₂ := by
  have isolated := isolated_of_reached (reached_evaluate h).2
  refine ⟨isolated, ?_, ?_⟩
  · intro id fragments reserves other f hf u hu same
    exact isolated.apart reserves other hf hu same
  · intro policy₁ policy₂ id₁ id₂ different labels
    exact different (eq_of_reservationLabels labels)

omit [Amount α] in
/-- A decision of which something is known as of an operation is one. -/
theorem exists_op {β : Type} {r : Result α} {f : InstanceOp α → Option β} {x : β}
    (h : r.1.map (fun d => d.op?.bind f) = .ok (some x)) :
    ∃ op ids, r = (.ok (.op op), ids) ∧ f op = some x := by
  obtain ⟨(fault | d), ids⟩ := r
  · cases h
  · cases d with
    | op op => exact ⟨op, ids, rfl, Except.ok.inj h⟩
    | fullyPlaced => cases h
    | mismatch reasons => cases h

end Decision

/-! ## Two reservations on one offer -/

namespace Sample

/-- A decision that makes a reservation for another instance of the run spec. -/
def otherFounding : Decision.Result Rat :=
  Decision.evaluate .usual .restricted cache cacheOffer [] 1 ⟨0, 0⟩ (.numbered ⟨6, 0⟩)

def otherId : TaskId := .forInstance cache.id (IdSupply.numbered ⟨6, 0⟩).nextId.1

def otherVolume : VolumeId :=
  { cacheVolume with uuid := (IdSupply.numbered ⟨6, 0⟩).nextUlid.2.nextUuid.1 }

/-- A resource as that reservation holds it. -/
def otherHeld (r : Resource Rat) : Resource Rat :=
  Decision.reserved .usual (Decision.ownInfo .usual otherId) r

def otherFragments : List (Resource Rat) :=
  [otherHeld (.scalar .cpus 1), otherHeld (.scalar .disk 50), otherHeld (.ports [⟨31000, 31000⟩]),
    { otherHeld (.scalar .disk 50) with disk := some ⟨.root, some ⟨otherVolume, "files"⟩⟩ }]

/-- The fragments of the other reservation come first. -/
def crowdedOffer : Offer Rat := { laterOffer with resources := otherFragments ++ laterOffer.resources }

def crowdedLaunch : Decision.Result Rat :=
  Decision.evaluate .usual .restricted cache crowdedOffer [cacheInstance] 1 ⟨60, 0⟩
    (.numbered ⟨60, 0⟩)

end Sample

/-- The launch on an offer with two reservations consumes three parts, none of the other reservation. -/
theorem isolates_evaluate_sample : ∃ op ids,
    Decision.Reserves Sample.otherId Sample.otherFragments ∧
      Sample.crowdedLaunch = (.ok (.op op), ids) ∧ op.consumed.length = 3 ∧
      Decision.Isolated .usual Sample.cache Sample.crowdedOffer [Sample.cacheInstance] op ∧
      ∀ f ∈ Sample.otherFragments, ∀ u ∈ op.consumed, u.reservation = f.reservation →
        ∃ t, Decision.Relaunches Sample.cache [Sample.cacheInstance] op t ∧
          ∃ v ∈ t.volumeIds, u.carriesVolume v = true := by
  have founded : Sample.otherFounding.1.map (fun d => d.op?.bind Decision.reservedFor?) =
      .ok (some (Sample.otherId, Sample.otherFragments)) := by
    decide +kernel
  have launched : Sample.crowdedLaunch.1.map (fun d => d.op?.bind fun op =>
      some (op.consumed.length, op.stateOps.map (·.taskId))) =
        .ok (some (3, [Sample.cacheTask.id])) := by
    decide +kernel
  have different : Sample.cacheTask.id ≠ Sample.otherId := by decide +kernel
  obtain ⟨earlier, ids₁, decided₁, held⟩ := Decision.exists_op founded
  obtain ⟨op, ids₂, decided₂, shape⟩ := Decision.exists_op launched
  obtain ⟨count, named⟩ := Prod.mk.inj (Option.some.inj shape)
  have reserves : Decision.Reserves Sample.otherId Sample.otherFragments :=
    ⟨_, _, _, _, _, _, _, _, _, earlier, decided₁, held⟩
  have other : ∀ s ∈ op.stateOps, s.taskId ≠ Sample.otherId := by
    intro s hs
    have there := List.mem_map_of_mem (f := StateOp.taskId) hs
    rw [named, List.mem_singleton] at there
    rw [there]
    exact different
  obtain ⟨isolated, apart, -⟩ := Decision.isolates_evaluate decided₂
  exact ⟨op, ids₂, reserves, decided₂, count, isolated, apart _ _ reserves other⟩

end Placement
