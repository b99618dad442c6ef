/-
A reservation on an offer can mask another one: only the first that is listed is looked at.

* `Matching.match?_perm`: a match does not depend on the order of the known instances.
* `Decision.first?` is the waiting task that a decision is taken on, the first in the order of the known
  instances; `Decision.Wants.evaluate_eq` puts a decision in terms of it.
* `Decision.resumes_in_every_order`: a launch on a reservation comes of every order of the known
  instances exactly if the offer matches all the tasks that wait on it; and if it matches all or none of
  them, whether an operation comes of it does not depend on the order.

`Sample.masked_twin` shows that it depends on the order otherwise.
-/
import Placement.Proofs.Founding
import Placement.Proofs.Ports

namespace Placement

variable {α : Type}

/-! ## Matches in any order of the known instances -/

namespace HostPorts

variable {s : Selector} {excluded excluded' : List Port}

/-- Of the ports that are not to be used, their order and how often they are listed do not count. -/
theorem isFree_congr (same : ∀ port, port ∈ excluded ↔ port ∈ excluded') (p : Pool α) :
    isFree excluded p = isFree excluded' p := by
  funext port
  have contains : excluded.contains port = excluded'.contains port := by
    rw [Bool.eq_iff_iff, List.contains_iff_mem, List.contains_iff_mem, same]
  rw [isFree, isFree, contains]

theorem takeFixed?_congr (same : ∀ port, port ∈ excluded ↔ port ∈ excluded')
    (requests : List HostPort) (p : Pool α) :
    takeFixed? s excluded requests p = takeFixed? s excluded' requests p := by
  induction requests generalizing p with
  | nil => rfl
  | cons request rest ih =>
    cases request with
    | fixed port =>
      have later : (takeFixed? s excluded rest : Pool α → _) = takeFixed? s excluded' rest := funext ih
      simp only [takeFixed?, takeFree?, isFree_congr same p, later]
    | _ => exact ih p

theorem bind?_congr (same : ∀ port, port ∈ excluded ↔ port ∈ excluded') (requests : List HostPort)
    (p : Pool α) : bind? s excluded requests p = bind? s excluded' requests p := by
  induction requests generalizing p with
  | nil => rfl
  | cons request rest ih =>
    have later : (bind? s excluded rest : Pool α → _) = bind? s excluded' rest := funext ih
    cases request <;> simp only [bind?, isFree_congr same p, later]

theorem assign?_congr (same : ∀ port, port ∈ excluded ↔ port ∈ excluded') (requests : List HostPort)
    (p : Pool α) : assign? s excluded requests p = assign? s excluded' requests p := by
  have bound : (bind? s excluded requests : Pool α → _) = bind? s excluded' requests :=
    funext (bind?_congr same requests)
  rw [assign?, assign?, takeFixed?_congr same, bound]

end HostPorts

variable [Amount α]

namespace Matching

/-- The order of the known instances does not count. -/
theorem match?_perm {gpus : GpuPolicy} {o : Offer α} {runSpec : RunSpec α} {known known' : List Instance}
    (perm : known'.Perm known) (s : Selector) (request : VolumeRequest α) :
    match? gpus o runSpec known' s request = match? gpus o runSpec known s request := by
  have same : ∀ port, port ∈ HostPorts.inUse o.agentId known' ↔
      port ∈ HostPorts.inUse o.agentId known := by
    intro port
    simp only [HostPorts.mem_inUse, perm.mem_iff]
  unfold match?
  simp only [HostPorts.assign?_congr same]

end Matching

namespace Decision

variable {policy : LaunchPolicy} {gpus : GpuPolicy} {runSpec : RunSpec α} {o : Offer α}
  {known known' : List Instance} {additional : Nat} {now : Timestamp} {ids : IdSupply} {t u : Task}

/-! ## The task that is looked at -/

/-- A launch of the run spec is asked for and an instance of it is missing; it is resident, and those of
its instances that wait on reservations have one task each. -/
structure Wants (runSpec : RunSpec α) (known : List Instance) (additional : Nat) : Prop where
  resident : runSpec.isResident = true
  single : runSpec.isPod = false
  alone : ∀ i ∈ known, i.runSpecId = runSpec.id → i.hasReservedTask = true → i.tasks.size = 1
  missing : ((known.filter fun i => i.runSpecId == runSpec.id).filter (·.isPlaced)).length <
    runSpec.instances
  asked : 1 ≤ additional

/-- The tasks of the instances of a run spec that wait on reservations. -/
def waiting (known : List Instance) (id : RunSpecId) : List Task :=
  ((known.filter fun i => i.runSpecId == id).filter (·.hasReservedTask)).flatMap (·.tasks.values)

/-- The waiting task that a decision is taken on. -/
def first? (o : Offer α) (known : List Instance) (id : RunSpecId) : Option Task :=
  (waiting known id).find? (waitsOn o)

/-- The offer has the reservation of the task. -/
def Carries (o : Offer α) (known : List Instance) (id : RunSpecId) (t : Task) : Prop :=
  t ∈ waiting known id ∧ waitsOn o t = true

/-- The offer matches the launch of the task on its reservation. -/
def Accepts (policy : LaunchPolicy) (gpus : GpuPolicy) (runSpec : RunSpec α) (o : Offer α)
    (known : List Instance) (t : Task) : Prop :=
  ∃ m, Matching.match? gpus o runSpec known (ownSelector policy runSpec t.id)
    (.existing t.volumeIds) = .ok m

/-- A decision is that for the first waiting task, or on a new reservation if there is none. -/
theorem Wants.evaluate_eq (wants : Wants runSpec known additional) :
    evaluate policy gpus runSpec o known additional now ids =
      match first? o known runSpec.id with
      | some t => (launchOnReservation policy gpus runSpec o known t now, ids)
      | none =>
        if runSpec.instances ≤
            ((known.filter fun i => i.runSpecId == runSpec.id).filter (·.isPlaced)).length +
              ((known.filter fun i => i.runSpecId == runSpec.id).filter (·.hasReservedTask)).length then
          (.ok (.mismatch [.noCorrespondingReservationFound]), ids)
        else foundReservation policy gpus runSpec o known now ids :=
  evaluate_of_missing wants.resident wants.single wants.alone wants.missing wants.asked

omit [Amount α] in
theorem carries_of_first? (h : first? o known runSpec.id = some t) : Carries o known runSpec.id t :=
  ⟨List.mem_of_find?_eq_some h, List.find?_some h⟩

omit [Amount α] in
theorem exists_first? (h : Carries o known runSpec.id t) : ∃ u, first? o known runSpec.id = some u :=
  Option.isSome_iff_exists.1 (List.find?_isSome.2 ⟨t, h.1, h.2⟩)

/-! ## Other orders -/

omit [Amount α] in
theorem Wants.of_perm (wants : Wants runSpec known additional) (perm : known'.Perm known) :
    Wants runSpec known' additional where
  resident := wants.resident
  single := wants.single
  alone i hi := wants.alone i (perm.mem_iff.1 hi)
  missing := by
    rw [((perm.filter _).filter _).length_eq]
    exact wants.missing
  asked := wants.asked

omit [Amount α] in
theorem carries_perm (perm : known'.Perm known) :
    Carries o known' runSpec.id t ↔ Carries o known runSpec.id t :=
  and_congr_left fun _ => (((perm.filter _).filter _).flatMap_right _).mem_iff

theorem accepts_perm (perm : known'.Perm known) :
    Accepts policy gpus runSpec o known' t ↔ Accepts policy gpus runSpec o known t := by
  rw [Accepts, Accepts, Matching.match?_perm perm]

omit [Amount α] in
/-- Any of the waiting tasks is the first in some order. -/
theorem exists_perm_first? (wants : Wants runSpec known additional)
    (carries : Carries o known runSpec.id t) :
    ∃ known', known'.Perm known ∧ first? o known' runSpec.id = some t := by
  obtain ⟨member, waits⟩ := carries
  obtain ⟨i, hi, ht⟩ := List.mem_flatMap.1 member
  obtain ⟨hi, reserved⟩ := List.mem_filter.1 hi
  obtain ⟨hi, own⟩ := List.mem_filter.1 hi
  have alone : i.tasks.values = [t] := by
    have size : i.tasks.values.length = 1 := by
      rw [OrderedMap.values, List.length_map]
      exact wants.alone i hi (beq_iff_eq.1 own) reserved
    obtain ⟨u, hu⟩ := List.length_eq_one_iff.1 size
    rw [hu, List.mem_singleton] at ht
    rw [hu, ht]
  refine ⟨i :: known.erase i, (List.perm_cons_erase hi).symm, ?_⟩
  simp only [first?, waiting, List.filter_cons, own, reserved, if_true, List.flatMap_cons, alone,
    List.singleton_append, List.find?_cons_of_pos waits]

/-! ## What comes of it -/

/-- A task is launched on its reservation, one of those that the offer has. -/
def Resumes (policy : LaunchPolicy) (gpus : GpuPolicy) (runSpec : RunSpec α) (o : Offer α)
    (known : List Instance) (additional : Nat) (now : Timestamp) (ids : IdSupply) : Prop :=
  ∃ t info ports, Carries o known runSpec.id t ∧
    evaluate policy gpus runSpec o known additional now ids =
      (.ok (.op (.launchTask info
        (.launchOnReservation t.id runSpec.version (.fresh .created now) ports))), ids)

/-- Some operation comes of the offer. -/
def Operates (policy : LaunchPolicy) (gpus : GpuPolicy) (runSpec : RunSpec α) (o : Offer α)
    (known : List Instance) (additional : Nat) (now : Timestamp) (ids : IdSupply) : Prop :=
  ∃ op ids', evaluate policy gpus runSpec o known additional now ids = (.ok (.op op), ids')

theorem Resumes.operates
    (h : Resumes policy gpus runSpec o known additional now ids) :
    Operates policy gpus runSpec o known additional now ids := by
  obtain ⟨t, info, ports, -, decided⟩ := h
  exact ⟨_, _, decided⟩

/-- The launch of the first waiting task, if the offer matches it. -/
theorem Wants.resumes_of_first (wants : Wants runSpec known additional)
    (first : first? o known runSpec.id = some t)
    (accepts : Accepts policy gpus runSpec o known t) :
    Resumes policy gpus runSpec o known additional now ids := by
  obtain ⟨m, found⟩ := accepts
  refine ⟨t, taskInfo runSpec o t.id none m.resources m.hostPorts, m.assignedPorts,
    carries_of_first? first, ?_⟩
  rw [wants.evaluate_eq, first]
  simp only [launchOnReservation_of_match found]

/-- Nothing comes of the offer if it does not match the first waiting task. -/
theorem Wants.not_operates_of_first (wants : Wants runSpec known additional)
    (first : first? o known runSpec.id = some t)
    (refuses : ¬ Accepts policy gpus runSpec o known t) :
    ¬ Operates policy gpus runSpec o known additional now ids := by
  rintro ⟨op, ids', decided⟩
  rw [wants.evaluate_eq, first] at decided
  have launched := (Prod.mk.inj decided).1
  unfold launchOnReservation at launched
  simp only at launched
  split at launched
  · cases launched
  · next m found => exact refuses ⟨m, found⟩

/-- Without a reservation on the offer, the order of the known instances does not count. -/
theorem Wants.evaluate_perm (wants : Wants runSpec known additional) (perm : known'.Perm known)
    (nothing : first? o known runSpec.id = none) :
    evaluate policy gpus runSpec o known' additional now ids =
      evaluate policy gpus runSpec o known additional now ids := by
  have nothing' : first? o known' runSpec.id = none := by
    rw [first?, List.find?_eq_none] at nothing ⊢
    intro t ht
    exact nothing t ((((perm.filter _).filter _).flatMap_right _).mem_iff.1 ht)
  have founded : foundReservation policy gpus runSpec o known' now ids =
      foundReservation policy gpus runSpec o known now ids := by
    unfold foundReservation
    simp only [Matching.match?_perm perm]
  rw [(wants.of_perm perm).evaluate_eq, wants.evaluate_eq, nothing, nothing']
  simp only [((perm.filter _).filter _).length_eq, founded]

/-- The first waiting task decides, whatever waits behind it. So a launch on a reservation comes of every
order of the known instances exactly if the offer matches all tasks that wait on it, and whether an
operation comes of the offer does not depend on the order if it matches all of them or none. -/
theorem resumes_in_every_order (wants : Wants runSpec known additional) :
    (∀ t, Carries o known runSpec.id t →
      ((∀ known', known'.Perm known →
          Resumes policy gpus runSpec o known' additional now ids) ↔
        ∀ u, Carries o known runSpec.id u → Accepts policy gpus runSpec o known u)) ∧
    ((∀ t u, Carries o known runSpec.id t → Carries o known runSpec.id u →
        Accepts policy gpus runSpec o known t → Accepts policy gpus runSpec o known u) →
      ∀ known', known'.Perm known →
        (Operates policy gpus runSpec o known' additional now ids ↔
          Operates policy gpus runSpec o known additional now ids)) := by
  refine ⟨fun t carries => ⟨fun every u carries' => ?_, fun accepts known' perm => ?_⟩, ?_⟩
  · -- A task that is not matched masks the others where it stands first.
    by_contra refuses
    obtain ⟨known', perm, first⟩ := exists_perm_first? wants carries'
    exact (wants.of_perm perm).not_operates_of_first first (mt (accepts_perm perm).1 refuses)
      (every known' perm).operates
  · obtain ⟨u, first⟩ := exists_first? ((carries_perm perm).2 carries)
    have matched := accepts u ((carries_perm perm).1 (carries_of_first? first))
    exact (wants.of_perm perm).resumes_of_first first ((accepts_perm perm).2 matched)
  · intro agree known' perm
    cases first : first? o known runSpec.id with
    | none =>
      rw [Operates, Operates, wants.evaluate_perm perm first]
    | some t =>
      have carries := carries_of_first? first
      obtain ⟨u, first'⟩ := exists_first? ((carries_perm perm).2 carries)
      have carries' := (carries_perm perm).1 (carries_of_first? first')
      by_cases accepts : Accepts policy gpus runSpec o known t
      · have accepts' := (accepts_perm perm).2 (agree t u carries carries' accepts)
        exact iff_of_true ((wants.of_perm perm).resumes_of_first first' accepts').operates
          (wants.resumes_of_first first accepts).operates
      · have refuses' := mt (accepts_perm perm).1 (mt (agree u t carries' carries) accepts)
        exact iff_of_false ((wants.of_perm perm).not_operates_of_first first' refuses')
          (wants.not_operates_of_first first accepts)

end Decision

/-! ## Two reservations on one agent -/

namespace Sample

/-- Two instances without ports. -/
def twins : RunSpec Rat := { Sample.cache with instances := 2, ports := [] }

def twinVolume (number : Nat) : VolumeId := { Sample.cacheVolume with uuid := .ofNat number }

/-- A task that waits on its reservation. -/
def twinTask (number : Nat) : Task :=
  Decision.foundedTask twins Sample.cacheOffer (.forInstance twins.id ⟨.ofNat number⟩)
    [twinVolume number] ⟨0, 0⟩ ⟨300, 0⟩

def twin (number : Nat) : Instance :=
  { Sample.cacheInstance with
    id := (twinTask number).instanceId
    tasks := .ofList [((twinTask number).id, twinTask number)] }

def twinHeld (number : Nat) (r : Resource Rat) : Resource Rat :=
  Decision.reserved .usual (Decision.ownInfo .usual (twinTask number).id) r

def twoTwins : List Instance := [twin 1, twin 2]

/-- The volumes of both, and the processors of some of them. -/
def twinOffer (processors : List Nat) : Offer Rat :=
  { Sample.cacheOffer with
    resources := [1, 2].map (fun n =>
        { twinHeld n (.scalar .disk 50) with disk := some ⟨.root, some ⟨twinVolume n, "files"⟩⟩ }) ++
      processors.map fun n => twinHeld n (.scalar .cpus 1) }

def twinDecision (processors : List Nat) (known : List Instance) : Decision.Result Rat :=
  Decision.evaluate .usual .restricted twins (twinOffer processors) known 1 ⟨60, 0⟩
    (.numbered ⟨60, 0⟩)

theorem wants_twins : Decision.Wants twins twoTwins 1 :=
  ⟨rfl, rfl, by decide +kernel, by decide +kernel, le_refl 1⟩

theorem waiting_twins : Decision.waiting twoTwins twins.id = [twinTask 1, twinTask 2] := by
  decide +kernel

theorem carries_twin (processors : List Nat) {number : Nat} (either : number = 1 ∨ number = 2)
    (waits : Decision.waitsOn (twinOffer processors) (twinTask number) = true) :
    Decision.Carries (twinOffer processors) twoTwins twins.id (twinTask number) := by
  refine ⟨?_, waits⟩
  rw [waiting_twins]
  rcases either with rfl | rfl <;> simp

/-- A match that succeeds is some match. -/
theorem accepts_of_isOk {o : Offer Rat} {known : List Instance} {t : Task}
    (ok : (Matching.match? .restricted o twins known (Decision.ownSelector .usual twins t.id)
      (.existing t.volumeIds)).isOk = true) :
    Decision.Accepts .usual .restricted twins o known t := by
  unfold Decision.Accepts
  cases found : Matching.match? .restricted o twins known (Decision.ownSelector .usual twins t.id)
      (.existing t.volumeIds) with
  | ok m => exact ⟨m, rfl⟩
  | error reasons =>
    rw [found] at ok
    cases ok

/-- The offer matches the second task, and yet it is not launched where the first is listed before it. -/
theorem masked_twin : Decision.Wants twins twoTwins 1 ∧
    Decision.Carries (twinOffer [2]) twoTwins twins.id (twinTask 2) ∧
    Decision.Accepts .usual .restricted twins (twinOffer [2]) twoTwins (twinTask 2) ∧
    (twinDecision [2] twoTwins).1 = .ok (.mismatch [.insufficientCpus]) ∧
    ∃ op, (twinDecision [2] twoTwins.reverse).1 = .ok (.op op) := by
  refine ⟨wants_twins, carries_twin [2] (.inr rfl) (by decide +kernel),
    accepts_of_isOk (by decide +kernel), by decide +kernel, ?_⟩
  have operates : ((twinDecision [2] twoTwins.reverse).1.map fun d => d.op?.isSome) = .ok true := by
    decide +kernel
  cases decided : (twinDecision [2] twoTwins.reverse).1 with
  | error e =>
    rw [decided] at operates
    cases operates
  | ok d =>
    rw [decided] at operates
    cases d with
    | op op => exact ⟨op, rfl⟩
    | fullyPlaced => cases operates
    | mismatch reasons => cases operates

end Sample

/-- With processors of both, one of the two tasks is launched in whatever order they are listed. -/
theorem resumes_in_every_order_sample :
    let operates := fun known => Decision.Operates .usual .restricted Sample.twins
      (Sample.twinOffer [1, 2]) known 1 ⟨60, 0⟩ (.numbered ⟨60, 0⟩)
    Decision.Wants Sample.twins Sample.twoTwins 1 ∧
      Decision.Carries (Sample.twinOffer [1, 2]) Sample.twoTwins Sample.twins.id (Sample.twinTask 1) ∧
      Decision.Carries (Sample.twinOffer [1, 2]) Sample.twoTwins Sample.twins.id (Sample.twinTask 2) ∧
      (∀ known', known'.Perm Sample.twoTwins →
        Decision.Resumes .usual .restricted Sample.twins (Sample.twinOffer [1, 2]) known' 1 ⟨60, 0⟩
          (.numbered ⟨60, 0⟩)) ∧
      (operates Sample.twoTwins.reverse ↔ operates Sample.twoTwins) := by
  have first := Sample.carries_twin [1, 2] (.inl rfl) (by decide +kernel)
  have second := Sample.carries_twin [1, 2] (.inr rfl) (by decide +kernel)
  have accepts : ∀ u, Decision.Carries (Sample.twinOffer [1, 2]) Sample.twoTwins Sample.twins.id u →
      Decision.Accepts .usual .restricted Sample.twins (Sample.twinOffer [1, 2]) Sample.twoTwins u := by
    intro u carries
    have either := carries.1
    rw [Sample.waiting_twins, List.mem_pair] at either
    rcases either with rfl | rfl
    · exact Sample.accepts_of_isOk (by decide +kernel)
    · exact Sample.accepts_of_isOk (by decide +kernel)
  exact ⟨Sample.wants_twins, first, second,
    ((Decision.resumes_in_every_order Sample.wants_twins).1 _ first).2 accepts,
    (Decision.resumes_in_every_order Sample.wants_twins).2 (fun _ u _ carries _ => accepts u carries) _
      (List.reverse_perm _)⟩

end Placement
