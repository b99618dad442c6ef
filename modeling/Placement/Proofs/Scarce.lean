/-
Under the restricted policy an agent with GPUs is kept for run specs that need them, as long as some of
its GPUs are left on the offer.

* `Matching.declinesForGpus_of_match?`: no match is made of an offer that is kept for others.
* `Round.Served` follows the operations that a round collects: each was decided on for one run spec, on
  what the operations before it leave of the offer. `Course.exists_served` has it of
  every round.
* `Scheduler.keepsGpus_round` is the main result. `Sample.shared_agent` shows where it ends: once the
  GPUs of an offer are given away, what is left of it goes to run specs without GPUs as well.
-/
import Placement.Proofs.Course
import Placement.Proofs.Round

namespace Placement

variable {α : Type} [Amount α]

/-- What a list of operations leaves of an offer. -/
def Offer.after (o : Offer α) (ops : List (InstanceOp α)) : Offer α :=
  ops.foldl (fun o op => o.without op.consumed) o

/-- The run spec asks for GPUs, by more than the tolerance. -/
def RunSpec.NeedsGpus (runSpec : RunSpec α) : Prop :=
  ¬ runSpec.totalResources.gpus ≤ Amount.tolerance

instance (runSpec : RunSpec α) : Decidable runSpec.NeedsGpus :=
  inferInstanceAs (Decidable (¬ runSpec.totalResources.gpus ≤ Amount.tolerance))

/-! ## Decisions -/

section

variable {policy : LaunchPolicy} {gpus : GpuPolicy} {runSpec : RunSpec α} {o : Offer α}
  {known : List Instance} {now : Timestamp} {ids ids' : IdSupply} {op : InstanceOp α}

theorem Matching.declinesForGpus_of_match? {s : Selector} {request : VolumeRequest α}
    {m : ResourceMatch α} (h : match? gpus o runSpec known s request = .ok m) :
    declinesForGpus gpus o runSpec = false := by
  unfold match? at h
  split at h
  · cases h
  · next open_ => exact Bool.eq_false_iff.2 open_

/-- Every way to an operation goes by a match. -/
theorem Decision.Reached.declinesForGpus (h : Reached policy gpus runSpec o known now ids op ids') :
    Matching.declinesForGpus gpus o runSpec = false := by
  cases h with
  | launched m ephemeral found made => exact Matching.declinesForGpus_of_match? found
  | relaunched i t m resident hi own alone waits found =>
    exact Matching.declinesForGpus_of_match? found
  | reserved m volumes deadline resident room found created timed =>
    exact Matching.declinesForGpus_of_match? found

/-- An offer that is open to a run spec without GPUs has none. -/
theorem Matching.hasGpus_of_not_declines (h : declinesForGpus .restricted o runSpec = false)
    (needless : ¬ runSpec.NeedsGpus) : o.hasGpus = false := by
  have few : runSpec.totalResources.gpus ≤ Amount.tolerance := Decidable.not_not.1 needless
  simpa [declinesForGpus, few] using h

end

/-! ## Rounds -/

namespace Round

/-- Operations that were decided on one after another, each for a run spec and on what those before it
leave of the offer. -/
inductive Served (policy : LaunchPolicy) (gpus : GpuPolicy) :
    Offer α → List (RunSpec α × InstanceOp α) → Prop where
  | nothing (o : Offer α) : Served policy gpus o []
  | next {o : Offer α} {spec : RunSpec α} {op : InstanceOp α}
      {more : List (RunSpec α × InstanceOp α)} (known : List Instance) (additional : Nat)
      (now : Timestamp) (ids ids' : IdSupply)
      (decided : Decision.evaluate policy gpus spec o known additional now ids =
        (.ok (.op op), ids'))
      (rest : Served policy gpus (o.without op.consumed) more) :
      Served policy gpus o ((spec, op) :: more)

variable {policy : LaunchPolicy} {gpus : GpuPolicy} {o : Offer α}
  {before more : List (RunSpec α × InstanceOp α)}

/-- What comes after the first operations is served from what these leave. -/
theorem Served.of_append (h : Served policy gpus o (before ++ more)) :
    Served policy gpus (o.after (before.map (·.2))) more := by
  induction before generalizing o with
  | nil => exact h
  | cons e before ih =>
    cases h with
    | next known additional now ids ids' decided rest => exact ih rest

variable {spec : RunSpec α} {specs : List (RunSpec α)} {r mid r' : Round α} {tries : List (Try α)}
  {op : InstanceOp α} {s : Scheduler α}

/-- An operation that is taken up is served before those that come later. -/
theorem served_collect {additional : Nat} (decides : r.decideFor spec additional = .ok (some op, mid))
    (records : mid.scheduler.record op = (true, s))
    (later : Served ({ mid with scheduler := s }.collect spec.id op).scheduler.policy
      ({ mid with scheduler := s }.collect spec.id op).scheduler.gpus
      ({ mid with scheduler := s }.collect spec.id op).remaining more) :
    Served r.scheduler.policy r.scheduler.gpus r.remaining ((spec, op) :: more) := by
  have decided := decides_decideFor decides
  obtain ⟨-, keeps⟩ := decided.keeps_record records
  have left : ({ mid with scheduler := s }.collect spec.id op).remaining =
      r.remaining.without op.consumed := by rw [collect, decided.remaining]
  rw [keeps.policy, keeps.gpus, left] at later
  exact .next _ _ _ _ _ (decided.decided op rfl) later

/-- The operations that a round collects, with the run spec that each is for. -/
theorem Course.exists_served (h : Course specs r tries r') :
    ∃ served, Try.kept tries = served.map (·.2) ∧ (∀ e ∈ served, e.1 ∈ specs) ∧
      Served r.scheduler.policy r.scheduler.gpus r.remaining served := by
  induction h with
  | finished r => exact ⟨[], rfl, by simp, .nothing _⟩
  | passed rest ih =>
    obtain ⟨served, kept, queued, serves⟩ := ih
    exact ⟨served, kept, fun e he => List.mem_cons_of_mem _ (queued e he), serves⟩
  | declined decides rest ih =>
    obtain ⟨served, kept, queued, serves⟩ := ih
    have decided := decides_decideFor decides
    rw [decided.keeps.policy, decided.keeps.gpus, decided.remaining] at serves
    exact ⟨served, kept, fun e he => List.mem_cons_of_mem _ (queued e he), serves⟩
  | dropped decides fails rest ih =>
    obtain ⟨served, kept, queued, serves⟩ := ih
    have decided := decides_decideFor decides
    obtain ⟨keeps, -⟩ := decided.keeps_record fails
    rw [keeps.policy, keeps.gpus, decided.remaining] at serves
    exact ⟨served, kept, fun e he => List.mem_cons_of_mem _ (queued e he), serves⟩
  | @reserved spec specs _ _ _ _ op _ decides records reserves rest ih =>
    obtain ⟨served, kept, queued, serves⟩ := ih
    refine ⟨(spec, op) :: served, congrArg (op :: ·) kept, ?_, served_collect decides records serves⟩
    exact List.forall_mem_cons.2
      ⟨List.mem_cons_self, fun e he => List.mem_cons_of_mem _ (queued e he)⟩
  | @launched spec specs _ _ _ _ op _ decides records launches rest ih =>
    obtain ⟨served, kept, queued, serves⟩ := ih
    refine ⟨(spec, op) :: served, congrArg (op :: ·) kept, ?_, served_collect decides records serves⟩
    exact List.forall_mem_cons.2 ⟨List.mem_cons_self, queued⟩

/-- Under the restricted policy, a run spec without GPUs is served where none are left. -/
theorem Served.hasGpus_eq_false {spec : RunSpec α}
    (h : Served policy .restricted o ((spec, op) :: more)) (needless : ¬ spec.NeedsGpus) :
    o.hasGpus = false := by
  cases h with
  | next known additional now ids ids' decided rest =>
    exact Matching.hasGpus_of_not_declines (Decision.reached_evaluate decided).2.declinesForGpus
      needless

/-- The first to be served from an offer with GPUs needs some. -/
theorem Served.first_needsGpus {e : RunSpec α × InstanceOp α}
    (h : Served policy .restricted o (e :: more)) (gpus : o.hasGpus = true) : e.1.NeedsGpus := by
  refine Decidable.not_not.1 fun needless => ?_
  cases gpus.symm.trans (h.hasGpus_eq_false needless)

end Round

/-- Under the restricted policy, whatever is queued, known and stored and whatever writes fail: each
operation that a round collects was decided on for a queued run spec, on what the operations before it
leave of the offer; and if the run spec needs no GPUs, these have left none. So an offer with GPUs goes
first to a run spec that needs some, and to others only after its GPUs are given away. -/
theorem Scheduler.keepsGpus_round {s : Scheduler α} {o : Offer α} {r : Round α}
    (restricted : s.gpus = .restricted) (h : s.round o = .ok r) :
    ∃ served : List (RunSpec α × InstanceOp α), r.operations = served.map (·.2) ∧
      ∀ before spec op more, served = before ++ (spec, op) :: more →
        spec ∈ s.queue.requests.map (·.runSpec) ∧
        (∃ known additional now ids ids', Decision.evaluate s.policy .restricted spec
          (o.after (before.map (·.2))) known additional now ids = (.ok (.op op), ids')) ∧
        (¬ spec.NeedsGpus → (o.after (before.map (·.2))).hasGpus = false ∧
          (o.hasGpus = true → ∃ e ∈ before, e.1.NeedsGpus)) := by
  obtain ⟨tries, course⟩ := Round.course_serveAll h
  obtain ⟨served, kept, queued, serves⟩ := course.exists_served
  have serves : Round.Served s.policy .restricted o served := restricted ▸ serves
  refine ⟨served, (course.operations.trans (List.nil_append _)).trans kept, ?_⟩
  rintro before spec op more rfl
  have here := serves.of_append
  refine ⟨queued (spec, op) (by simp), ?_, fun needless => ⟨here.hasGpus_eq_false needless, ?_⟩⟩
  · cases here with
    | next known additional now ids ids' decided rest => exact ⟨_, _, _, _, _, decided⟩
  · intro gpus
    cases before with
    | nil => cases gpus.symm.trans (here.hasGpus_eq_false needless)
    | cons e before => exact ⟨e, List.mem_cons_self, serves.first_needsGpus gpus⟩

/-! ## An agent with one GPU -/

namespace Sample

/-- A run spec of which an instance needs a GPU. -/
def trainer : RunSpec Rat :=
  { RunSpec.ofId ⟨"/train", by decide⟩ 1 ⟨0, 0⟩ with resources := ⟨1, 0, 0, 1⟩ }

theorem bystander_valid : pathError? "/web".toList = none := by decide

/-- A run spec of which an instance needs a processor and no GPU. -/
def bystander : RunSpec Rat := Sample.runSpec ⟨"/web", bystander_valid⟩ [] []

def gpuOffer : Offer Rat :=
  { Sample.offer with resources := [.scalar .cpus 4, .scalar .gpus 1] }

/-- Nothing is recorded yet, and the run spec with a GPU waits in front. -/
def gpuScheduler : Scheduler Rat :=
  { Sample.scheduler with
    books := .empty
    queue := (LaunchQueue.empty.add trainer 1).add bystander 1 }

/-- Which run specs the operations of a round launch. -/
def launchedSpecs (r : Round Rat) : List RunSpecId :=
  (r.operations.filter (·.isLaunch)).flatMap fun op => op.stateOps.map (·.taskId.runSpecId)

theorem launchedSpecs_gpuScheduler : ∃ r, gpuScheduler.round gpuOffer = .ok r ∧
    launchedSpecs r = [trainer.id, bystander.id] := by
  have launched : (gpuScheduler.round gpuOffer).map launchedSpecs =
      .ok [trainer.id, bystander.id] := by
    decide +kernel
  cases hr : gpuScheduler.round gpuOffer with
  | error e =>
    rw [hr] at launched
    cases launched
  | ok r =>
    rw [hr] at launched
    exact ⟨r, rfl, Except.ok.inj launched⟩

/-- The agent has a GPU and is to be kept for run specs that need one, and yet an instance of one that
needs none is launched on it. -/
theorem shared_agent : gpuScheduler.gpus = .restricted ∧ gpuOffer.hasGpus = true ∧
    bystander ∈ gpuScheduler.queue.requests.map (·.runSpec) ∧
    bystander.totalResources.gpus ≤ Amount.tolerance ∧
    ∃ r, gpuScheduler.round gpuOffer = .ok r ∧ bystander.id ∈ launchedSpecs r := by
  obtain ⟨r, hr, launched⟩ := launchedSpecs_gpuScheduler
  refine ⟨rfl, by decide +kernel, by decide +kernel, by decide +kernel, r, hr, ?_⟩
  rw [launched]
  simp

end Sample

/-- Two operations are collected, and the second is for a run spec without GPUs: the first has left none. -/
theorem keepsGpus_round_sample : Sample.gpuScheduler.gpus = .restricted ∧
    Sample.gpuOffer.hasGpus = true ∧ ∃ r, Sample.gpuScheduler.round Sample.gpuOffer = .ok r ∧
      Sample.launchedSpecs r = [Sample.trainer.id, Sample.bystander.id] ∧
      ∃ served : List (RunSpec Rat × InstanceOp Rat), r.operations = served.map (·.2) ∧
        ∀ before spec op more, served = before ++ (spec, op) :: more → ¬ spec.NeedsGpus →
          (Sample.gpuOffer.after (before.map (·.2))).hasGpus = false ∧
            ∃ e ∈ before, e.1.NeedsGpus := by
  have gpus : Sample.gpuOffer.hasGpus = true := by decide +kernel
  obtain ⟨r, hr, launched⟩ := Sample.launchedSpecs_gpuScheduler
  obtain ⟨served, collected, kept⟩ := Scheduler.keepsGpus_round rfl hr
  refine ⟨rfl, gpus, r, hr, launched, served, collected, ?_⟩
  intro before spec op more split needless
  obtain ⟨-, -, gone⟩ := kept before spec op more split
  obtain ⟨none_left, given⟩ := gone needless
  exact ⟨none_left, given gpus⟩

end Placement
