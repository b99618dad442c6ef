/-
Nothing of an offer is spent twice.

One offer is tried for run spec after run spec and, within each, for launch after launch. Two things
hold along the way. The work on the offer conserves it (`Progress.Conserves`). And the books are fit
for the run specs that are still to come (`Books.Fit`): tasks that wait for one of them list each of
their volumes once. A launch keeps this for its own run spec as well (`Books.Fit.recordAll_launches`);
whatever else is recorded, or fails to be, ends the turn of its run spec, and leaves the tasks of the
others alone (`Books.Fit.recordAll_others`).

`Scheduler.conserves_round` is the main result, for every queue, every state of the tracker and all
faults of the store. Of the books it asks for the laws that every op keeps, from empty ones on
(`Tracker.wellFormed_empty`, `Books.wellFormed_processWithin`, `Books.frame_processWithin`).
-/
import Placement.Proofs.Conservation
import Placement.Proofs.Course
import Placement.Proofs.Decision
import Placement.Proofs.Processor

namespace Placement

open Resource

/-- A task that has been launched lists each volume once if it did so before. -/
theorem StateOp.Launches.nodup_volumeIds {op : StateOp} (h : op.Launches) {current : Option Task}
    (before : ∀ t, current = some t → t.volumeIds.Nodup) {new : Task}
    (hnew : (op.resolve current).newTask? = some new) : new.volumeIds.Nodup := by
  cases op with
  | launchEphemeral t =>
    have none_listed : t.volumeIds = [] := h
    cases current with
    | none =>
      obtain rfl := Option.some.inj hnew
      rw [none_listed]
      exact List.nodup_nil
    | some old =>
      simp only [resolve] at hnew
      split at hnew
      · cases hnew
      · cases hnew
  | launchOnReservation id version status hostPorts =>
    cases current with
    | none => cases hnew
    | some old =>
      simp only [resolve] at hnew
      split at hnew
      · cases hnew
      · simp only [resolveLive] at hnew
        split at hnew
        · obtain rfl := Option.some.inj hnew
          have same : ∀ r : Option Reservation,
              ((r.map fun r => { r with state := .launched }).map (·.volumeIds)).getD [] =
                (r.map (·.volumeIds)).getD [] := by
            intro r
            cases r <;> rfl
          have := before old rfl
          rw [Task.volumeIds] at this ⊢
          rwa [same]
        · cases hnew
  | _ => exact h.elim

/-! ## Books that are fit for launches -/

namespace Books

/-- The books keep their laws, and each task of the run specs `ids` lists each of its volumes once. -/
structure Fit (ids : List RunSpecId) (b : Books) : Prop where
  wellFormed : b.tracker.WellFormed
  keyed : b.repository.Keyed
  volumes : ∀ k t, b.tracker.task? k = some t → k.runSpecId ∈ ids → t.volumeIds.Nodup

section

variable {ids : List RunSpecId} {b : Books} {op : StateOp}

theorem Fit.sound (h : b.Fit ids) : b.Sound := ⟨h.wellFormed.assembled, h.keyed⟩

/-- An op on a task of another run spec leaves the books fit, however it ends. -/
theorem Fit.process_other (h : b.Fit ids) (limit : Span) (other : op.taskId.runSpecId ∉ ids) :
    (b.process limit op).2.Fit ids := by
  obtain ⟨frame, sound⟩ := frame_processWithin h.sound limit 0 op
  refine ⟨wellFormed_processWithin h.wellFormed limit 0 op, sound.keyed, ?_⟩
  intro k t ht hk
  have hne : k ≠ op.taskId := fun heq => other (heq ▸ hk)
  exact h.volumes k t ((frame.tracker k hne).symm.trans ht) hk

/-- A launch that did not fail leaves the books fit. -/
theorem Fit.process_launch (h : b.Fit ids) (limit : Span) (launches : op.Launches)
    (succeeds : (b.process limit op).1.isFailure = false) : (b.process limit op).2.Fit ids := by
  obtain ⟨frame, sound⟩ := frame_processWithin h.sound limit 0 op
  refine ⟨wellFormed_processWithin h.wellFormed limit 0 op, sound.keyed, ?_⟩
  intro k t ht hk
  by_cases heq : k = op.taskId
  · subst heq
    have before : ∀ t, b.tracker.task? op.taskId = some t → t.volumeIds.Nodup :=
      fun t ht => h.volumes _ t ht hk
    rcases task?_process h.wellFormed.assembled succeeds with same | made
    · exact before t (same.symm.trans ht)
    · exact launches.nodup_volumeIds before (made.symm.trans ht)
  · exact h.volumes k t ((frame.tracker k heq).symm.trans ht) hk

/-- Recording tasks of other run specs leaves the books fit, up to the op that fails. -/
theorem Fit.recordAll_others {ops : List StateOp} (h : b.Fit ids) (limit : Span)
    (others : ∀ op ∈ ops, op.taskId.runSpecId ∉ ids) : (b.recordAll limit ops).2.Fit ids := by
  induction ops generalizing b with
  | nil => exact h
  | cons op rest ih =>
    have step := h.process_other limit (others op List.mem_cons_self)
    unfold recordAll
    simp only
    split
    · exact step
    · exact ih step fun op' hop => others op' (List.mem_cons_of_mem op hop)

/-- Recording launches leaves the books fit if none fails. -/
theorem Fit.recordAll_launches {limit : Span} {ops : List StateOp} (h : b.Fit ids)
    (launches : ∀ op ∈ ops, op.Launches) (done : (b.recordAll limit ops).1 = true) :
    (b.recordAll limit ops).2.Fit ids := by
  induction ops generalizing b with
  | nil => exact h
  | cons op rest ih =>
    unfold recordAll at done ⊢
    simp only at done ⊢
    split at done
    · cases done
    · next succeeds =>
      rw [if_neg succeeds]
      have step := h.process_launch limit (launches op List.mem_cons_self)
        (Bool.eq_false_iff.2 succeeds)
      exact ih step (fun op' hop => launches op' (List.mem_cons_of_mem op hop)) done

theorem Fit.mono {ids' : List RunSpecId} (h : b.Fit ids) (sub : ids' ⊆ ids) : b.Fit ids' :=
  ⟨h.wellFormed, h.keyed, fun k t ht hk => h.volumes k t ht (sub hk)⟩

end

end Books

/-! ## One offer -/

namespace Progress

/-- Reasons do not count. -/
theorem Conserves.congr {o : Offer Rat} {p q : Progress Rat} (h : p.Conserves o)
    (remaining : q.remaining = p.remaining) (operations : q.operations = p.operations) :
    q.Conserves o := by
  cases p
  cases q
  subst remaining operations
  exact ⟨h.nonneg, h.distinct, h.left, h.total, h.volumes, h.spent, h.ports, h.offered, h.gone⟩

end Progress

namespace Round

/-- The work conserves the offer, and the run specs `ids` may still be tried. -/
structure Going (o : Offer Rat) (ids : List RunSpecId) (r : Round Rat) : Prop where
  conserves : r.toProgress.Conserves o
  books : r.scheduler.books.Fit ids

section

variable {o : Offer Rat} {ids : List RunSpecId} {runSpec : RunSpec Rat} {r r' : Round Rat}

/-- Deciding changes neither the operations nor the books, and comes to an operation that can be had. -/
theorem Going.decideFor {additional : Nat} {op? : Option (InstanceOp Rat)}
    (h : r.Going o (runSpec.id :: ids)) (hd : r.decideFor runSpec additional = .ok (op?, r')) :
    r'.Going o (runSpec.id :: ids) ∧
      ∀ op, op? = some op → Decision.Decided r'.remaining runSpec.id op := by
  have volumes : ∀ i ∈ r.scheduler.known, i.runSpecId = runSpec.id →
      ∀ t ∈ i.tasks.values, t.id.runSpecId = runSpec.id ∧ t.volumeIds.Nodup := by
    intro i hi hspec t ht
    obtain ⟨known, hid⟩ := Tracker.task?_of_mem_snapshot h.books.wellFormed
      (r.scheduler.perm_known.mem_iff.1 hi) ht
    have hid := hid.trans hspec
    exact ⟨hid, h.books.volumes t.id t known (hid ▸ List.mem_cons_self)⟩
  have decides := Round.decides_decideFor hd
  refine ⟨⟨h.conserves.congr decides.remaining decides.operations, decides.books.symm ▸ h.books⟩, ?_⟩
  intro op hop
  rw [decides.remaining]
  exact Decision.decided_evaluate h.conserves.nonneg volumes (decides.decided op hop)

/-- One try keeps all for the run specs still to come, and for its own if it may be tried again. -/
theorem Going.attempt {again : Bool} (other : runSpec.id ∉ ids)
    (h : r.Going o (runSpec.id :: ids)) (ha : r.attempt runSpec = .ok (r', again)) :
    r'.Going o ids ∧ (again = true → r'.Going o (runSpec.id :: ids)) := by
  have later : ∀ {q : Round Rat}, q.Going o (runSpec.id :: ids) → q.Going o ids :=
    fun hq => ⟨hq.conserves, hq.books.mono (List.subset_cons_self _ _)⟩
  unfold Round.attempt at ha
  split at ha
  · cases ha
  · next mid hd =>
    obtain ⟨rfl, rfl⟩ := Prod.mk.inj (Except.ok.inj ha)
    exact ⟨later (h.decideFor hd).1, fun again => nomatch again⟩
  · next op mid hd =>
    obtain ⟨going, decided⟩ := h.decideFor hd
    have decided := decided op rfl
    have others : ∀ s ∈ op.stateOps, s.taskId.runSpecId ∉ ids :=
      fun s hs => (decided.own s hs).symm ▸ other
    have recorded := (later going).books.recordAll_others mid.scheduler.storeTimeout others
    split at ha
    · next s hrecord =>
      obtain ⟨rfl, rfl⟩ := Prod.mk.inj (Except.ok.inj ha)
      obtain ⟨-, rfl⟩ := Prod.mk.inj hrecord
      exact ⟨⟨going.conserves.congr rfl rfl, recorded⟩, fun again => nomatch again⟩
    · next s hrecord =>
      obtain ⟨rfl, rfl⟩ := Prod.mk.inj (Except.ok.inj ha)
      obtain ⟨done, rfl⟩ := Prod.mk.inj hrecord
      have conserves := going.conserves.collect decided.affords
      refine ⟨⟨conserves.congr rfl rfl, recorded⟩, ?_⟩
      intro launches
      exact ⟨conserves.congr rfl rfl,
        going.books.recordAll_launches (decided.launches launches) done⟩

/-- So does any number of tries, for the run specs still to come. -/
theorem Going.serve {count : Nat} (other : runSpec.id ∉ ids) (h : r.Going o (runSpec.id :: ids))
    (hs : r.serve runSpec count = .ok r') : r'.Going o ids := by
  induction count generalizing r with
  | zero =>
    obtain rfl := Except.ok.inj hs
    exact ⟨h.conserves, h.books.mono (List.subset_cons_self _ _)⟩
  | succ count ih =>
    unfold Round.serve at hs
    split at hs
    · cases hs
    · next mid ha => exact ih ((h.attempt other ha).2 rfl) hs
    · next mid ha =>
      obtain rfl := Except.ok.inj hs
      exact (h.attempt other ha).1

/-- The whole queue conserves the offer. -/
theorem Going.serveAll {requests : List (LaunchRequest Rat)}
    (distinct : (requests.map (·.runSpec.id)).Nodup)
    (h : r.Going o (requests.map (·.runSpec.id))) (hs : r.serveAll requests = .ok r') :
    r'.Going o [] := by
  induction requests generalizing r with
  | nil =>
    obtain rfl := Except.ok.inj hs
    exact h
  | cons request rest ih =>
    obtain ⟨other, distinct⟩ := List.nodup_cons.1 distinct
    unfold Round.serveAll at hs
    split at hs
    · cases hs
    · next mid served => exact ih distinct (h.serve other served) hs

end

end Round

/-- Over all operations that come of one offer, what is consumed of each kind is at most what was
offered, up to the tolerance for each part; no volume is consumed twice; ports are ports of the offer,
and no port is consumed twice unless port resources of different kinds have it. -/
theorem Scheduler.conserves_round {s : Scheduler Rat} {o : Offer Rat} {r : Round Rat}
    (nonneg : ∀ x ∈ o.resources, 0 ≤ x.amount) (once : (volumesOf o.resources).Nodup)
    (wellFormed : s.books.tracker.WellFormed) (keyed : s.books.repository.Keyed)
    (volumes : ∀ t ∈ s.books.tracker.tasks, t.volumeIds.Nodup) (h : s.round o = .ok r) :
    (∀ k, kindTotal k r.consumed ≤
        kindTotal k o.resources + kindCount k r.consumed * Amount.tolerance) ∧
      (volumesOf r.consumed).Nodup ∧
      (∀ port ∈ portsOf r.consumed, ∃ x ∈ o.resources, x.name = .ports ∧
        port ∈ PortRange.allPorts x.portRanges) ∧
      (o.PortsApart → (portsOf r.consumed).Nodup) := by
  have start : Round.Going o (s.queue.requests.map (·.runSpec.id)) ⟨.start o, s⟩ :=
    ⟨Progress.conserves_start nonneg once, wellFormed, keyed,
      fun k t ht _ => volumes t (Tracker.mem_tasks_of_task? ht)⟩
  have conserves := (start.serveAll s.queue.distinct h).conserves
  exact ⟨conserves.kindTotal_consumed, conserves.volumes, conserves.offered, conserves.ports⟩

/-! ## Operations of all kinds -/

/-- A run spec of which an instance needs one processor. -/
def Sample.runSpec (id : RunSpecId) (ports : List PortDefinition)
    (volumes : List (PersistentVolume Rat)) : RunSpec Rat :=
  { RunSpec.ofId id 2 ⟨0, 0⟩ with resources := ⟨1, 0, 0, 0⟩, ports := ports, volumes := volumes }

/-- The disk with the volume on which the sample task waits. -/
def Sample.disk : Resource Rat where
  name := .disk
  value := .scalar 100
  role := "keel"
  reservation := some ⟨some "keel", Decision.reservationLabels .usual Sample.waitingTask.id⟩
  disk := some ⟨.root, some ⟨Sample.volume, "data"⟩⟩

/-- Processors for three instances and a half, two ports and a volume. -/
def Sample.offer : Offer Rat where
  id := ⟨.ofNat 4⟩
  agentId := ⟨.ofNat 2⟩
  hostname := "host"
  attributes := ∅
  resources := [.scalar .cpus (7 / 2), .ports [⟨31000, 31001⟩], Sample.disk]

/-- The first write will be rejected. Of the other run specs, one can be launched twice and one on its
reservation. -/
def Sample.scheduler : Scheduler Rat where
  policy := .usual
  gpus := .restricted
  storeTimeout := Sample.limit
  books := Sample.books
  queue := ((LaunchQueue.empty.add (Sample.runSpec ⟨"/first", by decide⟩ [] []) 1).add
    (Sample.runSpec ⟨"/job", by decide⟩ [.ofHostPort .dynamic] []) 2).add
    (Sample.runSpec Sample.waitingTask.runSpecId [] [⟨"data", 100, .root⟩]) 1
  statistics := ⟨∅⟩
  manager := ⟨[], false⟩
  ids := .numbered ⟨5, 0⟩
  now := ⟨0, 0⟩

/-- A run spec whose instances are groups of two tasks. -/
def Sample.pod : RunSpec Rat :=
  { RunSpec.ofId ⟨"/pod", by decide⟩ 1 ⟨0, 0⟩ with
    containers := [⟨"first", ⟨1, 0, 0, 0⟩, [], .none, ∅⟩, ⟨"second", ⟨1, 0, 0, 0⟩, [], .none, ∅⟩] }

/-- The scheduler also waits to launch a task group, and an instance that first needs a volume. -/
def Sample.mixedScheduler : Scheduler Rat :=
  { Sample.scheduler with
    queue := (Sample.scheduler.queue.add Sample.pod 1).add
      (Sample.runSpec ⟨"/store", by decide⟩ [] [⟨"data", 50, .root⟩]) 1 }

/-- There is room for them on the offer. -/
def Sample.mixedOffer : Offer Rat :=
  { Sample.offer with
    resources := .scalar .cpus 4 :: .scalar .mem 64 :: .scalar .disk 100 :: Sample.offer.resources }

theorem Sample.portsApart_mixedOffer : Sample.mixedOffer.PortsApart := by
  have only : ∀ r ∈ Sample.mixedOffer.resources, r.name = .ports → r = .ports [⟨31000, 31001⟩] := by
    decide +kernel
  intro r hr s hs hrname hsname port _ _
  rw [only r hr hrname, only s hs hsname]
  exact sameKind_self _

/-- Launches of tasks and of a group, and a new reservation come of one offer; they use both ports and the
volume. -/
theorem conserves_round_sample :
    (∀ x ∈ Sample.mixedOffer.resources, 0 ≤ x.amount) ∧
    (volumesOf Sample.mixedOffer.resources).Nodup ∧
    (∀ t ∈ Sample.mixedScheduler.books.tracker.tasks, t.volumeIds.Nodup) ∧
    ∃ r, Sample.mixedScheduler.round Sample.mixedOffer = .ok r ∧
      r.operations.map (·.kindName) = ["launch_task", "launch_task", "launch_task",
        "launch_task_group", "reserve_and_create_volumes"] ∧
      portsOf r.consumed = [31000, 31001] ∧ (volumesOf r.consumed).length = 1 ∧
      (portsOf r.consumed).Nodup ∧ (volumesOf r.consumed).Nodup ∧
      ∀ k, kindTotal k r.consumed ≤
        kindTotal k Sample.mixedOffer.resources + kindCount k r.consumed * Amount.tolerance := by
  have nonneg : ∀ x ∈ Sample.mixedOffer.resources, 0 ≤ x.amount := by decide +kernel
  have once : (volumesOf Sample.mixedOffer.resources).Nodup := by decide +kernel
  have volumes : ∀ t ∈ Sample.mixedScheduler.books.tracker.tasks, t.volumeIds.Nodup := by
    decide +kernel
  have outcome : (Sample.mixedScheduler.round Sample.mixedOffer).map (fun r =>
      (r.operations.map (·.kindName), portsOf r.consumed, (volumesOf r.consumed).length)) =
        .ok (["launch_task", "launch_task", "launch_task", "launch_task_group",
          "reserve_and_create_volumes"], [31000, 31001], 1) := by
    decide +kernel
  cases hr : Sample.mixedScheduler.round Sample.mixedOffer with
  | error e =>
    rw [hr] at outcome
    cases outcome
  | ok r =>
    rw [hr] at outcome
    obtain ⟨operations, rest⟩ := Prod.mk.inj (Except.ok.inj outcome)
    obtain ⟨ports, disks⟩ := Prod.mk.inj rest
    obtain ⟨total, spent, -, apart⟩ := Scheduler.conserves_round nonneg once
      Sample.wellFormed_books Sample.keyed_books volumes hr
    exact ⟨nonneg, once, volumes, r, rfl, operations, ports, disks,
      apart Sample.portsApart_mixedOffer, spent, total⟩

end Placement
