/-
What one step of a call can do.

A step is described once, and every invariant of calls at once goes by this description.

* `Call.turn?`, `Call.held?` and `Call.pending?` are what a call has of its own: its turn, the lock it has
  taken, and the ops of its decision that are still to be recorded.
* `Traffic.Guards` says what a step does to the locks, `Traffic.Writes` what it does to the books.
* `Traffic.Stepped` has both, and that no run spec turns up. `stepped_stepCall?` has it of every step that
  is made, and `exists_stepped` puts the call back in its place.
-/
import Placement.Proofs.Course
import Placement.Scheduler.Interleaving

namespace Placement

variable {α : Type}

/-! ## The queue -/

namespace LaunchRequest

theorem mem_modify {id : RunSpecId} {f : LaunchRequest α → LaunchRequest α}
    {l : List (LaunchRequest α)} {q : LaunchRequest α} (h : q ∈ modify id f l) :
    q ∈ l ∨ ∃ p ∈ l, q = f p := by
  induction l with
  | nil => cases h
  | cons p rest ih =>
    unfold modify at h
    split at h
    · rcases List.mem_cons.1 h with rfl | h
      · exact .inr ⟨p, List.mem_cons_self, rfl⟩
      · exact .inl (List.mem_cons_of_mem p h)
    · rcases List.mem_cons.1 h with rfl | h
      · exact .inl List.mem_cons_self
      · rcases ih h with old | ⟨p', hp', heq⟩
        · exact .inl (List.mem_cons_of_mem p old)
        · exact .inr ⟨p', List.mem_cons_of_mem p hp', heq⟩

end LaunchRequest

namespace LaunchQueue

/-- The run specs that wait. -/
def runSpecs (q : LaunchQueue α) : List (RunSpec α) := q.requests.map (·.runSpec)

variable {q : LaunchQueue α} {v : RunSpec α}

theorem mem_runSpecs_add {runSpec : RunSpec α} {count : Nat}
    (h : v ∈ (q.add runSpec count).runSpecs) : v ∈ q.runSpecs ∨ v = runSpec := by
  obtain ⟨r, hr, rfl⟩ := List.mem_map.1 h
  unfold add at hr
  split at hr
  · rcases LaunchRequest.mem_modify hr with hr | ⟨p, -, rfl⟩
    · exact .inl (List.mem_map_of_mem hr)
    · exact .inr rfl
  · rcases List.mem_append.1 hr with hr | hr
    · exact .inl (List.mem_map_of_mem hr)
    · exact .inr (List.mem_singleton.1 hr ▸ rfl)

theorem mem_runSpecs_remove {id : RunSpecId} (h : v ∈ (q.remove id).runSpecs) : v ∈ q.runSpecs :=
  (List.eraseP_sublist.map _).subset h

theorem mem_runSpecs_launched {id : RunSpecId} (h : v ∈ (q.launched id).runSpecs) :
    v ∈ q.runSpecs := by
  obtain ⟨r, hr, rfl⟩ := List.mem_map.1 h
  rcases LaunchRequest.mem_modify (List.mem_filter.1 hr).1 with hr | ⟨p, hp, rfl⟩
  · exact List.mem_map_of_mem hr
  · exact List.mem_map.2 ⟨p, hp, rfl⟩

end LaunchQueue

/-! ## What a call has of its own -/

namespace OfferStage

/-- The run spec whose turn it is, with the lock that was found for it, taken or not. -/
def turn? : OfferStage α → Option (Turn α)
  | listing => none
  | seeking => none
  | waiting turn => some turn
  | counting turn _ => some turn
  | deciding turn _ _ => some turn
  | recording turn _ _ _ => some turn
  | leaving turn => some turn
  | answered _ => none
  | broken => none

/-- The run spec whose turn it is, once its lock is taken. -/
def held? : OfferStage α → Option (Turn α)
  | waiting _ => none
  | stage => stage.turn?

/-- The ops of a decision that are still to be recorded, with the turn that it was made in. -/
def pending? : OfferStage α → Option (Turn α × List StateOp)
  | recording turn _ _ unrecorded => some (turn, unrecorded)
  | _ => none

theorem turn?_of_held? {stage : OfferStage α} {turn : Turn α} (h : stage.held? = some turn) :
    stage.turn? = some turn := by
  cases stage with
  | waiting turn' => cases h
  | _ => exact h

theorem held?_of_pending? {stage : OfferStage α} {turn : Turn α} {ops : List StateOp}
    (h : stage.pending? = some (turn, ops)) : stage.held? = some turn := by
  cases stage with
  | recording => exact congrArg some (Prod.mk.inj (Option.some.inj h)).1
  | _ => cases h

end OfferStage

namespace Call

def turn? : Call α → Option (Turn α)
  | offer c => c.stage.turn?
  | add _ _ _ => none
  | remove _ _ => none

def held? : Call α → Option (Turn α)
  | offer c => c.stage.held?
  | add _ _ _ => none
  | remove _ _ => none

def pending? : Call α → Option (Turn α × List StateOp)
  | offer c => c.stage.pending?
  | add _ _ _ => none
  | remove _ _ => none

/-- The run specs that a call has in mind. -/
def declared : Call α → List (RunSpec α)
  | offer c => (c.stage.turn?.map (·.runSpec)).toList ++ c.requests.map (·.runSpec)
  | add runSpec _ _ => [runSpec]
  | remove _ _ => []

theorem turn?_of_held? {call : Call α} {turn : Turn α} (h : call.held? = some turn) :
    call.turn? = some turn := by
  cases call with
  | offer c => exact OfferStage.turn?_of_held? h
  | add runSpec count finished => cases h
  | remove id stage => cases h

theorem held?_of_pending? {call : Call α} {turn : Turn α} {ops : List StateOp}
    (h : call.pending? = some (turn, ops)) : call.held? = some turn := by
  cases call with
  | offer c => exact OfferStage.held?_of_pending? h
  | add runSpec count finished => cases h
  | remove id stage => cases h

end Call

namespace Traffic

variable {t t' : Traffic α} {place : Nat} {call call' : Call α}

/-- The call at a place has a turn, a lock or something else of its own. -/
def Has {β : Type} (t : Traffic α) (part : Call α → Option β) (place : Nat) (value : β) : Prop :=
  ∃ call, t.calls[place]? = some call ∧ part call = some value

/-- After a step the call of its place is another, and all others are as they were. -/
theorem Has.before {β : Type} {part : Call α → Option β} {value : β} {q : Nat}
    (h : t'.Has part q value) (calls : t'.calls = t.calls.set place call') :
    q = place ∧ part call' = some value ∨ q ≠ place ∧ t.Has part q value := by
  obtain ⟨c, at_, has⟩ := h
  rw [calls, List.getElem?_set] at at_
  split at at_
  · next same =>
    split at at_
    · exact .inl ⟨same.symm, Option.some.inj at_ ▸ has⟩
    · cases at_
  · next other => exact .inr ⟨fun same => other same.symm, c, at_, has⟩

theorem Has.turn {turn : Turn α} (h : t.Has Call.held? place turn) : t.Has Call.turn? place turn := by
  obtain ⟨call, at_, has⟩ := h
  exact ⟨call, at_, call.turn?_of_held? has⟩

theorem Has.held {turn : Turn α} {ops : List StateOp} (h : t.Has Call.pending? place (turn, ops)) :
    t.Has Call.held? place turn := by
  obtain ⟨call, at_, has⟩ := h
  exact ⟨call, at_, Call.held?_of_pending? has⟩

/-- The run specs that the queue and the calls have in mind. -/
def declared (t : Traffic α) : List (RunSpec α) :=
  t.scheduler.queue.runSpecs ++ t.calls.flatMap Call.declared

theorem mem_declared_of_turn {turn : Turn α} (at_ : t.calls[place]? = some call)
    (has : call.turn? = some turn) : turn.runSpec ∈ t.declared := by
  refine List.mem_append_right _ (List.mem_flatMap.2 ⟨call, List.mem_of_getElem? at_, ?_⟩)
  cases call with
  | offer c =>
    have has : c.stage.turn? = some turn := has
    rw [Call.declared, has]
    exact List.mem_cons_self
  | add runSpec count finished => cases has
  | remove id stage => cases has

/-! ## Steps -/

/-- Looking up a lock changes the table alone. -/
theorem lockOf_eq (t : Traffic α) (id : RunSpecId) : (t.lockOf id).2 =
    { t with locks := (t.lockOf id).2.locks, nextLock := (t.lockOf id).2.nextLock } := by
  unfold lockOf
  split <;> rfl

/-- Looking up a lock leaves it in the table, and leaves all others there. -/
theorem find?_lockOf (t : Traffic α) (id : RunSpecId) :
    (t.lockOf id).2.locks.find? id = some (t.lockOf id).1 ∧
      ∀ id' lock, t.locks.find? id' = some lock → (t.lockOf id).2.locks.find? id' = some lock := by
  unfold lockOf
  split
  · next lock found => exact ⟨found, fun _ _ h => h⟩
  · next missing =>
    refine ⟨by rw [OrderedMap.find?_insert, if_pos rfl], fun id' lock h => ?_⟩
    have other : id' ≠ id := by
      rintro rfl
      cases missing.symm.trans h
    rw [OrderedMap.find?_insert, if_neg other]
    exact h

/-- What a step can do to the table, to the locks and to the turn of the call that makes it. -/
inductive Guards (t : Traffic α) (place : Nat) (call : Call α) (t' : Traffic α) (call' : Call α) :
    Prop where
  | kept (locks : t'.locks = t.locks) (holder : t'.holder = t.holder)
      (turn : call'.turn? = call.turn?) (held : call'.held? = call.held?)
  | sought (turn : Turn α) (holder : t'.holder = t.holder) (looked : call'.turn? = some turn)
      (free : call'.held? = none) (found : t'.locks.find? turn.runSpec.id = some turn.lock)
      (others : ∀ id lock, t.locks.find? id = some lock → t'.locks.find? id = some lock)
  | took (turn : Turn α) (locks : t'.locks = t.locks) (free : t.holder turn.lock = none)
      (holder : t'.holder = (t.setHolder turn.lock (some place)).holder)
      (same : call'.turn? = call.turn?) (held : call'.held? = some turn)
  | gave (turn : Turn α) (locks : t'.locks = t.locks) (held : call.held? = some turn)
      (holder : t'.holder = (t.setHolder turn.lock none).holder) (left : call'.turn? = none)
  | removed (id : RunSpecId) (removes : call = .remove id .lock)
      (locks : t'.locks = t.locks.erase id) (holder : t'.holder = t.holder)
      (left : call'.turn? = none)

/-- The step records an op. If that fails, nothing more is recorded of the decision. -/
structure Records (t : Traffic α) (call : Call α) (t' : Traffic α) (call' : Call α) (turn : Turn α)
    (s : StateOp) (rest : List StateOp) : Prop where
  before : call.pending? = some (turn, s :: rest)
  books : t'.scheduler.books = (t.scheduler.books.process t.scheduler.storeTimeout s).2
  ids : t'.scheduler.ids = t.scheduler.ids
  after : ∀ left, call'.pending? = some left → left = (turn, rest)

section

variable [Amount α]

/-- What a step can do to the books, to the identifiers and to what is still to be recorded. -/
inductive Writes (t : Traffic α) (call : Call α) (t' : Traffic α) (call' : Call α) : Prop where
  | still (books : t'.scheduler.books = t.scheduler.books)
      (ids : t.scheduler.ids.Continues t'.scheduler.ids) (nothing : call'.pending? = none)
  | decided (turn : Turn α) {additional : Nat} {r mid : Round α} {op : InstanceOp α}
      (has : call.turn? = some turn) (before : r.scheduler = t.scheduler)
      (decides : Round.Decides turn.runSpec additional r mid (some op))
      (after : t'.scheduler = mid.scheduler) (pending : call'.pending? = some (turn, op.stateOps))
  | recorded (turn : Turn α) (s : StateOp) (rest : List StateOp)
      (records : t.Records call t' call' turn s rest)

/-- What a step of a call does, before the call is put back in its place. -/
structure Stepped (t : Traffic α) (place : Nat) (call : Call α) (mid : Traffic α) (call' : Call α) :
    Prop where
  calls : mid.calls = t.calls
  queue : ∀ v ∈ mid.scheduler.queue.runSpecs, v ∈ t.scheduler.queue.runSpecs ∨ v ∈ call.declared
  mind : ∀ v ∈ call'.declared, v ∈ t.scheduler.queue.runSpecs ∨ v ∈ call.declared
  guards : ∀ calls, t.Guards place call { mid with calls := calls } call'
  writes : ∀ calls, t.Writes call { mid with calls := calls } call'

theorem stepped_stepOffer? {c c' : OfferCall α} (h : t.stepOffer? place c = some (t', c')) :
    t.Stepped place (.offer c) t' (.offer c') := by
  obtain ⟨offer, requests, progress, stage⟩ := c
  cases stage with
  | listing =>
    obtain ⟨rfl, rfl⟩ := Prod.mk.inj (Option.some.inj h)
    exact ⟨rfl, fun _ => .inl, fun _ => .inl, fun _ => .kept rfl rfl rfl rfl,
      fun _ => .still rfl (.refl _) rfl⟩
  | seeking =>
    cases requests with
    | nil =>
      obtain ⟨rfl, rfl⟩ := Prod.mk.inj (Option.some.inj h)
      exact ⟨rfl, fun _ => .inl, fun _ => .inr, fun _ => .kept rfl rfl rfl rfl,
        fun _ => .still rfl (.refl _) rfl⟩
    | cons r rest =>
      simp only [stepOffer?, Option.some.injEq, Prod.mk.injEq] at h
      obtain ⟨rfl, rfl⟩ := h
      obtain ⟨found, others⟩ := t.find?_lockOf r.runSpec.id
      rw [lockOf_eq]
      exact ⟨rfl, fun _ => .inl, fun _ => .inr,
        fun _ => .sought ⟨r.runSpec, (t.lockOf r.runSpec.id).1⟩ rfl rfl rfl found others,
        fun _ => .still rfl (.refl _) rfl⟩
  | waiting turn =>
    simp only [stepOffer?] at h
    split at h
    · cases h
    · next free =>
      obtain ⟨rfl, rfl⟩ := Prod.mk.inj (Option.some.inj h)
      exact ⟨rfl, fun _ => .inl, fun _ => .inr, fun _ => .took turn rfl free rfl rfl rfl,
        fun _ => .still rfl (.refl _) rfl⟩
  | counting turn left =>
    cases left with
    | zero =>
      obtain ⟨rfl, rfl⟩ := Prod.mk.inj (Option.some.inj h)
      exact ⟨rfl, fun _ => .inl, fun _ => .inr, fun _ => .kept rfl rfl rfl rfl,
        fun _ => .still rfl (.refl _) rfl⟩
    | succ left =>
      obtain ⟨rfl, rfl⟩ := Prod.mk.inj (Option.some.inj h)
      exact ⟨rfl, fun _ => .inl, fun _ => .inr, fun _ => .kept rfl rfl rfl rfl,
        fun _ => .still rfl (.refl _) rfl⟩
  | deciding turn left additional =>
    simp only [stepOffer?] at h
    split at h
    · obtain ⟨rfl, rfl⟩ := Prod.mk.inj (Option.some.inj h)
      exact ⟨rfl, fun _ => .inl, fun _ hv => .inr (List.mem_append_right _ hv),
        fun _ => .gave turn rfl rfl rfl rfl, fun _ => .still rfl (.refl _) rfl⟩
    · next mid decides =>
      obtain ⟨rfl, rfl⟩ := Prod.mk.inj (Option.some.inj h)
      have decided := Round.decides_decideFor decides
      have queue : mid.scheduler.queue = t.scheduler.queue := decided.queue
      exact ⟨rfl, fun _ hv => .inl (queue ▸ hv), fun _ => .inr, fun _ => .kept rfl rfl rfl rfl,
        fun _ => .still decided.books decided.keeps.ids rfl⟩
    · next op mid decides =>
      obtain ⟨rfl, rfl⟩ := Prod.mk.inj (Option.some.inj h)
      have decided := Round.decides_decideFor decides
      have queue : mid.scheduler.queue = t.scheduler.queue := decided.queue
      exact ⟨rfl, fun _ hv => .inl (queue ▸ hv), fun _ => .inr, fun _ => .kept rfl rfl rfl rfl,
        fun _ => .decided turn rfl rfl decided rfl rfl⟩
  | recording turn left op unrecorded =>
    cases unrecorded with
    | nil =>
      obtain ⟨rfl, rfl⟩ := Prod.mk.inj (Option.some.inj h)
      -- The turn goes on with the same run spec, whether a launch or a reservation was recorded.
      refine ⟨rfl, fun v hv => .inl ?_, ?_, ?_, ?_⟩
      · simp only [Round.collect] at hv
        split at hv
        · exact LaunchQueue.mem_runSpecs_launched hv
        · exact hv
      all_goals cases op.isLaunch
      · exact fun _ => .inr
      · exact fun _ => .inr
      · exact fun _ => .kept rfl rfl rfl rfl
      · exact fun _ => .kept rfl rfl rfl rfl
      · exact fun _ => .still rfl (.refl _) rfl
      · exact fun _ => .still rfl (.refl _) rfl
    | cons s rest =>
      simp only [stepOffer?, Option.some.injEq, Prod.mk.injEq] at h
      obtain ⟨rfl, rfl⟩ := h
      refine ⟨rfl, fun _ => .inl, ?_, ?_, ?_⟩
      all_goals cases (t.scheduler.books.process t.scheduler.storeTimeout s).1.isFailure
      · exact fun _ => .inr
      · exact fun _ => .inr
      · exact fun _ => .kept rfl rfl rfl rfl
      · exact fun _ => .kept rfl rfl rfl rfl
      · exact fun _ => .recorded turn s rest
          ⟨rfl, rfl, rfl, fun _ left => (Option.some.inj left).symm⟩
      · refine fun _ => .recorded turn s rest ⟨rfl, rfl, rfl, fun _ left => ?_⟩
        cases left
  | leaving turn =>
    obtain ⟨rfl, rfl⟩ := Prod.mk.inj (Option.some.inj h)
    exact ⟨rfl, fun _ => .inl, fun _ hv => .inr (List.mem_append_right _ hv),
      fun _ => .gave turn rfl rfl rfl rfl, fun _ => .still rfl (.refl _) rfl⟩
  | answered result => cases h
  | broken => cases h

theorem stepped_stepCall? (h : t.stepCall? place call = some (t', call')) :
    t.Stepped place call t' call' := by
  cases call with
  | offer c =>
    obtain ⟨⟨mid, c'⟩, step, heq⟩ := Option.map_eq_some_iff.1 h
    obtain ⟨rfl, rfl⟩ := Prod.mk.inj heq
    exact stepped_stepOffer? step
  | add runSpec count finished =>
    cases finished with
    | true => cases h
    | false =>
      obtain ⟨rfl, rfl⟩ := Prod.mk.inj (Option.some.inj h)
      exact ⟨rfl, fun _ hv => (LaunchQueue.mem_runSpecs_add hv).imp id List.mem_singleton.2,
        fun _ => .inr, fun _ => .kept rfl rfl rfl rfl, fun _ => .still rfl (.refl _) rfl⟩
  | remove id stage =>
    obtain ⟨⟨mid, stage'⟩, step, heq⟩ := Option.map_eq_some_iff.1 h
    obtain ⟨rfl, rfl⟩ := Prod.mk.inj heq
    cases stage with
    | queue =>
      obtain ⟨rfl, rfl⟩ := Prod.mk.inj (Option.some.inj step)
      exact ⟨rfl, fun _ hv => .inl (LaunchQueue.mem_runSpecs_remove hv), fun _ => .inr,
        fun _ => .kept rfl rfl rfl rfl, fun _ => .still rfl (.refl _) rfl⟩
    | statistics =>
      obtain ⟨rfl, rfl⟩ := Prod.mk.inj (Option.some.inj step)
      exact ⟨rfl, fun _ => .inl, fun _ => .inr, fun _ => .kept rfl rfl rfl rfl,
        fun _ => .still rfl (.refl _) rfl⟩
    | lock =>
      obtain ⟨rfl, rfl⟩ := Prod.mk.inj (Option.some.inj step)
      exact ⟨rfl, fun _ => .inl, fun _ => .inr, fun _ => .removed id rfl rfl rfl rfl,
        fun _ => .still rfl (.refl _) rfl⟩
    | finished => cases step

/-- What a step does, with the call that makes it. -/
theorem exists_stepped (h : t.step? place = some t') : ∃ call call',
    t.calls[place]? = some call ∧ t'.calls = t.calls.set place call' ∧
      (∀ v ∈ t'.declared, v ∈ t.declared) ∧ t.Guards place call t' call' ∧
        t.Writes call t' call' := by
  unfold step? at h
  split at h
  · cases h
  · next call at_ =>
    obtain ⟨⟨mid, call'⟩, step, rfl⟩ := Option.map_eq_some_iff.1 h
    have stepped := stepped_stepCall? step
    refine ⟨call, call', at_, ?_, ?_, stepped.guards _, stepped.writes _⟩
    · simp only [stepped.calls]
    · -- What the queue or the call has in mind, it has from the queue or the call before.
      have earlier : ∀ v, v ∈ t.scheduler.queue.runSpecs ∨ v ∈ call.declared → v ∈ t.declared :=
        fun v hv => List.mem_append.2 <| hv.imp id fun hv =>
          List.mem_flatMap.2 ⟨call, List.mem_of_getElem? at_, hv⟩
      intro v hv
      rcases List.mem_append.1 hv with hv | hv
      · exact earlier v (stepped.queue v hv)
      · obtain ⟨c, hc, declares⟩ := List.mem_flatMap.1 hv
        simp only [stepped.calls] at hc
        rcases List.mem_or_eq_of_mem_set hc with hc | rfl
        · exact List.mem_append_right _ (List.mem_flatMap.2 ⟨c, hc, declares⟩)
        · exact earlier v (stepped.mind v declares)

end

end Traffic

end Placement
