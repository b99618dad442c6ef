/-
Several calls of one scheduler at once: calls that take an offer, calls that queue launches, and calls
that remove a run spec. They take turns in small steps. A step reaches for one thing: the queue, the
locks, the tracker and what is decided from it, or the processor with one state op.

A call that takes an offer decides on each run spec under a lock, and keeps the lock until what it
decided is recorded. A table has the lock of each run spec. A lock is made when the table has none, and
leaves the table when the run spec is removed, whoever may hold it then.

`Traffic.run` follows any order of turns.
-/
import Placement.Scheduler

namespace Placement

abbrev LockId := Nat

/-- A run spec whose turn it is within a call, and the lock that the call has found for it. -/
structure Turn (α : Type) where
  runSpec : RunSpec α
  lock : LockId
  deriving DecidableEq, Repr

/-- Where a call that takes an offer stands. -/
inductive OfferStage (α : Type) where
  /-- About to read the queue. -/
  | listing
  /-- About to look up the lock of the next run spec, or to answer the offer if none is left. -/
  | seeking
  /-- About to take the lock. -/
  | waiting (turn : Turn α)
  /-- About to read how many launches are asked for; `left` instances may still be tried. -/
  | counting (turn : Turn α) (left : Nat)
  /-- About to read the tracker and to decide. -/
  | deciding (turn : Turn α) (left additional : Nat)
  /-- About to have the next state op of an operation recorded. -/
  | recording (turn : Turn α) (left : Nat) (op : InstanceOp α) (unrecorded : List StateOp)
  /-- About to give the lock back. -/
  | leaving (turn : Turn α)
  | answered (result : Except ManagerError (OfferOutcome α))
  /-- Given up, because a deadline lies outside the calendar. -/
  | broken

/-- A call that takes an offer. -/
structure OfferCall (α : Type) where
  offer : Offer α
  /-- The requests whose turn has not come yet. -/
  requests : List (LaunchRequest α)
  progress : Progress α
  stage : OfferStage α

/-- Where a call that removes a run spec stands. -/
inductive RemovalStage where
  | queue
  | statistics
  | lock
  | finished
  deriving DecidableEq, Repr

inductive Call (α : Type) where
  | offer (call : OfferCall α)
  | add (runSpec : RunSpec α) (count : Nat) (finished : Bool)
  | remove (id : RunSpecId) (stage : RemovalStage)

/-- A scheduler and the calls that are made of it. -/
structure Traffic (α : Type) where
  scheduler : Scheduler α
  /-- The lock of each run spec. -/
  locks : OrderedMap RunSpecId LockId
  /-- The next lock that will be made. -/
  nextLock : LockId
  /-- The place of the call that holds a lock. -/
  holder : LockId → Option Nat
  calls : List (Call α)

namespace OfferCall

variable {α : Type}

/-- A call that has not done anything yet. -/
def start (offer : Offer α) : OfferCall α := ⟨offer, [], .start offer, .listing⟩

/-- The work of the call, done by a scheduler. -/
def round (c : OfferCall α) (s : Scheduler α) : Round α := ⟨c.progress, s⟩

/-- The run spec of which the call has seen the instances and has not recorded its decision. -/
def recordingFor? (c : OfferCall α) : Option RunSpecId :=
  match c.stage with
  | .recording turn _ _ _ => some turn.runSpec.id
  | _ => none

end OfferCall

namespace Traffic

variable {α : Type}

/-- A scheduler of which calls are about to be made. -/
def start (s : Scheduler α) (calls : List (Call α)) : Traffic α :=
  ⟨s, ∅, 0, fun _ => none, calls⟩

/-- The lock of a run spec, made if there is none. -/
def lockOf (t : Traffic α) (id : RunSpecId) : LockId × Traffic α :=
  match t.locks.find? id with
  | some lock => (lock, t)
  | none =>
    (t.nextLock, { t with locks := t.locks.insert id t.nextLock, nextLock := t.nextLock + 1 })

/-- Gives a lock to a call, or to none. -/
def setHolder (t : Traffic α) (lock : LockId) (holder : Option Nat) : Traffic α :=
  { t with holder := fun l => if l = lock then holder else t.holder l }

/-- One step of the call at a place that takes an offer; `none` where it has to wait, or is over. -/
def stepOffer? [Amount α] (t : Traffic α) (place : Nat) (c : OfferCall α) :
    Option (Traffic α × OfferCall α) :=
  match c.stage with
  | .listing =>
    some (t, { c with requests := t.scheduler.queue.requests, stage := .seeking })
  | .seeking =>
    match c.requests with
    | [] =>
      let (result, s) := (c.round t.scheduler).answer c.offer.id
      some ({ t with scheduler := s }, { c with stage := .answered result })
    | r :: rest =>
      let (lock, t) := t.lockOf r.runSpec.id
      some (t, { c with requests := rest, stage := .waiting ⟨r.runSpec, lock⟩ })
  | .waiting turn =>
    match t.holder turn.lock with
    | some _ => none
    | none =>
      some (t.setHolder turn.lock (some place),
        { c with stage := .counting turn turn.runSpec.instances })
  | .counting turn 0 => some (t, { c with stage := .leaving turn })
  | .counting turn (left + 1) =>
    some (t, { c with stage := .deciding turn left (t.scheduler.queue.remaining turn.runSpec.id) })
  | .deciding turn left additional =>
    match (c.round t.scheduler).decideFor turn.runSpec additional with
    | .error _ => some (t.setHolder turn.lock none, { c with stage := .broken })
    | .ok (none, r) =>
      some ({ t with scheduler := r.scheduler },
        { c with progress := r.toProgress, stage := .leaving turn })
    | .ok (some op, r) =>
      some ({ t with scheduler := r.scheduler },
        { c with progress := r.toProgress, stage := .recording turn left op op.stateOps })
  | .recording turn left op [] =>
    let r := (c.round t.scheduler).collect turn.runSpec.id op
    some ({ t with scheduler := r.scheduler },
      { c with
        progress := r.toProgress
        stage := if op.isLaunch then .counting turn left else .leaving turn })
  | .recording turn left op (stateOp :: rest) =>
    let s := t.scheduler
    let (change, books) := s.books.process s.storeTimeout stateOp
    some ({ t with scheduler := { s with books := books } },
      { c with stage := if change.isFailure then .leaving turn else .recording turn left op rest })
  | .leaving turn => some (t.setHolder turn.lock none, { c with stage := .seeking })
  | .answered _ => none
  | .broken => none

/-- One step of a call that removes a run spec. -/
def stepRemoval? (t : Traffic α) (id : RunSpecId) : RemovalStage → Option (Traffic α × RemovalStage)
  | .queue =>
    some ({ t with scheduler := { t.scheduler with queue := t.scheduler.queue.remove id } },
      .statistics)
  | .statistics =>
    some ({ t with scheduler :=
      { t.scheduler with statistics := t.scheduler.statistics.forget id } }, .lock)
  | .lock => some ({ t with locks := t.locks.erase id }, .finished)
  | .finished => none

/-- One step of a call at a place, and the call after it. -/
def stepCall? [Amount α] (t : Traffic α) (place : Nat) : Call α → Option (Traffic α × Call α)
  | .offer c => (t.stepOffer? place c).map fun (t, c) => (t, .offer c)
  | .add runSpec count false =>
    some ({ t with scheduler :=
      { t.scheduler with queue := t.scheduler.queue.add runSpec count } }, .add runSpec count true)
  | .add _ _ true => none
  | .remove id stage => (t.stepRemoval? id stage).map fun (t, stage) => (t, .remove id stage)

/-- One step of the call at a place, `none` where it cannot make one now. -/
def step? [Amount α] (t : Traffic α) (place : Nat) : Option (Traffic α) :=
  match t.calls[place]? with
  | none => none
  | some call =>
    (t.stepCall? place call).map fun (t, call) => { t with calls := t.calls.set place call }

/-- The calls make steps in the order of a list of places; those that cannot are passed over. -/
def run [Amount α] (t : Traffic α) : List Nat → Traffic α
  | [] => t
  | place :: rest => ((t.step? place).getD t).run rest

/-- The places of the calls that have seen the instances of a run spec and have not recorded what they
decided. -/
def recordingFor (t : Traffic α) (id : RunSpecId) : List Nat :=
  (List.range t.calls.length).filter fun place =>
    match t.calls[place]? with
    | some (.offer c) => c.recordingFor? == some id
    | _ => false

end Traffic

end Placement
