/-
The scheduler: what it knows, whom it talks to, and how one offer goes through it.

An offer is tried against all queued run specs in order. Each operation is recorded before anything
is sent: the processor takes its state ops, and an operation of which one fails is dropped. What an
operation uses is not there for the next. At the end the offer is accepted with all operations that
were recorded, or declined if there are none.

Each decision finds the known instances in whatever order they are listed at the time (`Scheduler.known`).
These orders belong to the scheduler, so that what is shown of all schedulers holds for all of them.
-/
import Placement.Decision
import Placement.Manager
import Placement.Matching.Remaining
import Placement.Processor
import Placement.Queue
import Placement.Statistics

namespace Placement

structure Scheduler (α : Type) where
  policy : LaunchPolicy
  gpus : GpuPolicy
  storeTimeout : Span
  books : Books
  queue : LaunchQueue α
  statistics : Statistics
  manager : Manager α
  ids : IdSupply
  now : Timestamp
  /-- The orders in which the known instances are listed, from the next time on. -/
  listings : Nat → Listing := fun _ => .byId

/-- What became of an offer. -/
inductive OfferOutcome (α : Type) where
  | accepted (operations : List (WireOperation α))
  | declined (reasons : List MismatchReason)
  deriving DecidableEq, Repr

/-- How far the work on one offer has come. -/
structure Progress (α : Type) where
  /-- The offer without what the operations so far use. -/
  remaining : Offer α
  /-- The operations that were recorded, in order. -/
  operations : List (InstanceOp α)
  /-- Why run specs were not launched. -/
  reasons : List MismatchReason
  deriving DecidableEq, Repr

/-- The work on an offer before anything has been tried. -/
def Progress.start {α : Type} (offer : Offer α) : Progress α := ⟨offer, [], []⟩

/-- The work on one offer, and the scheduler that does it. -/
structure Round (α : Type) extends Progress α where
  scheduler : Scheduler α

/-- The deadline of a new reservation lies outside the calendar; the scheduler cannot go on. -/
inductive RoundFault where
  | deadlineOutOfRange
  deriving DecidableEq, Repr

namespace Scheduler

variable {α : Type}

/-- The known instances, in the order in which they are listed next. -/
def known (s : Scheduler α) : List Instance := (s.listings 0).list s.books.tracker.snapshot

/-- The scheduler after the known instances were listed. -/
def listed (s : Scheduler α) : Scheduler α := { s with listings := fun n => s.listings (n + 1) }

theorem perm_known (s : Scheduler α) : s.known.Perm s.books.tracker.snapshot :=
  (s.listings 0).perm _

/-- Lets the processor take ops one after another; the replies stand in the same order. -/
def processAll (s : Scheduler α) (ops : List StateOp) : List Change × Scheduler α :=
  let (changes, books) := s.books.processAll s.storeTimeout ops
  (changes, { s with books := books })

/-- Records an operation: its state ops are taken in order, up to the first that fails. -/
def record (s : Scheduler α) (op : InstanceOp α) : Bool × Scheduler α :=
  let (done, books) := s.books.recordAll s.storeTimeout op.stateOps
  (done, { s with books := books })

/-- Stops launching a run spec, and forgets its statistics. -/
def removeRunSpec (s : Scheduler α) (id : RunSpecId) : Scheduler α :=
  { s with queue := s.queue.remove id, statistics := s.statistics.forget id }

end Scheduler

namespace Round

variable {α : Type} [Amount α]

/-- Takes up an operation that has been recorded. -/
def collect (r : Round α) (runSpecId : RunSpecId) (op : InstanceOp α) : Round α :=
  let s := r.scheduler
  { r with
    scheduler := { s with
      statistics := s.statistics.recordMatch runSpecId
      queue := if op.isLaunch then s.queue.launched runSpecId else s.queue }
    remaining := r.remaining.without op.consumed
    operations := r.operations ++ [op] }

/-- Decides on the offer for a run spec of which `additional` more launches are asked for: the
operation to record, if there is one, and the round after that. -/
def decideFor (runSpec : RunSpec α) (additional : Nat) (r : Round α) :
    Except RoundFault (Option (InstanceOp α) × Round α) :=
  let s := r.scheduler
  let (decision, ids) := Decision.evaluate s.policy s.gpus runSpec r.remaining s.known additional
    s.now s.ids
  let s := { s.listed with ids := ids }
  match decision with
  | .error .deadlineOutOfRange => .error .deadlineOutOfRange
  | .error (.badOp _) => .ok (none, { r with scheduler := s })
  | .ok .fullyPlaced => .ok (none, { r with scheduler := s })
  | .ok (.mismatch reasons) =>
    .ok (none, { r with
      scheduler := { s with statistics := s.statistics.recordMismatch runSpec.id reasons }
      reasons := r.reasons ++ reasons })
  | .ok (.op op) => .ok (some op, { r with scheduler := s })

/-- Tries the offer for one instance of a run spec: the round after that, and whether another
instance may be tried. -/
def attempt (runSpec : RunSpec α) (r : Round α) : Except RoundFault (Round α × Bool) :=
  match r.decideFor runSpec (r.scheduler.queue.remaining runSpec.id) with
  | .error e => .error e
  | .ok (none, r) => .ok (r, false)
  | .ok (some op, r) =>
    match r.scheduler.record op with
    | (false, s) => .ok ({ r with scheduler := s }, false)
    | (true, s) => .ok ({ r with scheduler := s }.collect runSpec.id op, op.isLaunch)

/-- Tries the offer for up to `count` instances of a run spec. A reservation is launched on when it
comes back in a later offer, so nothing more is tried after one. -/
def serve (runSpec : RunSpec α) : Nat → Round α → Except RoundFault (Round α)
  | 0, r => .ok r
  | count + 1, r =>
    match r.attempt runSpec with
    | .error e => .error e
    | .ok (r, true) => serve runSpec count r
    | .ok (r, false) => .ok r

/-- Tries the offer for all requests of a list. -/
def serveAll : List (LaunchRequest α) → Round α → Except RoundFault (Round α)
  | [], r => .ok r
  | request :: rest, r =>
    match r.serve request.runSpec request.runSpec.instances with
    | .error e => .error e
    | .ok r => serveAll rest r

/-- The operations to send. -/
def wireOperations (r : Round α) : List (WireOperation α) :=
  r.operations.flatMap (·.wireOperations)

/-- Answers the offer. -/
def answer (offerId : OfferId) (r : Round α) :
    Except ManagerError (OfferOutcome α) × Scheduler α :=
  let s := r.scheduler
  let (call, outcome) : ManagerCall α × OfferOutcome α :=
    if r.wireOperations.isEmpty then (.decline offerId, .declined (MismatchReason.listed r.reasons))
    else (.accept offerId r.wireOperations, .accepted r.wireOperations)
  let (answer, manager) := s.manager.call call
  (answer.map fun _ => outcome, { s with manager := manager })

end Round

namespace Scheduler

variable {α : Type} [Amount α]

/-- Works through the queue with an offer. -/
def round (s : Scheduler α) (offer : Offer α) : Except RoundFault (Round α) :=
  Round.serveAll s.queue.requests ⟨.start offer, s⟩

/-- Takes an offer and answers it. -/
def processOffer (s : Scheduler α) (offer : Offer α) :
    Except RoundFault (Except ManagerError (OfferOutcome α) × Scheduler α) :=
  (s.round offer).map fun r => r.answer offer.id

end Scheduler

end Placement
