/-
What reaches a scheduler from outside, one thing after another: offers, launches to be queued, run specs
to be removed, reports on tasks, scans of the monitor, and the time.

`Scheduler.run` takes any number of them in order. A scheduler that cannot go on takes no more. Offers and
scans find the known instances in the orders in which the scheduler lists them, which may differ each time.
-/
import Placement.Monitor

namespace Placement

inductive Event (α : Type) where
  | offer (offer : Offer α)
  | add (runSpec : RunSpec α) (count : Nat)
  | remove (id : RunSpecId)
  | report (id : TaskId) (report : StatusReport) (now : Timestamp)
  | scan (settings : MonitorSettings) (now : Timestamp)
  | clock (now : Timestamp)

namespace Scheduler

variable {α : Type} [Amount α]

/-- Takes in what has reached the scheduler. -/
def handle (s : Scheduler α) : Event α → Except RoundFault (Scheduler α)
  | .offer offer => (s.processOffer offer).map (·.2)
  | .add runSpec count => .ok { s with queue := s.queue.add runSpec count }
  | .remove id => .ok (s.removeRunSpec id)
  | .report id report now =>
    .ok { s with books := (s.books.process s.storeTimeout (.report id report now)).2 }
  | .scan settings now => .ok (Monitor.scan settings now s).2
  | .clock now => .ok { s with now := now }

/-- The scheduler after events in order. -/
def run (s : Scheduler α) : List (Event α) → Except RoundFault (Scheduler α)
  | [] => .ok s
  | event :: rest =>
    match s.handle event with
    | .error e => .error e
    | .ok s => s.run rest

end Scheduler

end Placement
