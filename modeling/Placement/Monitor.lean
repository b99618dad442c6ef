/-
The monitor: it looks over all instances from time to time. Launches that nobody confirmed are
killed; reservations whose time is over are given up; tasks that are unreachable for long become
inactive and are then forgotten; tasks that have come to their end are forgotten after a while. A
task that holds a reservation waits for its agent to come back.

A scan goes on whatever fails, and counts what it did.
-/
import Placement.Scheduler

namespace Placement

structure MonitorSettings where
  /-- How long a launch may go without any report. -/
  unconfirmedTimeout : Span
  /-- How long a task may be staging. -/
  launchTimeout : Span
  /-- How long a task that has come to its end is remembered. -/
  terminalExpungeDelay : Span
  initialDelay : Span
  interval : Span
  deriving DecidableEq, Repr

def MonitorSettings.usual : MonitorSettings :=
  ⟨.ofSeconds 300, .ofSeconds 300, .zero, .ofSeconds 30, .ofSeconds 5⟩

/-- What a scan asked for and what became of it. -/
structure ScanReport where
  tasks : List Task
  /-- The ops that the processor took, with its replies. -/
  replies : List (StateOp × Change)
  /-- The instances that were to be killed, with the first kill of each that failed. -/
  kills : List (Instance × Option KillError)
  deriving DecidableEq, Repr

/-- A scan in numbers. -/
structure ScanCounts where
  scanned : Nat
  overdueKilled : Nat
  reservationsTimedOut : Nat
  markedInactive : Nat
  expunged : Nat
  errors : Nat
  deriving DecidableEq, Repr

namespace ScanReport

def isExpunge : Change → Bool
  | .expunge _ => true
  | _ => false

def isUpdate : Change → Bool
  | .update _ _ => true
  | _ => false

def isReservationTimeout (op : StateOp) : Bool := op.kind == .reservationTimeout

def counts (r : ScanReport) : ScanCounts where
  scanned := r.tasks.length
  overdueKilled := r.kills.countP (·.2.isNone)
  reservationsTimedOut := r.replies.countP fun (op, c) => isReservationTimeout op && isExpunge c
  markedInactive := r.replies.countP (isUpdate ·.2)
  expunged := r.replies.countP fun (op, c) => !isReservationTimeout op && isExpunge c
  errors := r.kills.countP (·.2.isSome) + r.replies.countP (·.2.isFailure)

end ScanReport

namespace Monitor

variable {α : Type}

/-- The launch of a task has taken too long. -/
def isOverdue (m : MonitorSettings) (now : Timestamp) (t : Task) : Bool :=
  let waited := Timestamp.elapsed t.status.stagedAt now
  match t.condition with
  | .created => m.unconfirmedTimeout.nanos < waited
  | .staging => m.launchTimeout.nanos < waited
  | _ => false

/-- The op that a task is due for. -/
def housekeepingOp? (m : MonitorSettings) (now : Timestamp) (t : Task) : Option StateOp :=
  let since := Timestamp.elapsed t.status.since now
  if t.condition = .reserved then
    match t.reservationDeadline with
    | some deadline => if deadline.atMost now then some (.reservationTimeout t.id) else none
    | none => none
  else if t.condition.isTerminal then
    if m.terminalExpungeDelay.nanos ≤ since then some (.forceExpunge t.id) else none
  else if t.isResident then none
  else
    match t.condition with
    | .unreachable =>
      if t.unreachableStrategy.inactiveAfter.nanos ≤ since then
        some (.markUnreachableInactive t.id)
      else none
    | .unreachableInactive =>
      if t.unreachableStrategy.expungeAfter.nanos ≤ since then some (.forceExpunge t.id) else none
    | _ => none

/-- The op that a scan asks for a task. A task that is overdue is left for the kills. -/
def dueOp? (m : MonitorSettings) (now : Timestamp) (t : Task) : Option StateOp :=
  if isOverdue m now t then none else housekeepingOp? m now t

/-- The instances with an overdue task, by their ids. -/
def overdueInstances (m : MonitorSettings) (now : Timestamp) (snapshot : List Instance) :
    List Instance :=
  (OrderedMap.ofList ((snapshot.filter fun i => i.tasks.values.any (isOverdue m now)).map
    fun i => (i.id, i))).values

/-- A scan of given instances: the ops that their tasks are due for, then the kills. -/
def scanOf (m : MonitorSettings) (now : Timestamp) (snapshot : List Instance) (s : Scheduler α) :
    ScanReport × Scheduler α :=
  let tasks := snapshot.flatMap (·.tasks.values)
  let ops := tasks.filterMap (dueOp? m now)
  let overdue := overdueInstances m now snapshot
  let (changes, s) := s.processAll ops
  let (errors, manager) := s.manager.killInstances overdue
  (⟨tasks, ops.zip changes, overdue.zip errors⟩, { s with manager := manager })

/-- A scan of all instances that are known, in the order in which they are listed. -/
def scan (m : MonitorSettings) (now : Timestamp) (s : Scheduler α) : ScanReport × Scheduler α :=
  scanOf m now s.known s.listed

/-! ## Scans at intervals -/

/-- A scan that begins up to this late counts as begun in time, in nanoseconds. -/
def lateness : Nat := 5000000

/-- The time from one scan to the next, a millisecond at least. -/
def period (m : MonitorSettings) : Nat := max m.interval.nanos 1000000

/-- Scans at intervals until `stop`, all times in nanoseconds from the start. A scan is due at `due`,
and cannot begin before `free`, when the one before it is over. After a scan that began late the
intervals count from its beginning. -/
def scansUntil (m : MonitorSettings) (stop : Nat) :
    Nat → (due free : Nat) → Scheduler α → Scheduler α
  | 0, _, _, s => s
  | fuel + 1, due, free, s =>
    let begun := max due free
    if stop ≤ begun then s
    else
      let (_, after) := scan m s.now s
      let next := if due + lateness < begun then begun + period m else due + period m
      scansUntil m stop fuel next (begun + (after.books.waited - s.books.waited)) after

/-- Runs the monitor for a length of time. -/
def run (m : MonitorSettings) (length : Span) (s : Scheduler α) : Scheduler α :=
  scansUntil m length.nanos (length.millis + 1) m.initialDelay.nanos 0 s

end Monitor

end Placement
