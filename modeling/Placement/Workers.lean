/-
Workers: messages with keys are spread over a fixed number of workers, each with a mailbox of its own.
All messages of a key go to the same worker.

A sender waits until there is room in the mailbox. Several can wait; messages of one key get in in the
order in which they were sent. A worker handles one message at a time, and looks for the stop signal
before each. Once it has seen the signal it stops, and whoever sent a message that it has not handled
learns of it. A worker that takes too long to see the signal is aborted, also in the middle of a message.

The order in which all this happens is a list of actions; `WorkerPool.run` follows any such list.
-/

namespace Placement

/-- A message, with its place among all that are sent. -/
structure Message (κ β : Type) where
  place : Nat
  key : κ
  body : β
  deriving DecidableEq, Repr

/-- The first message of a key, and all others. -/
def Message.first? {κ β : Type} [DecidableEq κ] (key : κ) :
    List (Message κ β) → Option (Message κ β × List (Message κ β))
  | [] => none
  | m :: rest =>
    if m.key = key then some (m, rest)
    else (first? key rest).map fun (found, others) => (found, m :: others)

/-! ## One worker -/

/-- Where a running worker is. -/
inductive WorkerPhase (κ β : Type) where
  /-- About to look for the signal. -/
  | looking
  /-- There was no signal; waiting for a message. -/
  | ready
  | handling (m : Message κ β)
  deriving DecidableEq, Repr

inductive WorkerState (κ β : Type) where
  /-- `waiting` has the messages whose senders wait for room in the mailbox. -/
  | running (phase : WorkerPhase κ β) (mailbox waiting : List (Message κ β))
  /-- `refused` has the messages whose senders learned of the stop. -/
  | stopped (refused : List (Message κ β))
  deriving DecidableEq, Repr

structure Worker (κ β : Type) where
  state : WorkerState κ β
  signalled : Bool
  /-- Messages that the worker has begun to handle, in that order. -/
  taken : List (Message κ β)
  /-- Those of them that it is through with. -/
  handled : List (Message κ β)
  deriving DecidableEq, Repr

/-- What can happen at a worker besides that a message is sent to it. -/
inductive WorkerStep (κ : Type) where
  /-- The first waiting message of a key gets into the mailbox. -/
  | accept (key : κ)
  | look
  | take
  | finish
  | signal
  | abort
  deriving DecidableEq, Repr

/-- The message that is being handled, if any. -/
def WorkerPhase.current {κ β : Type} : WorkerPhase κ β → List (Message κ β)
  | .handling m => [m]
  | _ => []

namespace Worker

variable {κ β : Type}

def idle : Worker κ β := ⟨.running .looking [] [], false, [], []⟩

/-- Messages that are neither handled nor refused, in the order in which they will be handled. -/
def held (w : Worker κ β) : List (Message κ β) :=
  match w.state with
  | .running phase mailbox waiting => phase.current ++ mailbox ++ waiting
  | .stopped _ => []

def refused (w : Worker κ β) : List (Message κ β) :=
  match w.state with
  | .running _ _ _ => []
  | .stopped refused => refused

def isStopped (w : Worker κ β) : Bool :=
  match w.state with
  | .running _ _ _ => false
  | .stopped _ => true

/-- A worker that ends; what it holds is refused. -/
def stop (w : Worker κ β) : Worker κ β := { w with state := .stopped w.held }

/-- A message is sent to the worker. -/
def receive (w : Worker κ β) (m : Message κ β) : Worker κ β :=
  match w.state with
  | .running phase mailbox waiting => { w with state := .running phase mailbox (waiting ++ [m]) }
  | .stopped refused => { w with state := .stopped (refused ++ [m]) }

/-- The worker after a step, `none` where it cannot happen now. -/
def step? [DecidableEq κ] (capacity : Nat) (w : Worker κ β) : WorkerStep κ → Option (Worker κ β)
  | .accept key =>
    match w.state with
    | .running phase mailbox waiting =>
      if mailbox.length < capacity then
        (Message.first? key waiting).map fun (m, others) =>
          { w with state := .running phase (mailbox ++ [m]) others }
      else none
    | .stopped _ => none
  | .look =>
    match w.state with
    | .running .looking mailbox waiting =>
      some (if w.signalled then w.stop else { w with state := .running .ready mailbox waiting })
    | .running .ready _ _ => if w.signalled then some w.stop else none
    | _ => none
  | .take =>
    match w.state with
    | .running .ready (m :: rest) waiting =>
      some { w with state := .running (.handling m) rest waiting, taken := w.taken ++ [m] }
    | _ => none
  | .finish =>
    match w.state with
    | .running (.handling m) mailbox waiting =>
      some { w with state := .running .looking mailbox waiting, handled := w.handled ++ [m] }
    | _ => none
  | .signal => if w.signalled then none else some { w with signalled := true }
  | .abort => if w.signalled && !w.isStopped then some w.stop else none

end Worker

/-! ## All workers -/

structure WorkerPool (κ β : Type) where
  workers : Nat
  /-- How many messages can be in one mailbox. -/
  capacity : Nat
  route : κ → Nat
  /-- Messages still to be sent, in their order. -/
  unsent : List (Message κ β)
  worker : Nat → Worker κ β

/-- What can happen next. -/
inductive WorkerAction (κ : Type) where
  /-- The next message of a key is sent. -/
  | send (key : κ)
  | worker (i : Nat) (step : WorkerStep κ)
  deriving DecidableEq, Repr

namespace WorkerPool

variable {κ β : Type}

/-- A pool that is about to get messages; it has a worker, and mailboxes hold a message, at least. -/
def ofMessages (workers capacity : Nat) (route : κ → Nat) (messages : List (κ × β)) :
    WorkerPool κ β where
  workers := max workers 1
  capacity := max capacity 1
  route := route
  unsent := messages.zipIdx.map fun (m, place) => ⟨place, m.1, m.2⟩
  worker := fun _ => .idle

/-- The worker that gets the messages of a key. -/
def workerOf (p : WorkerPool κ β) (key : κ) : Nat := p.route key % p.workers

/-- The pool with one worker replaced. -/
def setWorker (p : WorkerPool κ β) (i : Nat) (w : Worker κ β) : WorkerPool κ β :=
  { p with worker := fun j => if j = i then w else p.worker j }

/-- The messages handled so far, with the worker that handled each. -/
def handled (p : WorkerPool κ β) : List (Nat × Message κ β) :=
  (List.range p.workers).flatMap fun i => (p.worker i).handled.map (i, ·)

/-- The messages whose senders learned that the worker stopped. -/
def refused (p : WorkerPool κ β) : List (Message κ β) :=
  (List.range p.workers).flatMap fun i => (p.worker i).refused

/-- The pool after an action, `none` where it cannot happen now. -/
def step? [DecidableEq κ] (p : WorkerPool κ β) : WorkerAction κ → Option (WorkerPool κ β)
  | .send key =>
    let i := p.workerOf key
    (Message.first? key p.unsent).map fun (m, others) =>
      { p.setWorker i ((p.worker i).receive m) with unsent := others }
  | .worker i step =>
    if i < p.workers then ((p.worker i).step? p.capacity step).map (p.setWorker i) else none

/-- The pool after actions, one after another; those that cannot happen are skipped. -/
def run [DecidableEq κ] (p : WorkerPool κ β) : List (WorkerAction κ) → WorkerPool κ β
  | [] => p
  | a :: rest => ((p.step? a).getD p).run rest

/-! ## One message after another -/

/-- The actions by which each message is sent and handled before the next. The signal comes, and is
seen by all workers, before the message at `stopAt`. -/
def inTurn (p : WorkerPool κ β) (stopAt : Option Nat) : List (WorkerAction κ) :=
  p.unsent.flatMap fun m =>
    (if stopAt = some m.place then
      (List.range p.workers).flatMap fun i => [.worker i .signal, .worker i .look]
    else [])
      ++ .send m.key :: [.accept m.key, .look, .take, .finish].map (.worker (p.workerOf m.key))

/-- The answer of a worker to a message: the value it keeps for the key after that, and whether it
was the worker that took the last message of the key. -/
structure Reply (σ : Type) where
  value : σ
  sameWorker : Bool
  deriving DecidableEq, Repr

/-- The replies to handled messages, by their places, when each worker keeps a value for each key. -/
def replies {σ : Type} [DecidableEq κ] (start : σ) (next : σ → β → σ) :
    List (Nat × Message κ β) → List (κ × Nat × σ) → List (Nat × Reply σ)
  | [], _ => []
  | (w, m) :: rest, kept =>
    let last := kept.find? fun e => e.1 = m.key
    let value := next ((last.bind fun e => if e.2.1 = w then some e.2.2 else none).getD start) m.body
    let same := (last.map fun e => e.2.1 == w).getD true
    (m.place, ⟨value, same⟩) :: replies start next rest ((m.key, w, value) :: kept)

end WorkerPool

end Placement
