/-
Delivery of messages by all workers together, in any order of actions.

* `WorkerPool.Moves` has what an action can do. `run_induction` and `run_worker` carry a fact about
  actions, or about the steps of one worker, over a whole run.
* `WorkerPool.Accounted`: the messages of a key are in one place after another, in the order in which
  they were sent, all with the worker of the key.
* `WorkerPool.Fair.settles`: each action uses up some of the work that is left, so an unending run in which
  nothing that can go on is left aside forever comes to rest, and then every message has an answer.
* `WorkerPool.delivery` is the main result: `Delivers` at every moment of every run, and `Settles` in
  the end of every fair one.
-/
import Mathlib.Algebra.BigOperators.Group.Finset.Basic
import Mathlib.Algebra.Order.BigOperators.Group.Finset
import Mathlib.Data.List.Perm.Basic
import Mathlib.Data.List.Sigma
import Mathlib.Order.OrderIsoNat
import Placement.Proofs.Worker

namespace Placement

variable {κ β : Type}

/-- What each key has in the same order is the same in some order. -/
theorem Message.perm_of_ofKey [DecidableEq κ] {a b : List (Message κ β)}
    (h : ∀ key, ofKey key a = ofKey key b) : a.Perm b := by
  classical
  refine List.perm_iff_count.2 fun m => ?_
  have counted (l : List (Message κ β)) : (ofKey m.key l).count m = l.count m :=
    List.count_filter (decide_eq_true rfl)
  rw [← counted a, ← counted b, h]

/-- Where one list alone has messages of a key, all of the key are in it. -/
theorem Message.ofKey_flatMap [DecidableEq κ] {key : κ} {n count : Nat} {f : Nat → List (Message κ β)}
    (h : n < count) (others : ∀ i ≠ n, ofKey key (f i) = []) :
    ofKey key ((List.range count).flatMap f) = ofKey key (f n) := by
  induction count with
  | zero => cases h
  | succ count ih =>
    rw [List.range_succ, List.flatMap_append, List.flatMap_singleton, ofKey_append]
    rcases Nat.lt_succ_iff_lt_or_eq.1 h with lt | rfl
    · rw [ih lt, others count (Nat.ne_of_gt lt), List.append_nil]
    · have before : ofKey key ((List.range n).flatMap f) = [] := by
        refine List.filter_eq_nil_iff.2 fun m hm => ?_
        obtain ⟨i, hi, hm⟩ := List.mem_flatMap.1 hm
        exact List.filter_eq_nil_iff.1 (others i (Nat.ne_of_lt (List.mem_range.1 hi))) m hm
      rw [before, List.nil_append]

/-- The actions that come by themselves. -/
def WorkerAction.isOwed : WorkerAction κ → Bool
  | .send _ => true
  | .worker _ step => step.isOwed

namespace WorkerPool

open Message

/-! ## What an action can do -/

/-- The actions, with the pool before and after each. -/
inductive Moves : WorkerPool κ β → WorkerAction κ → WorkerPool κ β → Prop
  | send {p m before after} (next : p.unsent = before ++ m :: after)
      (first : ∀ x ∈ before, x.key ≠ m.key) :
      Moves p (.send m.key)
        { p.setWorker (p.workerOf m.key) ((p.worker (p.workerOf m.key)).receive m) with
          unsent := before ++ after }
  | worker {p i step w} (h : i < p.workers) (moves : Worker.Moves p.capacity (p.worker i) step w) :
      Moves p (.worker i step) (p.setWorker i w)

variable {p q : WorkerPool κ β} {a : WorkerAction κ} {i : Nat} {all : List (Message κ β)}

@[simp] theorem setWorker_self (p : WorkerPool κ β) (i : Nat) (w : Worker κ β) :
    (p.setWorker i w).worker i = w := if_pos rfl

theorem setWorker_other (p : WorkerPool κ β) (w : Worker κ β) {j : Nat} (h : j ≠ i) :
    (p.setWorker i w).worker j = p.worker j := if_neg h

theorem workerOf_lt (h : 0 < p.workers) (key : κ) : p.workerOf key < p.workers := Nat.mod_lt _ h

theorem Moves.settings (h : Moves p a q) :
    q.workers = p.workers ∧ q.capacity = p.capacity ∧ q.route = p.route := by
  cases h <;> exact ⟨rfl, rfl, rfl⟩

/-- A worker stays as it is, gets a message, or makes a step. -/
theorem Moves.worker_cases (h : Moves p a q) (i : Nat) : q.worker i = p.worker i ∨
    (∃ m, q.worker i = (p.worker i).receive m) ∨
      ∃ step, a = .worker i step ∧ Worker.Moves p.capacity (p.worker i) step (q.worker i) := by
  cases h with
  | @send m =>
    by_cases hi : i = p.workerOf m.key
    · subst hi
      exact .inr (.inl ⟨m, if_pos rfl⟩)
    · exact .inl (if_neg hi)
  | @worker j step w _ moves =>
    by_cases hi : i = j
    · subst hi
      exact .inr (.inr ⟨step, rfl, by rw [setWorker_self]; exact moves⟩)
    · exact .inl (if_neg hi)

/-! ## Work that is left -/

/-- A bound on the actions that can still happen. -/
def work (p : WorkerPool κ β) : Nat :=
  5 * p.unsent.length + ∑ i ∈ Finset.range p.workers, (p.worker i).work

theorem sum_work_setWorker (h : i < p.workers) (w : Worker κ β) :
    ∑ j ∈ Finset.range p.workers, ((p.setWorker i w).worker j).work + (p.worker i).work =
      ∑ j ∈ Finset.range p.workers, (p.worker j).work + w.work := by
  have others : ∑ j ∈ (Finset.range p.workers).erase i, ((p.setWorker i w).worker j).work =
      ∑ j ∈ (Finset.range p.workers).erase i, (p.worker j).work :=
    Finset.sum_congr rfl fun j hj => by rw [setWorker_other p w (Finset.ne_of_mem_erase hj)]
  have before := Finset.add_sum_erase _ (fun j => (p.worker j).work) (Finset.mem_range.2 h)
  have after := Finset.add_sum_erase _ (fun j => ((p.setWorker i w).worker j).work)
    (Finset.mem_range.2 h)
  simp only [setWorker_self] at before after
  omega

theorem Moves.work_lt (h : Moves p a q) (some_worker : 0 < p.workers) : q.work < p.work := by
  cases h with
  | @send m before after next first =>
    have set := sum_work_setWorker (workerOf_lt some_worker m.key)
      ((p.worker (p.workerOf m.key)).receive m)
    have received := (p.worker (p.workerOf m.key)).work_receive m
    have sent : p.unsent.length = (before ++ after).length + 1 := by
      rw [next, List.length_append, List.length_append, List.length_cons, Nat.add_assoc]
    show 5 * (before ++ after).length + ∑ j ∈ Finset.range p.workers, ((p.setWorker _ _).worker j).work <
      5 * p.unsent.length + ∑ j ∈ Finset.range p.workers, (p.worker j).work
    omega
  | @worker i step w hi moves =>
    have set := sum_work_setWorker hi w
    have less := moves.work_lt
    show 5 * p.unsent.length + ∑ j ∈ Finset.range p.workers, ((p.setWorker i w).worker j).work <
      5 * p.unsent.length + ∑ j ∈ Finset.range p.workers, (p.worker j).work
    omega

/-! ## All workers together -/

/-- What has no answer yet, at any worker. -/
def held (p : WorkerPool κ β) : List (Message κ β) :=
  (List.range p.workers).flatMap fun i => (p.worker i).held

theorem map_snd_handled (p : WorkerPool κ β) :
    p.handled.map Prod.snd = (List.range p.workers).flatMap fun i => (p.worker i).handled := by
  simp [handled, List.map_flatMap, Function.comp_def]

theorem refused_eq_nil (h : ∀ i, (p.worker i).isStopped = false) : p.refused = [] := by
  refine List.flatMap_eq_nil_iff.2 fun i _ => ?_
  have running := h i
  unfold Worker.isStopped at running
  unfold Worker.refused
  split at running
  · rfl
  · cases running

theorem nodup_unsent (workers capacity : Nat) (route : κ → Nat) (messages : List (κ × β)) :
    (ofMessages workers capacity route messages).unsent.Nodup := by
  refine List.Nodup.of_map Message.place ?_
  rw [ofMessages, List.map_map]
  exact List.nodup_zipIdx_map_snd messages

/-! ## Runs -/

variable [DecidableEq κ] {schedule : List (WorkerAction κ)}

/-- There is nothing else that an action does. -/
theorem moves_of_step? (h : p.step? a = some q) : Moves p a q := by
  cases a with
  | send key =>
    obtain ⟨⟨m, others⟩, found, rfl⟩ := Option.map_eq_some_iff.1 h
    obtain ⟨rfl, before, after, next, rfl, first⟩ := of_first?_eq_some found
    exact .send next first
  | worker i step =>
    obtain ⟨hi, h⟩ := Option.ite_none_right_eq_some.1 h
    obtain ⟨w, moved, rfl⟩ := Option.map_eq_some_iff.1 h
    exact .worker hi (Worker.moves_of_step? moved)

/-- What the actions of a run keep holds at its end. -/
theorem run_induction {P : WorkerPool κ β → Prop} (start : P p)
    (step : ∀ a ∈ schedule, ∀ p q, Moves p a q → P p → P q) : P (p.run schedule) := by
  induction schedule generalizing p with
  | nil => exact start
  | cons a rest ih =>
    have later : ∀ b ∈ rest, ∀ p q, Moves p b q → P p → P q :=
      fun b hb => step b (List.mem_cons_of_mem _ hb)
    cases h : p.step? a with
    | none =>
      rw [run, h]
      exact ih start later
    | some q =>
      rw [run, h]
      exact ih (step a List.mem_cons_self p q (moves_of_step? h) start) later

theorem settings_run (p : WorkerPool κ β) (schedule : List (WorkerAction κ)) :
    (p.run schedule).workers = p.workers ∧ (p.run schedule).capacity = p.capacity ∧
      (p.run schedule).route = p.route := by
  refine run_induction (P := fun q => q.workers = p.workers ∧ q.capacity = p.capacity ∧
    q.route = p.route) ⟨rfl, rfl, rfl⟩ ?_
  intro a _ q r moves settings
  obtain ⟨workers, capacity, route⟩ := moves.settings
  exact ⟨workers.trans settings.1, capacity.trans settings.2.1, route.trans settings.2.2⟩

theorem workerOf_run (p : WorkerPool κ β) (schedule : List (WorkerAction κ)) (key : κ) :
    (p.run schedule).workerOf key = p.workerOf key := by
  rw [workerOf, workerOf, (p.settings_run schedule).1, (p.settings_run schedule).2.2]

/-- What sent messages and the steps of a worker keep holds of the worker at the end of a run. -/
theorem run_worker {P : Worker κ β → Prop} (start : P (p.worker i))
    (received : ∀ w m, P w → P (w.receive m))
    (moved : ∀ step, .worker i step ∈ schedule → ∀ capacity w v,
      Worker.Moves capacity w step v → P w → P v) :
    P ((p.run schedule).worker i) := by
  refine run_induction (P := fun p => P (p.worker i)) start ?_
  intro a ha p q moves hp
  rcases moves.worker_cases i with same | ⟨m, sent⟩ | ⟨step, rfl, stepped⟩
  · rw [same]
    exact hp
  · rw [sent]
    exact received _ m hp
  · exact moved step ha _ _ _ stepped hp

theorem run_append (p : WorkerPool κ β) (first later : List (WorkerAction κ)) :
    p.run (first ++ later) = (p.run first).run later := by
  induction first generalizing p with
  | nil => rfl
  | cons a rest ih => exact ih _

/-! ## No message is lost -/

/-- The messages of each key are with its worker or still to be sent, in the order of all. -/
structure Accounted (all : List (Message κ β)) (p : WorkerPool κ β) : Prop where
  own : ∀ key, ofKey key (p.worker (p.workerOf key)).messages ++ ofKey key p.unsent = ofKey key all
  others : ∀ i key, i ≠ p.workerOf key → ofKey key (p.worker i).messages = []

theorem Moves.accounted (h : Moves p a q) (accounted : Accounted all p) : Accounted all q := by
  cases h with
  | @send m before after next first =>
    have moved (key : κ) : ofKey key [m] ++ ofKey key (before ++ after) = ofKey key p.unsent := by
      rw [next, ← ofKey_move first key, ← ofKey_append]
      rfl
    have foreign {key : κ} (hkey : p.workerOf key ≠ p.workerOf m.key) : ofKey key [m] = [] :=
      List.filter_eq_nil_iff.2 fun x hx same => hkey (by
        rw [← of_decide_eq_true same, List.mem_singleton.1 hx])
    constructor
    · intro key
      rw [← accounted.own key, ← moved key]
      show ofKey key (Worker.messages (if p.workerOf key = p.workerOf m.key then _ else _)) ++ _ = _
      split
      · next same => simp [Worker.messages_receive, same]
      · rw [foreign ‹_›]
        rfl
    · intro i key hi
      show ofKey key (Worker.messages (if i = p.workerOf m.key then _ else _)) = []
      split
      · next same =>
        subst same
        rw [Worker.messages_receive, ofKey_append, accounted.others _ key hi, foreign (Ne.symm hi)]
        rfl
      · exact accounted.others i key hi
  | @worker i step w _ moves =>
    have same (j : Nat) (key : κ) :
        ofKey key ((p.setWorker i w).worker j).messages = ofKey key (p.worker j).messages := by
      by_cases hj : j = i
      · rw [hj, setWorker_self]
        exact moves.ofKey_messages key
      · rw [setWorker_other p w hj]
    exact ⟨fun key => (congrArg (· ++ _) (same _ key)).trans (accounted.own key),
      fun j key hj => (same j key).trans (accounted.others j key hj)⟩

namespace Accounted

variable (accounted : Accounted all p) (some_worker : 0 < p.workers)

include accounted some_worker

/-- Every message is handled, refused, held or still to be sent, and only one of these. -/
theorem perm : (p.handled.map Prod.snd ++ p.refused ++ p.held ++ p.unsent).Perm all := by
  have gathered : (p.handled.map Prod.snd ++ p.refused ++ p.held).Perm
      ((List.range p.workers).flatMap fun i => (p.worker i).messages) := by
    rw [map_snd_handled]
    exact ((List.flatMap_append_perm _ _ _).append_right _).trans (List.flatMap_append_perm _ _ _)
  refine (gathered.append_right _).trans (perm_of_ofKey fun key => ?_)
  rw [ofKey_append, ofKey_flatMap (workerOf_lt some_worker key) fun i hi => accounted.others i key hi]
  exact accounted.own key

/-- The messages of a key that are handled are the first of those that were sent. -/
theorem inOrder (key : κ) : ofKey key (p.handled.map Prod.snd) <+: ofKey key all := by
  have others (i : Nat) (hi : i ≠ p.workerOf key) : ofKey key (p.worker i).handled = [] := by
    have none_there := accounted.others i key hi
    rw [Worker.messages, ofKey_append, ofKey_append, List.append_assoc] at none_there
    exact (List.append_eq_nil_iff.1 none_there).1
  rw [map_snd_handled, ofKey_flatMap (workerOf_lt some_worker key) others, ← accounted.own key]
  simp [Worker.messages]

omit some_worker in
theorem routed {m : Message κ β} (h : (i, m) ∈ p.handled) : i = p.workerOf m.key := by
  by_contra hi
  obtain ⟨j, -, hj⟩ := List.mem_flatMap.1 h
  obtain ⟨x, hx, same⟩ := List.mem_map.1 hj
  cases same
  have here : m ∈ ofKey m.key (p.worker i).messages :=
    List.mem_filter.2 ⟨List.mem_append_left _ (List.mem_append_left _ hx), decide_eq_true rfl⟩
  rw [accounted.others i m.key hi] at here
  cases here

end Accounted

/-! ## Every moment of every run -/

variable {start : WorkerPool κ β}

/-- What holds after any actions. -/
structure Delivers (start : WorkerPool κ β) (schedule : List (WorkerAction κ)) : Prop where
  /-- No message is handled twice, or refused twice, or both handled and refused. -/
  once : ((start.run schedule).handled.map Prod.snd ++ (start.run schedule).refused).Nodup
  sent : ∀ m ∈ (start.run schedule).handled.map Prod.snd ++ (start.run schedule).refused,
    m ∈ start.unsent
  /-- The messages of a key that are handled are the first of those that were sent. -/
  inOrder : ∀ key, ofKey key ((start.run schedule).handled.map Prod.snd) <+: ofKey key start.unsent
  /-- So are those that their worker has begun to handle. -/
  begun : ∀ key, ofKey key ((start.run schedule).worker (start.workerOf key)).taken <+:
    ofKey key start.unsent
  routed : ∀ i m, (i, m) ∈ (start.run schedule).handled → i = start.workerOf m.key
  /-- A worker that has seen the signal begins nothing. -/
  stops : ∀ i, ((start.run schedule).worker i).isStopped = true → ∀ later,
    ((start.run (schedule ++ later)).worker i).taken = ((start.run schedule).worker i).taken
  /-- Only an abort has a message refused that a worker has begun to handle. -/
  whole : (∀ i, .worker i .abort ∉ schedule) → ∀ i < start.workers,
    ∀ m ∈ ((start.run schedule).worker i).taken, m ∉ (start.run schedule).refused
  /-- Without a signal no message is refused. -/
  unstopped : (∀ i, .worker i .signal ∉ schedule) → (start.run schedule).refused = []

variable {workers capacity : Nat} {route : κ → Nat} {messages : List (κ × β)}

theorem accounted_run : Accounted (ofMessages workers capacity route messages).unsent
    ((ofMessages workers capacity route messages).run schedule) :=
  run_induction ⟨fun _ => rfl, fun _ _ _ => rfl⟩ fun _ _ _ _ moves => moves.accounted

theorem orderly_run : (((ofMessages workers capacity route messages).run schedule).worker i).Orderly :=
  run_worker (P := Worker.Orderly) rfl (fun _ m h => h.receive m) fun _ _ _ _ _ moves => moves.orderly

theorem through_run (patient : .worker i .abort ∉ schedule) :
    (((ofMessages workers capacity route messages).run schedule).worker i).Through := by
  have start : (Worker.idle : Worker κ β).Orderly ∧ (Worker.idle : Worker κ β).Through := ⟨rfl, nofun⟩
  refine (run_worker (P := fun w => w.Orderly ∧ w.Through) start
    (fun _ m h => ⟨h.1.receive m, h.2.receive m⟩) ?_).2
  rintro step hstep _ _ _ moves ⟨orderly, through⟩
  exact ⟨moves.orderly orderly, moves.through orderly through (by rintro rfl; exact patient hstep)⟩

theorem running_run (quiet : .worker i .signal ∉ schedule) :
    (((ofMessages workers capacity route messages).run schedule).worker i).isStopped = false := by
  refine (run_worker (P := fun w => w.isStopped = false ∧ w.signalled = false) ⟨rfl, rfl⟩ ?_ ?_).1
  · rintro w m ⟨running, unsignalled⟩
    exact ⟨by rw [w.isStopped_receive m, running], by rw [w.signalled_receive m, unsignalled]⟩
  · rintro step hstep _ _ _ moves ⟨running, unsignalled⟩
    exact moves.running running unsignalled (by rintro rfl; exact quiet hstep)

/-- A worker that has stopped takes no more messages. -/
theorem taken_run (stopped : (p.worker i).isStopped = true) :
    ((p.run schedule).worker i).taken = (p.worker i).taken := by
  refine (run_worker (P := fun w => w.isStopped = true ∧ w.taken = (p.worker i).taken)
    ⟨stopped, rfl⟩ ?_ ?_).2
  · rintro w m ⟨stopped, same⟩
    exact ⟨by rw [w.isStopped_receive m, stopped], by rw [w.taken_receive m, same]⟩
  · rintro _ _ _ _ _ moves ⟨stopped, same⟩
    exact ⟨(moves.stopped stopped).1, (moves.stopped stopped).2.trans same⟩

theorem delivers_run (workers capacity : Nat) (route : κ → Nat) (messages : List (κ × β))
    (schedule : List (WorkerAction κ)) :
    Delivers (ofMessages workers capacity route messages) schedule := by
  have count := (settings_run (ofMessages workers capacity route messages) schedule).1
  have some_worker : 0 < ((ofMessages workers capacity route messages).run schedule).workers := by
    rw [count]
    exact Nat.lt_of_lt_of_le Nat.one_pos (Nat.le_max_right workers 1)
  have accounted : Accounted (ofMessages workers capacity route messages).unsent
    ((ofMessages workers capacity route messages).run schedule) := accounted_run
  have places := accounted.perm some_worker
  have different := places.nodup_iff.2 (nodup_unsent workers capacity route messages)
  constructor
  case once => exact different.of_append_left.of_append_left
  case sent => exact fun m hm => places.mem_iff.1 (List.mem_append_left _ (List.mem_append_left _ hm))
  case inOrder => exact accounted.inOrder some_worker
  case begun =>
    intro key
    rw [← workerOf_run _ schedule, ← accounted.own key]
    exact (orderly_run.taken_prefix.filter _).trans (List.prefix_append _ _)
  case routed =>
    intro i m hm
    rw [accounted.routed hm, workerOf_run]
  case stops =>
    intro i stopped later
    rw [run_append]
    exact taken_run stopped
  case whole =>
    intro patient i hi m taken refused
    have here := List.mem_range.2 (lt_of_lt_of_eq hi count.symm)
    rcases orderly_run.mem_of_taken (through_run (patient i)) taken with handled | held
    · refine List.disjoint_of_nodup_append different.of_append_left.of_append_left ?_ refused
      rw [map_snd_handled]
      exact List.mem_flatMap.2 ⟨i, here, handled⟩
    · exact List.disjoint_of_nodup_append different.of_append_left
        (List.mem_append_right _ refused) (List.mem_flatMap.2 ⟨i, here, held⟩)
  case unstopped => exact fun quiet => refused_eq_nil fun i => running_run (quiet i)

/-! ## Unending runs -/

/-- The pool after the first actions of an unending run. -/
def during (p : WorkerPool κ β) (forever : Nat → WorkerAction κ) (n : Nat) : WorkerPool κ β :=
  p.run ((List.range n).map forever)

theorem during_succ (p : WorkerPool κ β) (forever : Nat → WorkerAction κ) (n : Nat) :
    p.during forever (n + 1) = ((p.during forever n).step? (forever n)).getD (p.during forever n) := by
  rw [during, List.range_succ, List.map_append, run_append]
  rfl

/-- No action that can happen from some moment on is left aside from then on. -/
def Fair (p : WorkerPool κ β) (forever : Nat → WorkerAction κ) : Prop :=
  ∀ a : WorkerAction κ, a.isOwed = true → ∀ n₀,
    (∀ n ≥ n₀, ((p.during forever n).step? a).isSome) → ∃ n ≥ n₀, forever n = a

theorem workers_during (p : WorkerPool κ β) (forever : Nat → WorkerAction κ) (n : Nat) :
    (p.during forever n).workers = p.workers := (settings_run p _).1

/-- The next action changes nothing, or uses up some work. -/
theorem during_next (forever : Nat → WorkerAction κ) (some_worker : 0 < p.workers) (n : Nat) :
    ((p.during forever n).step? (forever n) = none ∧ p.during forever (n + 1) = p.during forever n) ∨
      (p.during forever (n + 1)).work < (p.during forever n).work := by
  rw [during_succ]
  cases h : (p.during forever n).step? (forever n) with
  | none => exact .inl ⟨rfl, rfl⟩
  | some q => exact .inr ((moves_of_step? h).work_lt (by rw [workers_during]; exact some_worker))

/-- In a fair run there is an end to the actions, and then nothing can go on by itself. -/
theorem Fair.settles {forever : Nat → WorkerAction κ} (fair : Fair p forever)
    (some_worker : 0 < p.workers) : ∃ n₀, ∀ n ≥ n₀, ∀ a : WorkerAction κ, a.isOwed = true →
      (p.during forever n).step? a = none := by
  have falls : Antitone fun n => (p.during forever n).work := by
    refine antitone_nat_of_succ_le fun n => ?_
    rcases during_next forever some_worker n with ⟨-, same⟩ | less
    · rw [same]
    · exact less.le
  obtain ⟨n₀, constant⟩ := WellFoundedLT.antitone_chain_condition falls
  have idle (n : Nat) (hn : n ≥ n₀) : (p.during forever n).step? (forever n) = none ∧
      p.during forever (n + 1) = p.during forever n := by
    refine (during_next forever some_worker n).resolve_right fun less => ?_
    have now := constant n hn
    have later := constant (n + 1) (Nat.le_succ_of_le hn)
    omega
  have same (n : Nat) (hn : n ≥ n₀) : p.during forever n = p.during forever n₀ := by
    induction n, hn using Nat.le_induction with
    | base => rfl
    | succ n hn ih => exact (idle n hn).2.trans ih
  refine ⟨n₀, fun n hn a owed => ?_⟩
  by_contra possible
  -- An action that can happen now can happen from now on, so it happens some time, and changes nothing.
  obtain ⟨m, hm, happens⟩ := fair a owed n fun m hm => by
    rw [same m (hn.trans hm), ← same n hn]
    exact Option.isSome_iff_ne_none.2 possible
  refine possible ?_
  rw [same n hn, ← same m (hn.trans hm), ← happens]
  exact (idle m (hn.trans hm)).1

/-- Where nothing can go on, every message has an answer. -/
theorem settled_of_rest (room : 0 < p.capacity)
    (rest : ∀ a : WorkerAction κ, a.isOwed = true → p.step? a = none) :
    p.held = [] ∧ p.unsent = [] := by
  constructor
  · refine List.flatMap_eq_nil_iff.2 fun i hi => Worker.held_of_rest room fun step owed => ?_
    have stuck := rest (.worker i step) owed
    rw [step?, if_pos (List.mem_range.1 hi)] at stuck
    exact Option.map_eq_none_iff.1 stuck
  · refine List.eq_nil_iff_forall_not_mem.2 fun m hm => ?_
    have stuck := Option.map_eq_none_iff.1 (rest (.send m.key) rfl)
    exact first?_eq_none_iff.1 stuck m hm rfl

/-- From some moment on every message has an answer, and if there is no signal it is handled. -/
def Settles (start : WorkerPool κ β) (forever : Nat → WorkerAction κ) : Prop :=
  ∃ n₀, ∀ n ≥ n₀,
    ((start.during forever n).handled.map Prod.snd ++ (start.during forever n).refused).Perm start.unsent ∧
    ((∀ k i, forever k ≠ .worker i .signal) →
      ((start.during forever n).handled.map Prod.snd).Perm start.unsent)

theorem settles_of_fair {forever : Nat → WorkerAction κ}
    (fair : Fair (ofMessages workers capacity route messages) forever) :
    Settles (ofMessages workers capacity route messages) forever := by
  have some_worker : 0 < (ofMessages workers capacity route messages).workers :=
    Nat.lt_of_lt_of_le Nat.one_pos (Nat.le_max_right workers 1)
  obtain ⟨n₀, rest⟩ := fair.settles some_worker
  refine ⟨n₀, fun n hn => ?_⟩
  have room : 0 < ((ofMessages workers capacity route messages).during forever n).capacity := by
    rw [during, (settings_run _ _).2.1]
    exact Nat.lt_of_lt_of_le Nat.one_pos (Nat.le_max_right capacity 1)
  obtain ⟨none_held, all_sent⟩ := settled_of_rest room (rest n hn)
  have accounted : Accounted (ofMessages workers capacity route messages).unsent
    ((ofMessages workers capacity route messages).during forever n) := accounted_run
  have answered := accounted.perm (by rw [workers_during]; exact some_worker)
  rw [none_held, all_sent, List.append_nil, List.append_nil] at answered
  refine ⟨answered, fun quiet => ?_⟩
  have none_refused : ((ofMessages workers capacity route messages).during forever n).refused = [] := by
    refine refused_eq_nil fun i => running_run fun signal => ?_
    obtain ⟨k, -, hk⟩ := List.mem_map.1 signal
    exact quiet k i hk
  rw [none_refused, List.append_nil] at answered
  exact answered

/-- Every message that is sent is handled once, or its sender learns that the worker stopped, and not
both. The messages of a key that are handled are the first of those that were sent, in that order, and
no worker begins one after it has seen the signal. This holds at every moment of every run; in the end
of a fair run all messages have an answer, and without a signal all are handled. -/
theorem delivery (workers capacity : Nat) (route : κ → Nat) (messages : List (κ × β)) :
    (∀ schedule, Delivers (ofMessages workers capacity route messages) schedule) ∧
      ∀ forever, Fair (ofMessages workers capacity route messages) forever →
        Settles (ofMessages workers capacity route messages) forever :=
  ⟨delivers_run workers capacity route messages, fun _ fair => settles_of_fair fair⟩

end WorkerPool

/-- The messages one after another, again and again. -/
def Sample.round (n : Nat) : WorkerAction Unit :=
  match n % 5 with
  | 0 => .send ()
  | 1 => .worker 0 (.accept ())
  | 2 => .worker 0 .look
  | 3 => .worker 0 .take
  | _ => .worker 0 .finish

theorem Sample.fair_round (p : WorkerPool Unit Nat) (h : p.workers = 1) : p.Fair Sample.round := by
  intro a owed n₀ possible
  cases a with
  | send key => exact ⟨5 * n₀, by omega, by simp [Sample.round]⟩
  | worker i step =>
    have first : i = 0 := by
      have now := possible n₀ le_rfl
      rw [WorkerPool.step?] at now
      split at now
      · next hi => rw [p.workers_during, h] at hi; omega
      · cases now
    subst first
    cases step with
    | accept key => exact ⟨5 * n₀ + 1, by omega, by simp [Sample.round]⟩
    | look => exact ⟨5 * n₀ + 2, by omega, by simp [Sample.round]⟩
    | take => exact ⟨5 * n₀ + 3, by omega, by simp [Sample.round]⟩
    | finish => exact ⟨5 * n₀ + 4, by omega, by simp [Sample.round]⟩
    | signal | abort => cases owed

def Sample.pool : WorkerPool Unit Nat := .ofMessages 0 0 (fun _ => 0) [((), 7), ((), 8)]

/-- The signal comes while the worker is about to take the first message, and the sender of the second
waits. -/
def Sample.halted : List (WorkerAction Unit) :=
  [.send (), .worker 0 (.accept ()), .send (), .worker 0 (.accept ()), .worker 0 .look, .worker 0 .signal,
    .worker 0 .take, .worker 0 .finish, .worker 0 .look]

/-- Messages that are sent again and again are all handled. A message that is taken once the signal is
there, and before it is seen, is handled, and the one that waits is refused. -/
theorem delivery_sample :
    (∃ n₀, ∀ n ≥ n₀, ((Sample.pool.during Sample.round n).handled.map Prod.snd).Perm
      [⟨0, (), 7⟩, ⟨1, (), 8⟩]) ∧
    (Sample.pool.run Sample.halted).handled = [(0, ⟨0, (), 7⟩)] ∧
    (Sample.pool.run Sample.halted).refused = [⟨1, (), 8⟩] ∧
    ((Sample.pool.run (Sample.halted ++ [.worker 0 .take])).worker 0).taken = [⟨0, (), 7⟩] := by
  obtain ⟨always, fair⟩ := WorkerPool.delivery 0 0 (fun _ => 0) [((), 7), ((), 8)]
  obtain ⟨n₀, settled⟩ := fair Sample.round (Sample.fair_round Sample.pool rfl)
  refine ⟨⟨n₀, fun n hn => (settled n hn).2 fun k i => ?_⟩, by decide, by decide,
    ((always Sample.halted).stops 0 rfl [.worker 0 .take]).trans rfl⟩
  unfold Sample.round
  split <;> simp

end Placement
