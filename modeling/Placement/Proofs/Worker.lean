/-
What one worker makes of the messages that are sent to it.

* `Worker.Moves` has what a step can do, case by case; `Worker.moves_of_step?` says that there is nothing
  else. Facts about steps are read off from it.
* `Worker.Moves.ofKey_messages`: no step loses a message, makes one, or changes the order of those of one
  key.
* `Worker.Orderly`: messages are handled as they were begun, and only a worker that was aborted leaves
  one in the middle.
* `Worker.Moves.work_lt`: each step uses up some of the work that is left. A worker at rest
  (`Worker.AtRest`) holds no message.
-/
import Mathlib.Data.List.Infix
import Placement.Workers

namespace Placement

variable {κ β : Type}

/-! ## Messages of one key -/

namespace Message

variable [DecidableEq κ]

def ofKey (key : κ) (messages : List (Message κ β)) : List (Message κ β) :=
  messages.filter (·.key = key)

@[simp] theorem ofKey_nil (key : κ) : ofKey key ([] : List (Message κ β)) = [] := rfl

@[simp] theorem ofKey_append (key : κ) (a b : List (Message κ β)) :
    ofKey key (a ++ b) = ofKey key a ++ ofKey key b := List.filter_append a b

theorem first?_eq_none_iff {key : κ} {messages : List (Message κ β)} :
    first? key messages = none ↔ ∀ m ∈ messages, m.key ≠ key := by
  induction messages with
  | nil => simp [first?]
  | cons m rest ih =>
    by_cases hm : m.key = key
    · simp [first?, hm]
    · simp [first?, hm, ih]

/-- What comes before the first message of a key has other keys. -/
theorem of_first?_eq_some {key : κ} {messages others : List (Message κ β)} {m : Message κ β}
    (h : first? key messages = some (m, others)) : m.key = key ∧ ∃ before after,
      messages = before ++ m :: after ∧ others = before ++ after ∧ ∀ x ∈ before, x.key ≠ key := by
  induction messages generalizing others with
  | nil => cases h
  | cons x rest ih =>
    rw [first?] at h
    split at h
    · next hx =>
      cases h
      exact ⟨hx, [], rest, rfl, rfl, by simp⟩
    · next hx =>
      cases found : first? key rest with
      | none =>
        rw [found] at h
        cases h
      | some e =>
        rw [found] at h
        cases h
        obtain ⟨key_m, before, after, rfl, rest_others, other⟩ := ih found
        refine ⟨key_m, x :: before, after, rfl, congrArg (x :: ·) rest_others, ?_⟩
        intro y hy
        rcases List.mem_cons.1 hy with rfl | hy
        · exact hx
        · exact other y hy

/-- The first message of its key can go in front, and each key has the same messages in the same
order. -/
theorem ofKey_move {before after : List (Message κ β)} {m : Message κ β}
    (h : ∀ x ∈ before, x.key ≠ m.key) (key : κ) :
    ofKey key (m :: (before ++ after)) = ofKey key (before ++ m :: after) := by
  by_cases hm : m.key = key
  · have none_before : ofKey key before = [] :=
      List.filter_eq_nil_iff.2 fun x hx => by simpa [← hm] using h x hx
    rw [ofKey_append, none_before, ofKey, List.filter_cons_of_pos (by simpa using hm)]
    show m :: ofKey key (before ++ after) = [] ++ ofKey key (m :: after)
    rw [ofKey_append, none_before, ofKey, ofKey, List.filter_cons_of_pos (by simpa using hm)]
    rfl
  · rw [ofKey_append, ofKey, ofKey, ofKey, List.filter_cons_of_neg (by simpa using hm),
      List.filter_cons_of_neg (by simpa using hm), List.filter_append]

end Message

/-! ## What a step can do -/

namespace Worker

open Message

variable {capacity : Nat} {w v : Worker κ β} {step : WorkerStep κ}

/-- The steps of a worker, with what it is before and after each. -/
inductive Moves (capacity : Nat) : Worker κ β → WorkerStep κ → Worker κ β → Prop
  | accept {phase mailbox before after m signalled taken handled}
      (room : mailbox.length < capacity) (first : ∀ x ∈ before, x.key ≠ m.key) :
      Moves capacity ⟨.running phase mailbox (before ++ m :: after), signalled, taken, handled⟩
        (.accept m.key) ⟨.running phase (mailbox ++ [m]) (before ++ after), signalled, taken, handled⟩
  | look {mailbox waiting taken handled} :
      Moves capacity ⟨.running .looking mailbox waiting, false, taken, handled⟩ .look
        ⟨.running .ready mailbox waiting, false, taken, handled⟩
  | see {phase mailbox waiting taken handled} (between : phase.current = []) :
      Moves capacity ⟨.running phase mailbox waiting, true, taken, handled⟩ .look
        ⟨.stopped (mailbox ++ waiting), true, taken, handled⟩
  | take {m mailbox waiting signalled taken handled} :
      Moves capacity ⟨.running .ready (m :: mailbox) waiting, signalled, taken, handled⟩ .take
        ⟨.running (.handling m) mailbox waiting, signalled, taken ++ [m], handled⟩
  | finish {m mailbox waiting signalled taken handled} :
      Moves capacity ⟨.running (.handling m) mailbox waiting, signalled, taken, handled⟩ .finish
        ⟨.running .looking mailbox waiting, signalled, taken, handled ++ [m]⟩
  | signal {state taken handled} :
      Moves capacity ⟨state, false, taken, handled⟩ .signal ⟨state, true, taken, handled⟩
  | abort {phase mailbox waiting taken handled} :
      Moves capacity ⟨.running phase mailbox waiting, true, taken, handled⟩ .abort
        ⟨.stopped (phase.current ++ mailbox ++ waiting), true, taken, handled⟩

/-- There are no other steps. -/
theorem moves_of_step? [DecidableEq κ] (h : w.step? capacity step = some v) : Moves capacity w step v := by
  obtain ⟨state, signalled, taken, handled⟩ := w
  cases step with
  | accept key =>
    cases state with
    | stopped refused => cases h
    | running phase mailbox waiting =>
      simp only [step?, Option.ite_none_right_eq_some, Option.map_eq_some_iff] at h
      obtain ⟨room, ⟨m, others⟩, found, rfl⟩ := h
      obtain ⟨rfl, before, after, rfl, rfl, first⟩ := of_first?_eq_some found
      exact .accept room first
  | look =>
    cases state with
    | stopped refused => cases h
    | running phase mailbox waiting =>
      cases phase with
      | looking => cases signalled <;> cases h <;> [exact .look; exact .see rfl]
      | ready => cases signalled <;> cases h; exact .see rfl
      | handling m => cases h
  | take =>
    cases state with
    | stopped refused => cases h
    | running phase mailbox waiting =>
      cases phase with
      | ready =>
        cases mailbox with
        | nil => cases h
        | cons m rest => cases h; exact .take
      | _ => cases h
  | finish =>
    cases state with
    | stopped refused => cases h
    | running phase mailbox waiting =>
      cases phase with
      | handling m => cases h; exact .finish
      | _ => cases h
  | signal => cases signalled <;> cases h; exact .signal
  | abort =>
    cases state with
    | stopped refused => cases signalled <;> cases h
    | running phase mailbox waiting => cases signalled <;> cases h; exact .abort

/-! ## No message is lost -/

/-- All messages that were sent to the worker, in the order in which they get an answer. -/
def messages (w : Worker κ β) : List (Message κ β) := w.handled ++ w.refused ++ w.held

theorem messages_receive (w : Worker κ β) (m : Message κ β) :
    (w.receive m).messages = w.messages ++ [m] := by
  obtain ⟨state, signalled, taken, handled⟩ := w
  cases state <;> simp [messages, receive, refused, held]

/-- No step loses a message, makes one, or changes the order of the messages of a key. -/
theorem Moves.ofKey_messages [DecidableEq κ] (h : Moves capacity w step v) (key : κ) :
    ofKey key v.messages = ofKey key w.messages := by
  cases h with
  | accept _ first => simpa [messages, refused, held] using ofKey_move first key
  | see between => simp [messages, refused, held, between]
  | take | finish | abort => simp [messages, refused, held, WorkerPhase.current]
  | look | signal => rfl

/-! ## Order of handling -/

/-- What is begun and not finished is what the worker is at or, if it was aborted, what it was at. -/
def Orderly (w : Worker κ β) : Prop :=
  match w.state with
  | .running phase _ _ => w.taken = w.handled ++ phase.current
  | .stopped refused => ∃ cut, w.taken = w.handled ++ cut ∧ cut <+: refused

theorem Orderly.receive (h : w.Orderly) (m : Message κ β) : (w.receive m).Orderly := by
  obtain ⟨state, signalled, taken, handled⟩ := w
  cases state with
  | running phase mailbox waiting => exact h
  | stopped refused =>
    obtain ⟨cut, begun, start⟩ := h
    exact ⟨cut, begun, start.trans (List.prefix_append _ _)⟩

theorem Moves.orderly (h : Moves capacity w step v) (orderly : w.Orderly) : v.Orderly := by
  cases h with
  | accept | look | signal => exact orderly
  | see between => exact ⟨[], by simpa [Orderly, between] using orderly, List.nil_prefix⟩
  | take => simpa [Orderly, WorkerPhase.current] using orderly
  | finish => simpa [Orderly, WorkerPhase.current] using orderly
  | abort => exact ⟨_, orderly, by rw [List.append_assoc]; exact List.prefix_append _ _⟩

/-- Messages are begun in the order of all. -/
theorem Orderly.taken_prefix (h : w.Orderly) : w.taken <+: w.messages := by
  obtain ⟨state, signalled, taken, handled⟩ := w
  cases state with
  | running phase mailbox waiting =>
    obtain rfl : taken = handled ++ phase.current := h
    simp [messages, refused, held]
  | stopped refused =>
    obtain ⟨cut, begun, rest, rfl⟩ := h
    obtain rfl : taken = handled ++ cut := begun
    simp [messages, held, Worker.refused]

/-- A worker that has stopped is through with what it began. -/
def Through (w : Worker κ β) : Prop := w.isStopped = true → w.taken = w.handled

theorem Through.receive (h : w.Through) (m : Message κ β) : (w.receive m).Through := by
  obtain ⟨state, signalled, taken, handled⟩ := w
  cases state <;> exact h

/-- Without an abort no message is left in the middle. -/
theorem Moves.through (h : Moves capacity w step v) (orderly : w.Orderly) (through : w.Through)
    (patient : step ≠ .abort) : v.Through := by
  cases h with
  | accept | look | signal => exact through
  | see between => exact fun _ => by simpa [Orderly, between] using orderly
  | take | finish => exact nofun
  | abort => exact absurd rfl patient

/-- What a worker began is handled or held, if it was not aborted. -/
theorem Orderly.mem_of_taken (h : w.Orderly) (through : w.Through) {m : Message κ β} (hm : m ∈ w.taken) :
    m ∈ w.handled ∨ m ∈ w.held := by
  obtain ⟨state, signalled, taken, handled⟩ := w
  cases state with
  | running phase mailbox waiting =>
    obtain rfl : taken = handled ++ phase.current := h
    rcases List.mem_append.1 hm with done | current
    · exact .inl done
    · exact .inr (List.mem_append_left _ (List.mem_append_left _ current))
  | stopped refused =>
    obtain rfl : taken = handled := through rfl
    exact .inl hm

/-! ## Stopping -/

theorem taken_receive (w : Worker κ β) (m : Message κ β) : (w.receive m).taken = w.taken := by
  obtain ⟨state, signalled, taken, handled⟩ := w
  cases state <;> rfl

theorem isStopped_receive (w : Worker κ β) (m : Message κ β) :
    (w.receive m).isStopped = w.isStopped := by
  obtain ⟨state, signalled, taken, handled⟩ := w
  cases state <;> rfl

theorem signalled_receive (w : Worker κ β) (m : Message κ β) :
    (w.receive m).signalled = w.signalled := by
  obtain ⟨state, signalled, taken, handled⟩ := w
  cases state <;> rfl

/-- A worker that has stopped begins nothing, and does not start again. -/
theorem Moves.stopped (h : Moves capacity w step v) (stopped : w.isStopped = true) :
    v.isStopped = true ∧ v.taken = w.taken := by
  cases h with
  | signal => exact ⟨stopped, rfl⟩
  | _ => cases stopped

/-- Only a worker that got the signal stops. -/
theorem Moves.running (h : Moves capacity w step v) (running : w.isStopped = false)
    (unsignalled : w.signalled = false) (quiet : step ≠ .signal) :
    v.isStopped = false ∧ v.signalled = false := by
  cases h with
  | accept | look | take | finish => exact ⟨rfl, unsignalled⟩
  | see | abort => cases unsignalled
  | signal => exact absurd rfl quiet

/-! ## Work that is left -/

end Worker

/-- A bound on the steps that a phase takes. -/
def WorkerPhase.work : WorkerPhase κ β → Nat
  | .looking => 2
  | .ready => 1
  | .handling _ => 3

theorem WorkerPhase.work_pos (phase : WorkerPhase κ β) : 0 < phase.work := by
  cases phase <;> simp [work]

/-- The steps that come by themselves. A signal and an abort come from outside, and need not come. -/
def WorkerStep.isOwed : WorkerStep κ → Bool
  | .signal | .abort => false
  | _ => true

namespace Worker

variable {capacity : Nat} {w v : Worker κ β} {step : WorkerStep κ}

/-- A bound on the steps that a worker can still make. -/
def work (w : Worker κ β) : Nat :=
  (!w.signalled).toNat +
    match w.state with
    | .running phase mailbox waiting => phase.work + 3 * mailbox.length + 4 * waiting.length
    | .stopped _ => 0

theorem work_receive (w : Worker κ β) (m : Message κ β) : (w.receive m).work ≤ w.work + 4 := by
  obtain ⟨state, signalled, taken, handled⟩ := w
  cases state with
  | running phase mailbox waiting => simp [receive, work]; omega
  | stopped refused => exact Nat.le_add_right _ _

theorem Moves.work_lt (h : Moves capacity w step v) : v.work < w.work := by
  cases h with
  | accept => simp [work]; omega
  | look => simp [work, WorkerPhase.work]
  | take => simp [work, WorkerPhase.work]; omega
  | finish => simp [work, WorkerPhase.work]
  | @see phase => have := phase.work_pos; simp [work]; omega
  | signal => simp [work]
  | @abort phase => have := phase.work_pos; simp [work]; omega

/-- A worker that cannot go on has an answer for every message. -/
theorem held_of_rest [DecidableEq κ] (room : 0 < capacity)
    (rest : ∀ step, step.isOwed = true → w.step? capacity step = none) : w.held = [] := by
  obtain ⟨state, signalled, taken, handled⟩ := w
  cases state with
  | stopped refused => rfl
  | running phase mailbox waiting =>
    cases phase with
    | looking => cases rest .look rfl
    | handling m => cases rest .finish rfl
    | ready =>
      cases mailbox with
      | cons m mailbox => cases rest .take rfl
      | nil =>
        cases waiting with
        | nil => rfl
        | cons m waiting =>
          have stuck := rest (.accept m.key) rfl
          simp [step?, room, Message.first?] at stuck

end Worker

end Placement
