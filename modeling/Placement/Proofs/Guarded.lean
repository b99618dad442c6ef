/-
Locks: at most one call at a time decides on a run spec and records what it decided.

A call that takes an offer looks up the lock of a run spec, takes it, and gives it back in the end. That
keeps other calls away as long as all of them find the same lock, and they do as long as the lock does not
leave the table while a call has it in mind (`Traffic.undisturbed`).

* `Traffic.Locked` is the invariant: calls with a turn for the run spec have the lock of the table, and
  each lock that a call has taken is held by that call. `Locked.step` is the step, `Locked.run` the run.
* `Locked.eq_of_held` and `Locked.length_recordingFor` draw the conclusion.
-/
import Placement.Proofs.Traffic

namespace Placement

namespace Traffic

variable {α : Type} {t t' : Traffic α} {place : Nat} {call call' : Call α} {id : RunSpecId}

/-! ## The invariant -/

/-- Calls with a turn for the run spec have the lock of the table, and a lock that a call has taken is
held by that call. -/
structure Locked (id : RunSpecId) (t : Traffic α) : Prop where
  looked : ∀ place turn, t.Has Call.turn? place turn → turn.runSpec.id = id →
    t.locks.find? id = some turn.lock
  held : ∀ place turn, t.Has Call.held? place turn → t.holder turn.lock = some place

/-- No two calls have the lock of the run spec. -/
theorem Locked.eq_of_held (h : t.Locked id) {p q : Nat} {turn other : Turn α}
    (hp : t.Has Call.held? p turn) (hq : t.Has Call.held? q other) (own : turn.runSpec.id = id)
    (own' : other.runSpec.id = id) : p = q := by
  have same : turn.lock = other.lock :=
    Option.some.inj ((h.looked p turn hp.turn own).symm.trans (h.looked q other hq.turn own'))
  have taken := h.held p turn hp
  rw [same, h.held q other hq] at taken
  exact (Option.some.inj taken).symm

/-- The step is that of a call which takes the lock of the run spec out of the table. -/
def unlocks (t : Traffic α) (id : RunSpecId) (place : Nat) : Bool :=
  match t.calls[place]? with
  | some (.remove id' .lock) => id' == id
  | _ => false

/-- Some call has looked up the lock of the run spec, and has not given it back. -/
def isSought (t : Traffic α) (id : RunSpecId) : Bool :=
  t.calls.any fun call => call.turn?.any fun turn => turn.runSpec.id == id

/-- Along a run, the lock of the run spec does not leave the table while it is sought. -/
def undisturbed [Amount α] (id : RunSpecId) : Traffic α → List Nat → Bool
  | _, [] => true
  | t, place :: rest =>
    !(t.unlocks id place && t.isSought id) && undisturbed id ((t.step? place).getD t) rest

theorem isSought_of_turn {turn : Turn α} (h : t.Has Call.turn? place turn) (own : turn.runSpec.id = id) :
    t.isSought id = true := by
  obtain ⟨call, at_, has⟩ := h
  refine List.any_eq_true.2 ⟨call, List.mem_of_getElem? at_, ?_⟩
  rw [has, Option.any_some, own]
  exact beq_self_eq_true id

theorem Locked.guarded (h : t.Locked id) (at_ : t.calls[place]? = some call)
    (calls : t'.calls = t.calls.set place call') (step : t.Guards place call t' call')
    (quiet : call = .remove id .lock → t.isSought id = false) : t'.Locked id := by
  cases step with
  | kept locks holder same held =>
    constructor
    · intro q turn has own
      rw [locks]
      rcases has.before calls with ⟨rfl, has⟩ | ⟨-, has⟩
      · exact h.looked q turn ⟨call, at_, same ▸ has⟩ own
      · exact h.looked q turn has own
    · intro q turn has
      rw [holder]
      rcases has.before calls with ⟨rfl, has⟩ | ⟨-, has⟩
      · exact h.held q turn ⟨call, at_, held ▸ has⟩
      · exact h.held q turn has
  | sought found_turn holder looked free found others =>
    constructor
    · intro q turn has own
      rcases has.before calls with ⟨rfl, has⟩ | ⟨-, has⟩
      · obtain rfl := Option.some.inj (looked.symm.trans has)
        exact own ▸ found
      · exact others id turn.lock (h.looked q turn has own)
    · intro q turn has
      rw [holder]
      rcases has.before calls with ⟨rfl, has⟩ | ⟨-, has⟩
      · cases free.symm.trans has
      · exact h.held q turn has
  | took taken locks free holder same held =>
    constructor
    · intro q turn has own
      rw [locks]
      rcases has.before calls with ⟨rfl, has⟩ | ⟨-, has⟩
      · exact h.looked q turn ⟨call, at_, same ▸ has⟩ own
      · exact h.looked q turn has own
    · intro q turn has
      rw [holder]
      rcases has.before calls with ⟨rfl, has⟩ | ⟨-, has⟩
      · obtain rfl := Option.some.inj (held.symm.trans has)
        exact if_pos rfl
      · -- The lock was free, so it is not one that another call holds.
        have before := h.held q turn has
        refine (if_neg ?_).trans before
        intro heq
        rw [heq, free] at before
        cases before
  | gave given locks held holder left =>
    constructor
    · intro q turn has own
      rw [locks]
      rcases has.before calls with ⟨rfl, has⟩ | ⟨-, has⟩
      · cases left.symm.trans has
      · exact h.looked q turn has own
    · intro q turn has
      rw [holder]
      rcases has.before calls with ⟨rfl, has⟩ | ⟨other, has⟩
      · cases left.symm.trans (call'.turn?_of_held? has)
      · have before := h.held q turn has
        refine (if_neg ?_).trans before
        intro heq
        rw [heq, h.held place given ⟨call, at_, held⟩] at before
        exact other (Option.some.inj before).symm
  | removed id' removes locks holder left =>
    constructor
    · intro q turn has own
      rcases has.before calls with ⟨rfl, has⟩ | ⟨-, has⟩
      · cases left.symm.trans has
      · have different : id ≠ id' := by
          rintro rfl
          cases (quiet removes).symm.trans (isSought_of_turn has own)
        rw [locks, OrderedMap.find?_erase, if_neg different]
        exact h.looked q turn has own
    · intro q turn has
      rw [holder]
      rcases has.before calls with ⟨rfl, has⟩ | ⟨-, has⟩
      · cases left.symm.trans (call'.turn?_of_held? has)
      · exact h.held q turn has

section

variable [Amount α]

/-- The step. -/
theorem Locked.step (h : t.Locked id) (quiet : (t.unlocks id place && t.isSought id) = false) :
    ((t.step? place).getD t).Locked id := by
  cases step : t.step? place with
  | none => exact h
  | some t' =>
    obtain ⟨call, call', at_, calls, -, guards, -⟩ := exists_stepped step
    refine h.guarded at_ calls guards ?_
    rintro rfl
    simpa [unlocks, at_] using quiet

/-- The run. -/
theorem Locked.run {schedule : List Nat} (h : t.Locked id)
    (quiet : t.undisturbed id schedule = true) : (t.run schedule).Locked id := by
  induction schedule generalizing t with
  | nil => exact h
  | cons place rest ih =>
    rw [undisturbed, Bool.and_eq_true, Bool.not_eq_true'] at quiet
    exact ih (h.step quiet.1) quiet.2

end

/-! ## Decisions -/

theorem mem_recordingFor : place ∈ t.recordingFor id ↔
    ∃ c, t.calls[place]? = some (.offer c) ∧ c.recordingFor? = some id := by
  unfold recordingFor
  rw [List.mem_filter, List.mem_range]
  constructor
  · rintro ⟨-, has⟩
    split at has
    · next c at_ => exact ⟨c, at_, beq_iff_eq.1 has⟩
    · cases has
  · rintro ⟨c, at_, has⟩
    refine ⟨(List.getElem?_eq_some_iff.1 at_).1, ?_⟩
    rw [at_]
    exact beq_iff_eq.2 has

/-- A call that has decided and has not recorded all of it has the lock. -/
theorem held_of_mem_recordingFor (h : place ∈ t.recordingFor id) :
    ∃ turn, t.Has Call.held? place turn ∧ turn.runSpec.id = id := by
  obtain ⟨⟨offer, requests, progress, stage⟩, at_, has⟩ := mem_recordingFor.1 h
  cases stage with
  | recording turn left op unrecorded => exact ⟨turn, ⟨_, at_, rfl⟩, Option.some.inj has⟩
  | _ => cases has

/-- At most one call at a time has decided on the run spec and has not recorded all of it. -/
theorem Locked.length_recordingFor (h : t.Locked id) : (t.recordingFor id).length ≤ 1 := by
  have distinct : (t.recordingFor id).Nodup := List.nodup_range.filter _
  have same : ∀ p ∈ t.recordingFor id, ∀ q ∈ t.recordingFor id, p = q := by
    intro p hp q hq
    obtain ⟨turn, has, own⟩ := held_of_mem_recordingFor hp
    obtain ⟨other, has', own'⟩ := held_of_mem_recordingFor hq
    exact h.eq_of_held has has' own own'
  generalize t.recordingFor id = places at distinct same
  match places with
  | [] => exact Nat.zero_le _
  | [_] => exact Nat.le_refl _
  | p :: q :: rest =>
    have heq := same p List.mem_cons_self q (List.mem_cons_of_mem p List.mem_cons_self)
    exact absurd (heq ▸ List.mem_cons_self) (List.nodup_cons.1 distinct).1

end Traffic

end Placement
