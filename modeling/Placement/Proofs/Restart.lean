/-
Restarting: a tracker that is built again from the repository is the one that was lost.

`Books.Agree` is the invariant, that tracker and repository hold the same tasks, and each op keeps it
through any write faults as long as reads work (`agree_processWithin`). A run is a list of turns,
each with the faults that meet it. `restart_turns` is the main result: after every run from nothing,
loading the repository gives the tracker as it is, its instances with all that is derived of them.
-/
import Placement.Proofs.Truthful

namespace Placement

namespace Books

/-! ## Agreement of tracker and repository -/

/-- Tracker and repository hold the same tasks, all of which are read back, and reads work. -/
structure Agree (b : Books) : Prop where
  wellFormed : b.tracker.WellFormed
  same : ∀ id, b.repository.Holds id (b.tracker.task? id)
  readsBack : ∀ id t, b.tracker.task? id = some t → ReadsBack t
  reads : b.repository.failingReads = 0

theorem agree_empty : empty.Agree :=
  ⟨Tracker.wellFormed_empty, fun _ => rfl, fun _ _ h => (nomatch h), rfl⟩

variable {b : Books}

theorem Agree.keyed (h : b.Agree) : b.repository.Keyed := by
  intro id t ht
  rw [(h.same id).stored?] at ht
  exact Tracker.id_of_task? h.wellFormed.assembled ht

theorem Agree.readable (h : b.Agree) : b.repository.Readable := by
  intro id j hj
  have same := h.same id
  cases ht : b.tracker.task? id with
  | none =>
    rw [ht] at same
    have missing : b.repository.documents.find? id = none := same
    rw [hj] at missing
    cases missing
  | some t =>
    rw [ht] at same
    have stored : (b.repository.documents.find? id).bind ofJson? = some t := same
    rw [hj, Option.bind_some] at stored
    rw [stored]
    rfl

/-- What an op makes of its task is read back if the task is as it is known. -/
theorem readsBack_change {op : StateOp} (storable : op.Storable)
    (known : ∀ t, b.tracker.task? op.taskId = some t → ReadsBack t) :
    ∀ t, (b.change op).newTask? = some t → ReadsBack t := by
  intro t ht
  refine storable.resolve known ?_
  have hc : (op.resolve (b.tracker.task? op.taskId)).newTask? = some t := ht
  cases hr : op.resolve (b.tracker.task? op.taskId) with
  | update new old =>
    rw [hr] at hc
    exact hc
  | _ =>
    rw [hr] at hc
    cases hc

theorem Agree.readsBack_change (h : b.Agree) {op : StateOp} (storable : op.Storable) :
    ∀ t, (b.change op).newTask? = some t → ReadsBack t :=
  Books.readsBack_change storable (h.readsBack op.taskId)

/-- Agreement stays where only one task changes, if it holds of that task. -/
theorem Agree.of_frame (h : b.Agree) {after : Books} {id : TaskId}
    (wellFormed : after.tracker.WellFormed)
    (reads : after.repository.failingReads ≤ b.repository.failingReads) (frame : b.Frame id after)
    (same : after.repository.Holds id (after.tracker.task? id))
    (readsBack : ∀ t, after.tracker.task? id = some t → ReadsBack t) : after.Agree := by
  refine ⟨wellFormed, ?_, ?_, ?_⟩
  · intro k
    by_cases hk : k = id
    · rw [hk]
      exact same
    · rw [frame.tracker k hk]
      exact (h.same k).of_find? (frame.documents k hk)
  · intro k t ht
    by_cases hk : k = id
    · exact readsBack t (hk ▸ ht)
    · rw [frame.tracker k hk] at ht
      exact h.readsBack k t ht
  · have := h.reads
    omega

section

variable {op : StateOp} {after : Books}

/-- A task that has been written, or was found as it should be, is the one that is known. -/
theorem Attempted.agree (h : b.Agree) (storable : op.Storable) (made : b.Attempted op after)
    (there : after.repository.Holds op.taskId (b.change op).newTask?) : after.Agree := by
  have known := made.task? h.wellFormed.assembled
  refine h.of_frame (h.wellFormed.notify made.tracker) made.failingReads
    (made.frame h.wellFormed.assembled) (known ▸ there) ?_
  intro t ht
  exact h.readsBack_change storable t (known.symm.trans ht)

/-- Writes that fail leave documents that can be read. -/
theorem Attempted.readable (h : b.Agree) (storable : op.Storable) (made : b.Attempted op after) :
    after.repository.Readable := by
  rcases made.documents with written | same
  · exact (made.agree h storable (holds_write (isFor_change h.wellFormed.assembled op) made.writes
      (h.readsBack_change storable) written)).readable
  · intro id j hj
    rw [same] at hj
    exact h.readable id j hj

/-- However an op ends, tracker and repository hold the same tasks. -/
theorem Handled.agree {reply : Change} (h : b.Agree) (storable : op.Storable)
    (handled : b.Handled op reply after) : after.Agree := by
  have truthful := handled.truthful h.wellFormed h.keyed (h.readsBack_change storable)
  have frame := handled.frame ⟨h.wellFormed.assembled, h.keyed⟩
  have wellFormed := handled.tracker_induction (fun _ _ _ ht taken => ht.notify taken) h.wellFormed
  cases handled with
  | refused e refuses => exact h
  | quiet nothing => exact h
  | settled made there =>
    refine made.agree h storable (there.elim ?_ id)
    intro written
    exact holds_write (isFor_change h.wellFormed.assembled op) made.writes
      (h.readsBack_change storable) written
  | unverified write reload made unread => exact absurd (made.readable h storable) (unread h.reads)
  | corrected write made found there differs =>
    obtain ⟨same, stands⟩ := truthful
    refine h.of_frame wellFormed ?_ frame stands ?_
    · rw [repository_correct]
      exact made.failingReads
    · intro t ht
      -- What was not written is as it was known before.
      have old : b.repository.Holds op.taskId _ := stands.of_find? (by rw [same])
      rw [ht] at old
      exact h.readsBack op.taskId t ((h.same op.taskId).stored?.symm.trans old)

end

/-- An op keeps tracker and repository in agreement, whatever its write meets. -/
theorem agree_processWithin (h : b.Agree) (limit : Span) (patience : Int) {op : StateOp}
    (storable : op.Storable) : (b.processWithin limit patience op).2.Agree :=
  processWithin_induction h fun _ _ handled => handled.agree h storable

end Books

/-! ## Loading -/

/-- All answers are there if each is. -/
theorem exists_mapM_eq_ok {α β ε : Type} {f : α → Except ε β} {l : List α}
    (h : ∀ a ∈ l, ∃ b, f a = .ok b) : ∃ bs, l.mapM f = .ok bs := by
  induction l with
  | nil => exact ⟨[], rfl⟩
  | cons a rest ih =>
    obtain ⟨b, hb⟩ := h a List.mem_cons_self
    obtain ⟨bs, hbs⟩ := ih fun a' ha' => h a' (List.mem_cons_of_mem a ha')
    exact ⟨b :: bs, by rw [List.mapM_cons, hb, hbs]; rfl⟩

/-- The answers are those that the members of the list have. -/
theorem mem_iff_of_mapM_eq_ok {α β ε : Type} {f : α → Except ε β} {l : List α} {bs : List β}
    (h : l.mapM f = .ok bs) (b : β) : b ∈ bs ↔ ∃ a ∈ l, f a = .ok b := by
  induction l generalizing bs with
  | nil =>
    obtain rfl := Except.ok.inj h
    simp
  | cons a rest ih =>
    rw [List.mapM_cons] at h
    cases ha : f a with
    | error e => rw [ha] at h; cases h
    | ok b' =>
      cases hrest : rest.mapM f with
      | error e => rw [ha, hrest] at h; cases h
      | ok bs' =>
        rw [ha, hrest] at h
        obtain rfl := Except.ok.inj h
        simp only [List.mem_cons, ih hrest, exists_eq_or_imp, ha, Except.ok.injEq]
        exact or_congr_left eq_comm

namespace Repository

/-- A repository lists the tasks that are stored in it. -/
theorem mem_all_iff {r : Repository} {wait : Nat} {ts : List Task}
    (h : r.all.1 = .answers wait (.ok ts)) (t : Task) : t ∈ ts ↔ ∃ k, r.stored? k = some t := by
  unfold all read at h
  split at h
  · cases h
  · obtain ⟨-, listed⟩ := TimedCall.answers.inj h
    have decodes : ∀ (k : TaskId) (j : Json), decode k j = .ok t ↔ ofJson? j = some t := by
      intro k j
      unfold decode
      split
      · next u hu => rw [hu, Except.ok.injEq, Option.some.injEq]
      · next unread => simp [unread]
    simp only [mem_iff_of_mapM_eq_ok listed, Prod.exists, decodes, stored?, Option.bind_eq_some_iff,
      OrderedMap.find?_eq_some_iff]

/-- A repository whose documents can be read gives all its tasks. -/
theorem all_eq {r : Repository} (reads : r.failingReads = 0) (readable : r.Readable) :
    ∃ ts, r.all = (.answers 0 (.ok ts), r) := by
  have decodes : ∀ e ∈ r.documents.entries, ∃ t, decode e.1 e.2 = .ok t := by
    intro e he
    obtain ⟨t, ht⟩ := Option.isSome_iff_exists.1
      (readable e.1 e.2 ((OrderedMap.find?_eq_some_iff _ _ _).2 he))
    exact ⟨t, by rw [decode, ht]⟩
  obtain ⟨ts, hts⟩ := exists_mapM_eq_ok decodes
  exact ⟨ts, by rw [all, read, if_neg (by omega), hts]⟩

end Repository

namespace Tracker

/-- Where each task is stored under its own id, the tracker of all stored tasks knows them as they are
stored. -/
theorem task?_ofTasks_of_stored {r : Repository} (keyed : r.Keyed) {ts : List Task}
    (listed : ∀ t, t ∈ ts ↔ ∃ k, r.stored? k = some t) : (ofTasks ts).task? = r.stored? := by
  have distinct : ∀ t ∈ ts, ∀ u ∈ ts, t.id = u.id → t = u := by
    intro t ht u hu same
    obtain ⟨i, hi⟩ := (listed t).1 ht
    obtain ⟨k, hk⟩ := (listed u).1 hu
    rw [keyed i t hi, keyed k u hk] at same
    rw [same, hk] at hi
    exact (Option.some.inj hi).symm
  funext id
  refine Option.ext fun t => ?_
  rw [task?_ofTasks distinct, listed]
  constructor
  · rintro ⟨⟨k, hk⟩, rfl⟩
    rw [keyed k t hk]
    exact hk
  · intro ht
    exact ⟨⟨id, ht⟩, keyed id t ht⟩

end Tracker

/-- What agrees with its repository can be built from it again. -/
theorem Books.Agree.load_eq {b : Books} (h : b.Agree) :
    Tracker.load b.repository = (.ok b.tracker, b.repository) := by
  obtain ⟨ts, hall⟩ := Repository.all_eq h.reads h.readable
  have listed := Repository.mem_all_iff (congrArg Prod.fst hall)
  have loaded : Tracker.ofTasks ts = b.tracker := by
    refine Tracker.eq_of_task?_eq (Tracker.assembled_ofTasks ts) h.wellFormed.assembled fun id => ?_
    rw [Tracker.task?_ofTasks_of_stored h.keyed listed, (h.same id).stored?]
  rw [Tracker.load, hall]
  simp only [loaded]

/-! ## Runs -/

namespace Books

/-- An op, how long it may still wait, and the faults that are put before the writes to come. -/
structure Turn where
  faults : List WriteFault
  patience : Int
  op : StateOp

def addFaults (b : Books) (faults : List WriteFault) : Books :=
  { b with repository := faults.foldl Repository.addWriteFault b.repository }

/-- The books after turns taken one after another. -/
def turns (limit : Span) (ts : List Turn) (b : Books) : Books :=
  ts.foldl (fun b t => ((b.addFaults t.faults).processWithin limit t.patience t.op).2) b

theorem addFaults_repository (b : Books) (faults : List WriteFault) :
    (b.addFaults faults).repository.documents = b.repository.documents ∧
      (b.addFaults faults).repository.failingReads = b.repository.failingReads := by
  show (faults.foldl _ b.repository).documents = _ ∧ (faults.foldl _ b.repository).failingReads = _
  generalize b.repository = r
  induction faults generalizing r with
  | nil => exact ⟨rfl, rfl⟩
  | cons f rest ih => exact ih (r.addWriteFault f)

theorem Agree.addFaults {b : Books} (h : b.Agree) (faults : List WriteFault) :
    (b.addFaults faults).Agree := by
  obtain ⟨documents, reads⟩ := b.addFaults_repository faults
  exact ⟨h.wellFormed, fun id => (h.same id).of_find? (by rw [documents]), h.readsBack,
    reads.trans h.reads⟩

/-- Turns keep tracker and repository in agreement. -/
theorem agree_turns (limit : Span) {ts : List Turn} (storable : ∀ t ∈ ts, t.op.Storable) {b : Books}
    (h : b.Agree) : (turns limit ts b).Agree := by
  induction ts generalizing b with
  | nil => exact h
  | cons t rest ih =>
    refine ih (fun t' ht' => storable t' (List.mem_cons_of_mem t ht')) ?_
    exact agree_processWithin (h.addFaults t.faults) limit t.patience
      (storable t List.mem_cons_self)

/-- After every run from nothing, whatever faults its writes met, tracker and repository hold the
same tasks, and the tracker that is loaded from the repository is the one there is: the same
instances under the same ids, with the same tasks, derived states, agents and versions. -/
theorem restart_turns (limit : Span) (ts : List Turn) (storable : ∀ t ∈ ts, t.op.Storable) :
    (∀ id, (turns limit ts empty).repository.Holds id ((turns limit ts empty).tracker.task? id)) ∧
      Tracker.load (turns limit ts empty).repository =
        (.ok (turns limit ts empty).tracker, (turns limit ts empty).repository) := by
  have agree := agree_turns limit storable agree_empty
  exact ⟨agree.same, agree.load_eq⟩

end Books

/-- A reservation that is written without an answer, and a launch on it that is at first refused. -/
def Sample.turns : List Books.Turn :=
  [⟨[.lostAck, .reject], 0, .reserve Sample.waitingTask⟩, ⟨[], 0, Sample.launch⟩,
    ⟨[], 0, Sample.launch⟩]

theorem restart_turns_sample :
    (∀ t ∈ Sample.turns, t.op.Storable) ∧
    ((Books.turns Sample.limit Sample.turns .empty).tracker.task? Sample.waitingTask.id).map
      Task.condition = some .created ∧
    Tracker.load (Books.turns Sample.limit Sample.turns .empty).repository =
      (.ok (Books.turns Sample.limit Sample.turns .empty).tracker,
        (Books.turns Sample.limit Sample.turns .empty).repository) := by
  have launch : Sample.launch.Storable :=
    show ReadsBack _ ∧ ReadsBack _ by decide +kernel
  have storable : ∀ t ∈ Sample.turns, t.op.Storable := by
    intro t ht
    simp only [Sample.turns, List.mem_cons, List.not_mem_nil, or_false] at ht
    rcases ht with rfl | rfl | rfl
    · show ReadsBack Sample.waitingTask
      decide +kernel
    · exact launch
    · exact launch
  refine ⟨storable, ?_, (Books.restart_turns Sample.limit Sample.turns storable).2⟩
  decide +kernel

end Placement
