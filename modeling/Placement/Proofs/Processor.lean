/-
The processor of state ops: what it makes of the tracker and of the repository, whatever goes wrong.

* `Books.Handled` lists how an op can end, and `handled_apply` says that there is no other end. What
  a failed write left behind stays open in it: the documents are the old or the intended ones.
* `Books.Frame` says that nothing changes but one task; `frame_processWithin` gives it for every op.
* `Books.task?_process` says what becomes of that task if the op does not fail.

Faults of the store are those that wait in the repository, in any number and order. A read that
finds what it should needs one law of the stored form, `ReadsBack`, of the one task that is written.
-/
import Placement.Processor
import Placement.Proofs.Change

namespace Placement

/-! ## Calls of the repository -/

namespace Intent

/-- What a write with this intent is to leave. -/
def target {α : Type} : Intent α → Option α
  | present a => some a
  | absent => none

/-- A write has converged when what it was to leave is there. -/
theorem check_eq {α : Type} [DecidableEq α] (i : Intent α) (observed : Option α) :
    i.check observed = if observed = i.target then .converged else .diverged := by
  cases i with
  | absent => cases observed <;> rfl
  | present expected =>
    cases observed with
    | none => rfl
    | some actual =>
      by_cases h : actual = expected
      · simp [check, target, h]
      · have h' : expected ≠ actual := fun e => h e.symm
        simp [check, target, h, h']

end Intent

namespace Repository

/-- Under each id stands a task of that id, if the document can be read. -/
def Keyed (r : Repository) : Prop := ∀ id t, r.stored? id = some t → t.id = id

/-- Under an id stands this task, or no document at all. -/
def Holds (r : Repository) (id : TaskId) : Option Task → Prop
  | some t => r.stored? id = some t
  | none => r.documents.find? id = none

theorem Holds.stored? {r : Repository} {id : TaskId} {o : Option Task} (h : r.Holds id o) :
    r.stored? id = o := by
  cases o with
  | some t => exact h
  | none => rw [Repository.stored?, show r.documents.find? id = none from h]; rfl

theorem Holds.of_find? {r r' : Repository} {id : TaskId} {o : Option Task} (h : r.Holds id o)
    (same : r'.documents.find? id = r.documents.find? id) : r'.Holds id o := by
  cases o with
  | some t => rw [Holds, Repository.stored?, same]; exact h
  | none => rw [Holds, same]; exact h

/-- Each document is that of a task. -/
def Readable (r : Repository) : Prop :=
  ∀ id j, r.documents.find? id = some j → (ofJson? j : Option Task).isSome = true

/-- A write has its effect, or it has none and does not report success. -/
theorem write_cases (r : Repository) {effect : Repository → Repository}
    {f : OrderedMap TaskId Json → OrderedMap TaskId Json}
    (h : ∀ r, effect r = { r with documents := f r.documents }) :
    (r.write effect).2.failingReads = r.failingReads ∧
      ((r.write effect).2.documents = f r.documents ∨
        (r.write effect).2.documents = r.documents ∧
          ((r.write effect).1 = .answers 0 (.error .writeRejection) ∨
            (r.write effect).1 = .never)) := by
  unfold write
  cases r.writeFaults with
  | nil => simp [h]
  | cons fault rest => cases fault <;> simp [h]

end Repository

namespace Books

/-- What a bounded write makes of the books: it has its effect on the documents, or it fails without
one. -/
structure Wrote (f : OrderedMap TaskId Json → OrderedMap TaskId Json) (b : Books)
    (result : Except StoreCallError Unit) (after : Books) : Prop where
  tracker : after.tracker = b.tracker
  running : after.running = b.running
  failingReads : after.repository.failingReads = b.repository.failingReads
  documents : after.repository.documents = f b.repository.documents ∨
    after.repository.documents = b.repository.documents ∧ ∃ e, result = .error e

theorem wrote_call (limit : Span) (id : TaskId) (b : Books) (entry : StoreCall)
    (effect : Repository → Repository) {f : OrderedMap TaskId Json → OrderedMap TaskId Json}
    (h : ∀ r, effect r = { r with documents := f r.documents }) :
    b.Wrote f (b.call limit id entry (b.repository.write effect)).1
      (b.call limit id entry (b.repository.write effect)).2 := by
  obtain ⟨reads, documents⟩ := b.repository.write_cases h
  refine ⟨rfl, rfl, reads, documents.imp_right fun ⟨same, failed⟩ => ⟨same, ?_⟩⟩
  rcases failed with failed | failed
  · refine ⟨.failed ("task " ++ id.text) .writeRejection, ?_⟩
    simp only [call, failed, bounded]
    rw [if_pos (Nat.zero_le _)]
  · refine ⟨.timedOut ("task " ++ id.text) limit, ?_⟩
    simp only [call, failed, bounded]

/-- What reading a task back makes of the books, and what it finds. -/
structure Reread (id : TaskId) (b : Books) (result : Except StoreCallError (Option Task))
    (after : Books) : Prop where
  tracker : after.tracker = b.tracker
  running : after.running = b.running
  failingReads : after.repository.failingReads ≤ b.repository.failingReads
  documents : after.repository.documents = b.repository.documents
  found : ∀ found, result = .ok found → b.repository.Holds id found
  answered : b.repository.failingReads = 0 → b.repository.Readable → ∃ found, result = .ok found

theorem reread_call (limit : Span) (id : TaskId) (b : Books) :
    b.Reread id (b.call limit id (.get id) (b.repository.get id)).1
      (b.call limit id (.get id) (b.repository.get id)).2 := by
  unfold call Repository.get Repository.read
  by_cases fails : 0 < b.repository.failingReads
  · rw [if_pos fails]
    refine ⟨rfl, rfl, Nat.sub_le _ _, rfl, ?_, fun h => absurd fails (by omega)⟩
    intro found h
    simp [bounded] at h
  · rw [if_neg fails]
    refine ⟨rfl, rfl, Nat.le_refl _, rfl, ?_, ?_⟩
    · intro found h
      cases hj : b.repository.documents.find? id with
      | none =>
        obtain rfl : found = none := by simpa [bounded, hj] using h.symm
        exact hj
      | some j =>
        cases ht : (ofJson? j : Option Task) with
        | none => simp [bounded, hj, Repository.decode, ht, Except.map] at h
        | some t =>
          obtain rfl : found = some t := by
            simpa [bounded, hj, Repository.decode, ht, Except.map] using h.symm
          show (b.repository.documents.find? id).bind ofJson? = some t
          rw [hj, Option.bind_some, ht]
    · intro _ readable
      cases hj : b.repository.documents.find? id with
      | none => exact ⟨none, by simp [bounded]⟩
      | some j =>
        obtain ⟨t, ht⟩ := Option.isSome_iff_exists.1 (readable id j hj)
        exact ⟨some t, by simp [bounded, Repository.decode, ht, Except.map]⟩

/-! ## How an op can end -/

/-- The change that an op comes to, as things are known. -/
def change (op : StateOp) (b : Books) : Change := op.resolve (b.tracker.task? op.taskId)

/-- The tracker has taken the change, and the documents may have. -/
structure Attempted (op : StateOp) (b after : Books) : Prop where
  writes : (b.change op).Writes
  tracker : b.tracker.notify (b.change op) = .ok after.tracker
  running : after.running = b.running
  failingReads : after.repository.failingReads ≤ b.repository.failingReads
  documents : after.repository.documents = (b.change op).write b.repository.documents ∨
    after.repository.documents = b.repository.documents

/-- How an op can end: the reply, and the books after it. -/
inductive Handled (op : StateOp) (b : Books) : Change → Books → Prop where
  | refused (e : TrackerError) (refuses : b.tracker.notify (b.change op) = .error e) :
      b.Handled op (.failure (.tracker op.taskId e)) b
  | quiet (nothing : ¬(b.change op).Writes) : b.Handled op (b.change op) b
  | settled {after : Books} (made : b.Attempted op after)
      (there : after.repository.documents = (b.change op).write b.repository.documents ∨
        after.repository.Holds op.taskId (b.change op).newTask?) :
      b.Handled op (b.change op) after
  | unverified {after : Books} (write reload : StoreCallError) (made : b.Attempted op after)
      (unread : b.repository.failingReads = 0 → ¬after.repository.Readable) :
      b.Handled op (.failure (.unverified op.taskId write reload)) after
  | corrected {after : Books} (write : StoreCallError) (made : b.Attempted op after)
      (found : Option Task) (there : after.repository.Holds op.taskId found)
      (differs : found ≠ (b.change op).newTask?) :
      b.Handled op (.failure (.persist op.taskId write))
        (after.correct (b.change op).newTask? found)

/-- A failed write is decided by what is read back. -/
theorem handled_verify {op : StateOp} {b mid : Books} (limit : Span) {intent : Intent Task}
    (write : StoreCallError) (made : b.Attempted op mid)
    (target : intent.target = (b.change op).newTask?) :
    b.Handled op (mid.verify limit op.taskId (b.change op) intent write).1
      (mid.verify limit op.taskId (b.change op) intent write).2 := by
  unfold verify
  generalize hcall : mid.call limit op.taskId (.get op.taskId) (mid.repository.get op.taskId) = read
  obtain ⟨reloaded, after⟩ := read
  have reread : mid.Reread op.taskId reloaded after := by
    have := mid.reread_call limit op.taskId
    rwa [hcall] at this
  have made' : b.Attempted op after := by
    refine ⟨made.writes, ?_, reread.running.trans made.running,
      Nat.le_trans reread.failingReads made.failingReads, ?_⟩
    · rw [reread.tracker]
      exact made.tracker
    · rw [reread.documents]
      exact made.documents
  cases reloaded with
  | error reload =>
    refine .unverified write reload made' ?_
    intro reads readable
    have none_fail : mid.repository.failingReads = 0 := by
      have := made.failingReads
      omega
    have readable' : mid.repository.Readable := by
      intro id j hj
      rw [← reread.documents] at hj
      exact readable id j hj
    obtain ⟨found, hfound⟩ := reread.answered none_fail readable'
    exact nomatch hfound
  | ok found =>
    have there : after.repository.Holds op.taskId found :=
      (reread.found found rfl).of_find? (by rw [reread.documents])
    simp only [Intent.checkReload, Intent.check_eq, target]
    by_cases meant : found = (b.change op).newTask?
    · rw [if_pos meant]
      exact .settled made' (.inr (meant ▸ there))
    · rw [if_neg meant]
      exact .corrected write made' found there meant

/-- A write of the change ends in one of the listed ways, whether it succeeds or fails. -/
theorem handled_write {op : StateOp} {b : Books} {tracker : Tracker} (limit : Span)
    (taken : b.tracker.notify (b.change op) = .ok tracker) (writes : (b.change op).Writes)
    (entry : StoreCall) (intent : Intent Task)
    (target : intent.target = (b.change op).newTask?) (effect : Repository → Repository)
    (h : ∀ r, effect r = { r with documents := (b.change op).write r.documents })
    {result : Except StoreCallError Unit} {after : Books}
    (hcall : { b with tracker := tracker }.call limit op.taskId entry
      (b.repository.write effect) = (result, after)) :
    (result = .ok () → b.Handled op (b.change op) after) ∧
      ∀ e, result = .error e →
        b.Handled op (after.verify limit op.taskId (b.change op) intent e).1
          (after.verify limit op.taskId (b.change op) intent e).2 := by
  have wrote : Wrote (b.change op).write { b with tracker := tracker } result after := by
    have := wrote_call limit op.taskId { b with tracker := tracker } entry effect
      (f := (b.change op).write) h
    rwa [hcall] at this
  have made : b.Attempted op after := by
    refine ⟨writes, ?_, wrote.running, Nat.le_of_eq wrote.failingReads,
      wrote.documents.imp_right And.left⟩
    rw [wrote.tracker]
    exact taken
  constructor
  · intro succeeds
    refine .settled made (.inl (wrote.documents.resolve_right ?_))
    rintro ⟨-, e, fails⟩
    rw [succeeds] at fails
    cases fails
  · intro e fails
    exact handled_verify limit e made target

/-- Once the tracker has taken the change, writing it ends in one of the listed ways. -/
theorem handled_persist {op : StateOp} {b : Books} {tracker : Tracker} (limit : Span)
    (taken : b.tracker.notify (b.change op) = .ok tracker) :
    b.Handled op ({ b with tracker := tracker }.persist limit op.taskId (b.change op)).1
      ({ b with tracker := tracker }.persist limit op.taskId (b.change op)).2 := by
  unfold persist
  cases hchange : b.change op with
  | update new old =>
    simp only
    split
    · next after hcall =>
      rw [← hchange]
      exact (handled_write limit taken (hchange ▸ trivial) _ (.present new) (by rw [hchange]; rfl) _
        (fun r => by rw [hchange]; rfl) hcall).1 rfl
    · next e after hcall =>
      rw [← hchange]
      exact (handled_write limit taken (hchange ▸ trivial) _ _ (by rw [hchange]; rfl) _
        (fun r => by rw [hchange]; rfl) hcall).2 e rfl
  | expunge old =>
    simp only
    split
    · next after hcall =>
      rw [← hchange]
      exact (handled_write limit taken (hchange ▸ trivial) _ .absent (by rw [hchange]; rfl) _
        (fun r => by rw [hchange]; rfl) hcall).1 rfl
    · next e after hcall =>
      rw [← hchange]
      exact (handled_write limit taken (hchange ▸ trivial) _ _ (by rw [hchange]; rfl) _
        (fun r => by rw [hchange]; rfl) hcall).2 e rfl
  | _ =>
    rw [hchange] at taken
    obtain rfl := Except.ok.inj taken
    have quiet : b.Handled op (b.change op) b := .quiet (by rw [hchange]; exact id)
    rwa [hchange] at quiet

/-- An op ends in one of the listed ways. -/
theorem handled_apply (limit : Span) (op : StateOp) (b : Books) :
    b.Handled op (b.apply limit op).1 (b.apply limit op).2 := by
  unfold apply
  simp only
  split
  · next e refuses => exact .refused e refuses
  · next tracker taken => exact handled_persist limit taken

/-! ## Corrections -/

/-- What correcting the tracker of a task can come to. -/
inductive Corrected (id : TaskId) (b : Books) (believed found : Option Task) : Books → Prop where
  | followed (change : Change) (tracker : Tracker) (hfor : change.IsFor id)
      (taken : b.tracker.notify change = .ok tracker)
      (follows : ∀ current, change.follow current = found) :
      b.Corrected id believed found { b with tracker := tracker }
  | refused (stored : Task) (e : TrackerError) (there : found = some stored)
      (refuses : b.tracker.putTask stored = .error e) : b.Corrected id believed found b
  | nothing (unchanged : believed = none) (missing : found = none) : b.Corrected id believed found b

theorem corrected_correct {id : TaskId} (b : Books) {believed found : Option Task}
    (hbelieved : ∀ t, believed = some t → t.id = id) (hfound : ∀ t, found = some t → t.id = id) :
    b.Corrected id believed found (b.correct believed found) := by
  cases found with
  | some stored =>
    cases hn : b.tracker.notify (.update stored believed) with
    | ok tracker =>
      have : b.correct believed (some stored) = { b with tracker := tracker } := by
        simp [correct, hn]
      rw [this]
      exact .followed (.update stored believed) tracker (hfound stored rfl) hn fun _ => rfl
    | error e =>
      have : b.correct believed (some stored) = b := by simp [correct, hn]
      rw [this]
      exact .refused stored e rfl hn
  | none =>
    cases believed with
    | some task =>
      exact .followed (.expunge task) (b.tracker.dropTask task) (hbelieved task rfl) rfl fun _ => rfl
    | none => exact .nothing rfl rfl

theorem repository_correct (b : Books) (believed found : Option Task) :
    (b.correct believed found).repository = b.repository := by
  unfold correct
  simp only
  split <;> rfl

/-! ## What an op leaves alone -/

/-- Nothing but one task has changed. -/
structure Frame (id : TaskId) (b after : Books) : Prop where
  tracker : ∀ k, k ≠ id → after.tracker.task? k = b.tracker.task? k
  documents : ∀ k, k ≠ id →
    after.repository.documents.find? k = b.repository.documents.find? k

theorem Frame.refl (id : TaskId) (b : Books) : b.Frame id b := ⟨fun _ _ => rfl, fun _ _ => rfl⟩

theorem Frame.trans {id : TaskId} {b mid after : Books} (h : b.Frame id mid)
    (h' : mid.Frame id after) : b.Frame id after :=
  ⟨fun k hk => (h'.tracker k hk).trans (h.tracker k hk),
    fun k hk => (h'.documents k hk).trans (h.documents k hk)⟩

/-- Other tasks are stored as they were. -/
theorem Frame.stored? {id : TaskId} {b after : Books} (h : b.Frame id after) {k : TaskId}
    (hk : k ≠ id) : after.repository.stored? k = b.repository.stored? k := by
  rw [Repository.stored?, h.documents k hk, Repository.stored?]

section

variable {op : StateOp} {b after : Books}

theorem isFor_change (h : b.tracker.Assembled) (op : StateOp) : (b.change op).IsFor op.taskId :=
  StateOp.isFor_resolve fun _ ht => Tracker.id_of_task? h ht

theorem Attempted.frame (h : b.tracker.Assembled) (made : b.Attempted op after) :
    b.Frame op.taskId after := by
  have hfor := isFor_change h op
  refine ⟨?_, ?_⟩
  · intro k hk
    rw [Tracker.task?_notify h hfor made.tracker, if_neg hk]
  · intro k hk
    rcases made.documents with written | same
    · rw [written, Change.find?_write hfor _ hk]
    · rw [same]

/-- The repository follows a change that is written, if what is written can be read back. -/
theorem stored?_write {id : TaskId} {change : Change} (hfor : change.IsFor id)
    (readsBack : ∀ t, change.newTask? = some t → ReadsBack t) {r r' : Repository}
    (h : r'.documents = change.write r.documents) :
    r'.stored? id = change.follow (r.stored? id) := by
  rw [Repository.stored?, h]
  cases change with
  | update new old =>
    obtain rfl : new.id = id := hfor
    rw [Change.write, OrderedMap.find?_insert, if_pos rfl, Option.bind_some]
    exact readsBack new rfl
  | expunge old =>
    obtain rfl : old.id = id := hfor
    rw [Change.write, OrderedMap.find?_erase, if_pos rfl]
    rfl
  | noChange _ => rfl
  | failure _ => rfl

/-- What is written can be read under its own id only. -/
theorem keyed_write {id : TaskId} {change : Change} (hfor : change.IsFor id) {r r' : Repository}
    (keyed : r.Keyed) (h : r'.documents = change.write r.documents) : r'.Keyed := by
  intro k t ht
  by_cases hk : k = id
  · rw [Repository.stored?, h, hk] at ht
    cases change with
    | update new old =>
      obtain rfl : new.id = id := hfor
      rw [Change.write, OrderedMap.find?_insert, if_pos rfl, Option.bind_some] at ht
      exact (id_of_ofJson?_toJson ht).trans hk.symm
    | expunge old =>
      obtain rfl : old.id = id := hfor
      rw [Change.write, OrderedMap.find?_erase, if_pos rfl] at ht
      cases ht
    | noChange _ => exact (keyed id t ht).trans hk.symm
    | failure _ => exact (keyed id t ht).trans hk.symm
  · rw [Repository.stored?, h, Change.find?_write hfor _ hk] at ht
    exact keyed k t ht

theorem Attempted.keyed (h : b.tracker.Assembled) (keyed : b.repository.Keyed)
    (made : b.Attempted op after) : after.repository.Keyed := by
  rcases made.documents with written | same
  · exact keyed_write (isFor_change h op) keyed written
  · intro k t ht
    rw [Repository.stored?, same] at ht
    exact keyed k t ht

/-- A task that a change of `id` leaves has this id. -/
theorem id_of_newTask? {id : TaskId} {change : Change} (hfor : change.IsFor id) {t : Task}
    (h : change.newTask? = some t) : t.id = id := by
  cases change with
  | update new old => exact Option.some.inj h ▸ hfor
  | _ => cases h

/-- What trackers keep when they follow a change, they keep when an op ends. -/
theorem Handled.tracker_induction {P : Tracker → Prop}
    (keeps : ∀ t t' change, P t → t.notify change = .ok t' → P t') {reply : Change}
    (h : P b.tracker) (handled : b.Handled op reply after) : P after.tracker := by
  cases handled with
  | refused e refuses => exact h
  | quiet nothing => exact h
  | settled made there => exact keeps _ _ _ h made.tracker
  | unverified write reload made unread => exact keeps _ _ _ h made.tracker
  | corrected write made found there differs =>
    have hmid := keeps _ _ _ h made.tracker
    unfold correct
    simp only
    split
    · next tracker taken =>
      obtain ⟨change, -, taken⟩ := Option.map_eq_some_iff.1 taken
      exact keeps _ _ _ hmid taken
    · exact hmid
    · exact hmid

/-- The laws of the books that every op keeps. -/
structure Sound (b : Books) : Prop where
  assembled : b.tracker.Assembled
  keyed : b.repository.Keyed

theorem sound_empty : empty.Sound :=
  ⟨Tracker.wellFormed_empty.assembled, fun id t h => by cases h⟩

theorem Handled.sound {reply : Change} (h : b.Sound) (handled : b.Handled op reply after) :
    after.Sound := by
  refine ⟨handled.tracker_induction (fun _ _ _ ht taken => ht.notify taken) h.assembled, ?_⟩
  cases handled with
  | refused e refuses => exact h.keyed
  | quiet nothing => exact h.keyed
  | settled made there => exact made.keyed h.assembled h.keyed
  | unverified write reload made unread => exact made.keyed h.assembled h.keyed
  | corrected write made found there differs =>
    rw [repository_correct]
    exact made.keyed h.assembled h.keyed

/-- An op changes its task alone. -/
theorem Handled.frame {reply : Change} (h : b.Sound) (handled : b.Handled op reply after) :
    b.Frame op.taskId after := by
  cases handled with
  | refused e refuses => exact .refl _ b
  | quiet nothing => exact .refl _ b
  | settled made there => exact made.frame h.assembled
  | unverified write reload made unread => exact made.frame h.assembled
  | @corrected mid write made found there differs =>
    have mid_keyed := made.keyed h.assembled h.keyed
    have corrects := corrected_correct mid
      (fun t => id_of_newTask? (isFor_change h.assembled op))
      (fun t ht => mid_keyed op.taskId t (there.stored?.trans ht))
    generalize mid.correct _ _ = after at corrects ⊢
    cases corrects with
    | followed change tracker hfor taken follows =>
      refine (made.frame h.assembled).trans ⟨?_, fun _ _ => rfl⟩
      intro k hk
      have others := Tracker.task?_notify (h.assembled.notify made.tracker) hfor taken k
      exact others.trans (if_neg hk)
    | refused => exact made.frame h.assembled
    | nothing => exact made.frame h.assembled

end

section

variable {op : StateOp} {b after : Books}

theorem Writes.follow {change : Change} (h : change.Writes) (current : Option Task) :
    change.follow current = change.newTask? := by
  cases change with
  | update new old => rfl
  | expunge old => rfl
  | noChange _ => exact h.elim
  | failure _ => exact h.elim

/-- Once written, the change stands in the repository. -/
theorem holds_write {id : TaskId} {change : Change} (hfor : change.IsFor id)
    (writes : change.Writes) (readsBack : ∀ t, change.newTask? = some t → ReadsBack t)
    {r r' : Repository} (h : r'.documents = change.write r.documents) :
    r'.Holds id change.newTask? := by
  cases change with
  | update new old =>
    have stored := stored?_write hfor readsBack h
    exact stored
  | expunge old =>
    obtain rfl : old.id = id := hfor
    show r'.documents.find? old.id = none
    rw [h, Change.write, OrderedMap.find?_erase, if_pos rfl]
  | noChange _ => exact writes.elim
  | failure _ => exact writes.elim

theorem Attempted.task? (h : b.tracker.Assembled) (made : b.Attempted op after) :
    after.tracker.task? op.taskId = (b.change op).newTask? := by
  rw [Tracker.task?_notify h (isFor_change h op) made.tracker, if_pos rfl]
  exact Writes.follow made.writes _

/-- An op that did not fail has left its task as it was, or as the op makes it. -/
theorem Handled.task? {reply : Change} (h : b.tracker.Assembled)
    (handled : b.Handled op reply after) (succeeds : reply.isFailure = false) :
    after.tracker.task? op.taskId = b.tracker.task? op.taskId ∨
      after.tracker.task? op.taskId = (b.change op).newTask? := by
  cases handled with
  | refused e refuses => cases succeeds
  | quiet nothing => exact .inl rfl
  | settled made there => exact .inr (made.task? h)
  | unverified write reload made unread => cases succeeds
  | corrected write made found there differs => cases succeeds

end

/-! ## Ops that are taken up or not -/

/-- An op that is not taken up leaves the books as they are, and is told so. -/
theorem processWithin_cases (b : Books) (limit : Span) (patience : Int) (op : StateOp) :
    b.processWithin limit patience op = (.failure .unavailable, b) ∨
      b.processWithin limit patience op = (.failure (.deadlineExceeded op.taskId), b) ∨
        b.processWithin limit patience op = b.apply limit op := by
  unfold processWithin
  split
  · exact .inl rfl
  · split
    · exact .inr (.inl rfl)
    · exact .inr (.inr rfl)

/-- What the books have before an op and after each way of handling it, they have after the op. -/
theorem processWithin_induction {P : Books → Prop} {b : Books} {limit : Span} {patience : Int}
    {op : StateOp} (before : P b) (step : ∀ reply after, b.Handled op reply after → P after) :
    P (b.processWithin limit patience op).2 := by
  rcases b.processWithin_cases limit patience op with refused | refused | applied
  · rw [refused]
    exact before
  · rw [refused]
    exact before
  · rw [applied]
    exact step _ _ (handled_apply limit op b)

/-- An op that did not fail was taken up. -/
theorem handled_process {b : Books} {limit : Span} {op : StateOp}
    (succeeds : (b.process limit op).1.isFailure = false) :
    b.Handled op (b.process limit op).1 (b.process limit op).2 := by
  unfold process at succeeds ⊢
  rcases b.processWithin_cases limit 0 op with refused | refused | applied
  · rw [refused] at succeeds
    cases succeeds
  · rw [refused] at succeeds
    cases succeeds
  · rw [applied]
    exact handled_apply limit op b

/-- However long an op has waited and whatever the store does, the books stay sound and nothing but
the task of the op changes. -/
theorem frame_processWithin {b : Books} (h : b.Sound) (limit : Span) (patience : Int) (op : StateOp) :
    b.Frame op.taskId (b.processWithin limit patience op).2 ∧
      (b.processWithin limit patience op).2.Sound :=
  processWithin_induction (P := fun after => b.Frame op.taskId after ∧ after.Sound)
    ⟨.refl _ b, h⟩ fun _ _ handled => ⟨handled.frame h, handled.sound h⟩

theorem wellFormed_processWithin {b : Books} (h : b.tracker.WellFormed) (limit : Span) (patience : Int)
    (op : StateOp) : (b.processWithin limit patience op).2.tracker.WellFormed :=
  processWithin_induction (P := fun after => after.tracker.WellFormed) h fun _ _ handled =>
    handled.tracker_induction (fun _ _ _ ht taken => ht.notify taken) h

theorem task?_process {limit : Span} {op : StateOp} {b : Books} (h : b.tracker.Assembled)
    (succeeds : (b.process limit op).1.isFailure = false) :
    (b.process limit op).2.tracker.task? op.taskId = b.tracker.task? op.taskId ∨
      (b.process limit op).2.tracker.task? op.taskId = (b.change op).newTask? :=
  (handled_process succeeds).task? h succeeds

/-! ## Without faults -/

/-- Without faults to come, a change is written and answered. -/
theorem persist_faultless {b : Books} (faultless : b.repository.writeFaults = []) (limit : Span)
    (id : TaskId) (change : Change) : (b.persist limit id change).1 = change ∧
      (b.persist limit id change).2.tracker = b.tracker ∧
      (b.persist limit id change).2.running = b.running ∧
      (b.persist limit id change).2.repository =
        { b.repository with documents := change.write b.repository.documents } := by
  have answers : ∀ effect : Repository → Repository,
      b.repository.write effect = (.answers 0 (.ok ()), effect b.repository) := by
    intro effect
    rw [Repository.write, faultless]
  cases change with
  | update new old =>
    simp only [persist, call, Repository.store, answers, bounded, Nat.zero_le, if_true]
    exact ⟨trivial, trivial, trivial, rfl⟩
  | expunge old =>
    simp only [persist, call, Repository.delete, answers, bounded, Nat.zero_le, if_true]
    exact ⟨trivial, trivial, trivial, rfl⟩
  | noChange _ => exact ⟨rfl, rfl, rfl, rfl⟩
  | failure _ => exact ⟨rfl, rfl, rfl, rfl⟩

/-- Without faults to come, an op leaves the processor running and brings no fault. -/
theorem apply_faultless {b : Books} (faultless : b.repository.writeFaults = []) (limit : Span) (op : StateOp) :
    (b.apply limit op).2.running = b.running ∧
      (b.apply limit op).2.repository.writeFaults = [] := by
  unfold apply
  simp only
  split
  · exact ⟨rfl, faultless⟩
  · next tracker _ =>
    have written := persist_faultless (b := { b with tracker := tracker }) faultless limit op.taskId
      (op.resolve (b.tracker.task? op.taskId))
    obtain ⟨-, -, running, repository⟩ := written
    exact ⟨running, by rw [repository]; exact faultless⟩

/-- Without faults to come, the tracker follows what an op comes to, or stays as it is. -/
theorem task?_process_faultless {b : Books} (h : b.tracker.Assembled)
    (faultless : b.repository.writeFaults = []) (limit : Span) (op : StateOp) :
    (b.process limit op).2.repository.writeFaults = [] ∧
      ((b.process limit op).2.tracker.task? op.taskId = b.tracker.task? op.taskId ∨
        (b.process limit op).2.tracker.task? op.taskId =
          (b.change op).follow (b.tracker.task? op.taskId)) := by
  unfold process
  rcases b.processWithin_cases limit 0 op with refused | refused | applied
  · rw [refused]
    exact ⟨faultless, .inl rfl⟩
  · rw [refused]
    exact ⟨faultless, .inl rfl⟩
  · rw [applied]
    refine ⟨(apply_faultless faultless limit op).2, ?_⟩
    unfold apply
    simp only
    split
    · exact .inl rfl
    · next tracker taken =>
      have written := persist_faultless (b := { b with tracker := tracker }) faultless limit op.taskId
        (op.resolve (b.tracker.task? op.taskId))
      right
      rw [written.2.1, Tracker.task?_notify h (isFor_change h op) taken, if_pos rfl]

end Books

/-! ## Sample books -/

/-- The time a call of the store may take. -/
def Sample.limit : Span := .ofSeconds 5

/-- Books with one task that waits on its reservation, and a write fault to come. -/
def Sample.books : Books :=
  let b := (Books.empty.apply Sample.limit (.reserve Sample.waitingTask)).2
  { b with repository := b.repository.addWriteFault .reject }

/-- A launch on the reservation. -/
def Sample.launch : StateOp :=
  .launchOnReservation Sample.waitingTask.id ⟨1, 0⟩ (.fresh .created ⟨1, 0⟩) [8080]

theorem Sample.wellFormed_books : Sample.books.tracker.WellFormed := by
  have handled := Books.handled_apply Sample.limit (.reserve Sample.waitingTask) .empty
  have kept := handled.tracker_induction (fun _ _ _ ht taken => ht.notify taken)
    Tracker.wellFormed_empty
  exact kept

theorem Sample.keyed_books : Sample.books.repository.Keyed := by
  have handled := Books.handled_apply Sample.limit (.reserve Sample.waitingTask) .empty
  exact (handled.sound Books.sound_empty).keyed

end Placement
