/-
What is taken from a pool is no more than is there.

The measure is `Pool.headroom`: what is left of a kind, where chunks that have been overdrawn count
as empty. `Pool.Pays` says that parts were taken and lowered it by as much, up to the tolerance for
each part that is carved for a new volume. Every way to take something has one lemma:
`pays_takeScalars`, `pays_takeVolumes` and `pays_takeExisting?`.
-/
import Placement.Proofs.Kind
import Placement.Matching

namespace Placement

namespace Pool

open Resource

/-! ## Headroom -/

/-- What is left of the kind of `k`; overdrawn chunks count as empty. -/
def headroom (k : Resource Rat) (p : Pool Rat) : Rat :=
  ((p.filter (·.resource.sameKind k)).map fun c => max c.remaining 0).sum

theorem headroom_cons (k : Resource Rat) (c : Chunk Rat) (p : Pool Rat) :
    headroom k (c :: p) =
      (if c.resource.sameKind k then max c.remaining 0 else 0) + headroom k p := by
  by_cases h : c.resource.sameKind k = true
  · simp [headroom, h]
  · simp [headroom, h]

theorem headroom_nonneg (k : Resource Rat) (p : Pool Rat) : 0 ≤ headroom k p := by
  induction p with
  | nil => exact le_refl 0
  | cons c rest ih =>
    have := le_max_right c.remaining 0
    rw [headroom_cons]
    split <;> linarith

/-- At first all is left. -/
theorem headroom_ofResources {rs : List (Resource Rat)} (h : ∀ r ∈ rs, 0 ≤ r.amount)
    (k : Resource Rat) : headroom k (ofResources rs) = kindTotal k rs := by
  induction rs with
  | nil => rfl
  | cons r rest ih =>
    have hr := h r List.mem_cons_self
    have hrest := ih fun s hs => h s (List.mem_cons_of_mem r hs)
    rw [ofResources, List.map_cons, ← ofResources, headroom_cons, kindTotal_cons, hrest,
      max_eq_left hr]

/-! ## Paying -/

section

variable {α : Type}

/-- What a pool knows of its chunks beside their remaining amounts. -/
def frame (p : Pool α) : List (Resource α × List Port) := p.map fun c => (c.resource, c.takenPorts)

theorem resources_of_frame {p q : Pool α} (h : q.frame = p.frame) :
    q.map Chunk.resource = p.map Chunk.resource := by
  have first := congrArg (List.map Prod.fst) h
  rwa [frame, frame, List.map_map, List.map_map] at first

variable [Amount α]

theorem resources_ofResources (rs : List (Resource α)) :
    (ofResources rs).map Chunk.resource = rs := by
  rw [ofResources, List.map_map]
  exact List.map_id rs

/-- A pool in which no port has been taken yet. -/
theorem takenPorts_of_frame {p : Pool α} {rs : List (Resource α)}
    (h : p.frame = (ofResources rs).frame) : ∀ c ∈ p, c.takenPorts = [] := by
  intro c hc
  have hmem : (c.resource, c.takenPorts) ∈ p.frame := List.mem_map.2 ⟨c, hc, rfl⟩
  rw [h] at hmem
  obtain ⟨c', hc', heq⟩ := List.mem_map.1 hmem
  obtain ⟨r, -, rfl⟩ := List.mem_map.1 hc'
  exact (Prod.mk.inj heq).2.symm

end

/-- The parts `fs` were taken; those among them that were carved for volumes are `carved`. -/
structure Pays (p : Pool Rat) (fs carved : List (Resource Rat)) (p' : Pool Rat) : Prop where
  frame : p'.frame = p.frame
  total : ∀ k, kindTotal k fs + headroom k p' ≤
    headroom k p + kindCount k carved * Amount.tolerance

theorem Pays.refl (p : Pool Rat) : Pays p [] [] p :=
  ⟨rfl, fun k => by simp [kindCount]⟩

theorem Pays.append {p q r : Pool Rat} {fs gs cs ds : List (Resource Rat)} (h : Pays p fs cs q)
    (h' : Pays q gs ds r) : Pays p (fs ++ gs) (cs ++ ds) r := by
  refine ⟨h'.frame.trans h.frame, ?_⟩
  intro k
  have first := h.total k
  have second := h'.total k
  rw [kindTotal_append, kindCount_append]
  push_cast
  linarith

/-- What is paid from all chunks but the first leaves that one. -/
theorem Pays.cons {p p' : Pool Rat} {fs carved : List (Resource Rat)} (h : Pays p fs carved p')
    (c : Chunk Rat) : Pays (c :: p) fs carved (c :: p') := by
  refine ⟨?_, ?_⟩
  · have := h.frame
    rw [Pool.frame] at this ⊢
    rw [List.map_cons, this]
    rfl
  · intro k
    have := h.total k
    simp only [headroom_cons]
    linarith

/-- A part of a chunk. -/
def slice (c : Chunk Rat) (a : Rat) : Resource Rat := c.resource.withValue (.scalar a)

/-- A part is paid by its chunk if it leaves as much less. -/
theorem pays_slice (c : Chunk Rat) (p : Pool Rat) {a b : Rat}
    (h : a + max b 0 ≤ max c.remaining 0) :
    Pays (c :: p) [slice c a] [] ({ c with remaining := b } :: p) := by
  refine ⟨rfl, ?_⟩
  intro k
  have shares : (slice c a).sameKind k = c.resource.sameKind k := rfl
  have amount : (slice c a).amount = a := rfl
  have none_carved : (kindCount k [] : Rat) = 0 := by simp [kindCount]
  simp only [kindTotal_cons, headroom_cons, shares, amount, kindTotal_nil, none_carved]
  split <;> linarith

/-- The parts come from the chunks of a pool that pass a test, and are more than nothing. -/
def PartsOf (p : Pool Rat) (test : Resource Rat → Prop) (fs : List (Resource Rat)) : Prop :=
  ∀ f ∈ fs, 0 < f.amount ∧ ∃ c ∈ p, test c.resource ∧ f = slice c f.amount

theorem partsOf_nil (p : Pool Rat) (test : Resource Rat → Prop) : PartsOf p test [] := by
  simp [PartsOf]

/-! ## Scalars -/

theorem pays_drain (serves : Resource Rat → Bool) (missing : Rat) (p : Pool Rat) :
    Pays p (p.drain serves missing).2.1 [] (p.drain serves missing).2.2 ∧
      PartsOf p (serves · = true) (p.drain serves missing).2.1 := by
  induction p generalizing missing with
  | nil => exact ⟨.refl [], partsOf_nil [] _⟩
  | cons c rest ih =>
    unfold drain
    split
    · exact ⟨.refl _, partsOf_nil _ _⟩
    · simp only
      split
      · next takes =>
        simp only [Bool.and_eq_true, Bool.not_eq_true', decide_eq_false_iff_not, not_le] at takes
        obtain ⟨hserves, pos⟩ := takes
        obtain ⟨pays, parts⟩ := ih (missing - Amount.least c.remaining missing)
        have upper := Amount.least_le_left c.remaining missing
        have slice_pays : Pays (c :: rest) [slice c (Amount.least c.remaining missing)] []
            ({ c with remaining := c.remaining - Amount.least c.remaining missing } :: rest) := by
          refine pays_slice c rest ?_
          rw [max_eq_left (by linarith), max_eq_left (by linarith)]
          linarith
        refine ⟨slice_pays.append (pays.cons _), ?_⟩
        intro f hf
        rcases List.mem_cons.1 hf with rfl | hf
        · exact ⟨pos, c, List.mem_cons_self, hserves, rfl⟩
        · obtain ⟨hpos, c', hc', htest, hslice⟩ := parts f hf
          exact ⟨hpos, c', List.mem_cons_of_mem c hc', htest, hslice⟩
      · obtain ⟨pays, parts⟩ := ih missing
        refine ⟨pays.cons c, ?_⟩
        intro f hf
        obtain ⟨hpos, c', hc', htest, hslice⟩ := parts f hf
        exact ⟨hpos, c', List.mem_cons_of_mem c hc', htest, hslice⟩

/-- A part of a chunk is of the kind of the chunk's resource. -/
theorem PartsOf.frame {p q : Pool Rat} {test : Resource Rat → Prop} {fs : List (Resource Rat)}
    (h : PartsOf q test fs) (same : q.frame = p.frame) : PartsOf p test fs := by
  intro f hf
  obtain ⟨pos, c, hc, htest, hslice⟩ := h f hf
  have hmem : (c.resource, c.takenPorts) ∈ q.frame := List.mem_map.2 ⟨c, hc, rfl⟩
  rw [same] at hmem
  obtain ⟨c', hc', heq⟩ := List.mem_map.1 hmem
  obtain ⟨hres, -⟩ := Prod.mk.inj heq
  refine ⟨pos, c', hc', hres ▸ htest, ?_⟩
  rw [hslice, slice, slice, hres]
  rfl

theorem PartsOf.append {p : Pool Rat} {test : Resource Rat → Prop} {fs gs : List (Resource Rat)}
    (h : PartsOf p test fs) (h' : PartsOf p test gs) : PartsOf p test (fs ++ gs) :=
  fun f hf => (List.mem_append.1 hf).elim (h f) (h' f)

theorem PartsOf.mono {p : Pool Rat} {test test' : Resource Rat → Prop} {fs : List (Resource Rat)}
    (h : PartsOf p test fs) (weaker : ∀ r, test r → test' r) : PartsOf p test' fs := by
  intro f hf
  obtain ⟨pos, c, hc, htest, hslice⟩ := h f hf
  exact ⟨pos, c, hc, weaker c.resource htest, hslice⟩

/-- Parts of disks without volumes keep none. -/
theorem PartsOf.bare {p : Pool Rat} {fs : List (Resource Rat)} (h : PartsOf p Bare fs) :
    ∀ f ∈ fs, f.Bare := by
  intro f hf hname
  obtain ⟨-, c, -, htest, hslice⟩ := h f hf
  rw [hslice] at hname ⊢
  exact htest hname

/-- Scalars are not taken from disks with volumes. -/
theorem bare_of_servesScalar {α : Type} [Amount α] {r : Resource α} (h : servesScalar r = true) : Bare r := by
  intro hname
  simp only [servesScalar, hname, bne_self_eq_false, Bool.false_or, Bool.and_eq_true,
    Option.isNone_iff_eq_none] at h
  exact h.1

theorem pays_takeScalar? {s : Selector} {name : ResourceName} {amount : Rat} {p p' : Pool Rat}
    {fs : List (Resource Rat)} (h : p.takeScalar? s name amount = some (fs, p')) :
    Pays p fs [] p' ∧ PartsOf p Bare fs := by
  unfold takeScalar? at h
  simp only at h
  split at h
  · cases h
  · obtain ⟨rfl, rfl⟩ := Prod.mk.inj (Option.some.inj h)
    obtain ⟨pays, parts⟩ := pays_drain (fun r => eligible s name true r && servesScalar r) amount p
    obtain ⟨pays', parts'⟩ := pays_drain (fun r => eligible s name false r && servesScalar r)
      (p.drain (fun r => eligible s name true r && servesScalar r) amount).1
      (p.drain (fun r => eligible s name true r && servesScalar r) amount).2.2
    have serves : ∀ reserved (r : Resource Rat), (eligible s name reserved r && servesScalar r) = true →
        Bare r :=
      fun reserved r hserves => bare_of_servesScalar (Bool.and_eq_true_iff.1 hserves).2
    refine ⟨pays.append pays', ?_⟩
    exact (parts.mono (serves true)).append ((parts'.frame pays.frame).mono (serves false))

end Pool

namespace Matching

open Pool Resource

/-- The requirements that are taken are paid, whatever the reasons against others. -/
theorem pays_takeScalars (s : Selector) (required : Requirements Rat) (names : List ResourceName)
    (reasons : List MismatchReason) (p : Pool Rat) :
    Pays p (takeScalars s required reasons names p).1 [] (takeScalars s required reasons names p).2.2 ∧
      PartsOf p Bare
        (takeScalars s required reasons names p).1 := by
  induction names generalizing reasons p with
  | nil => exact ⟨.refl p, partsOf_nil p _⟩
  | cons name rest ih =>
    unfold takeScalars
    split
    · exact ih reasons p
    · split
      · next parts p' taken =>
        obtain ⟨pays, first⟩ := pays_takeScalar? taken
        obtain ⟨pays', more⟩ := ih reasons p'
        exact ⟨pays.append pays', first.append (more.frame pays.frame)⟩
      · exact ih _ p

end Matching

namespace Pool

open Resource

/-! ## New volumes -/

/-- What a volume takes of the chunk that it is carved from. -/
def volumePart (v : PersistentVolume Rat) (c : Chunk Rat) : Rat :=
  if v.diskType == .mount then c.remaining else v.size

/-- A volume takes more than is left by the tolerance at most. -/
theorem volumePart_le_remaining {s : Selector} {v : PersistentVolume Rat} {c : Chunk Rat}
    (h : fitsVolume s v c = true) : volumePart v c ≤ c.remaining + Amount.tolerance := by
  have tol := Amount.tolerance_pos
  simp only [fitsVolume, Bool.and_eq_true, decide_eq_true_eq] at h
  unfold volumePart
  split
  · linarith
  · exact h.1.2

theorem volumePart_le {s : Selector} {v : PersistentVolume Rat} {c : Chunk Rat}
    (h : fitsVolume s v c = true) :
    volumePart v c + max (c.remaining - volumePart v c) 0 ≤
      max c.remaining 0 + Amount.tolerance := by
  have tol := Amount.tolerance_pos
  have left := le_max_left c.remaining 0
  have upper := volumePart_le_remaining h
  rcases le_total (c.remaining - volumePart v c) 0 with short | rest
  · rw [max_eq_right short]
    linarith
  · rw [max_eq_left rest]
    linarith

/-- A part of the first chunk that passes a test, and what becomes of the chunk. -/
theorem takeFirst?_eq_some {α : Type} [Amount α] {test : Chunk α → Bool} {part : Chunk α → α}
    {p p' : Pool α} {f : Resource α} (h : p.takeFirst? test part = some (f, p')) :
    ∃ before c after, p = before ++ c :: after ∧ test c = true ∧
      f = c.resource.withValue (.scalar (part c)) ∧
      p' = before ++ { c with remaining := c.remaining - part c } :: after := by
  induction p generalizing p' with
  | nil => cases h
  | cons c rest ih =>
    unfold takeFirst? at h
    split at h
    · next passes =>
      obtain ⟨rfl, rfl⟩ := Prod.mk.inj (Option.some.inj h)
      exact ⟨[], c, rest, rfl, passes, rfl, rfl⟩
    · obtain ⟨⟨g, rest'⟩, hrest, heq⟩ := Option.map_eq_some_iff.1 h
      obtain ⟨rfl, rfl⟩ := Prod.mk.inj heq
      obtain ⟨before, d, after, rfl, passes, hslice, rfl⟩ := ih hrest
      exact ⟨c :: before, d, after, rfl, passes, hslice, rfl⟩

/-- The first chunk that passes a test pays for a carved part of it. -/
theorem pays_takeFirst? {test : Chunk Rat → Bool} {part : Chunk Rat → Rat}
    (fits : ∀ c, test c = true → part c + max (c.remaining - part c) 0 ≤
      max c.remaining 0 + Amount.tolerance) {p p' : Pool Rat} {f : Resource Rat}
    (h : p.takeFirst? test part = some (f, p')) :
    Pays p [f] [f] p' ∧ ∃ c ∈ p, test c = true ∧ f = slice c (part c) := by
  obtain ⟨before, c, after, rfl, passes, rfl, rfl⟩ := takeFirst?_eq_some h
  refine ⟨?_, c, by simp, passes, rfl⟩
  clear h
  induction before with
  | nil =>
    refine ⟨rfl, ?_⟩
    intro k
    have bound := fits c passes
    have one : (kindCount k [slice c (part c)] : Rat) =
        if c.resource.sameKind k then 1 else 0 := by
      rw [kindCount_cons, show (slice c (part c)).sameKind k = c.resource.sameKind k from rfl]
      split <;> rfl
    show kindTotal k [slice c (part c)] + _ ≤ _ + (kindCount k [slice c (part c)] : Rat) * _
    rw [one, List.nil_append, List.nil_append, kindTotal_cons, headroom_cons, headroom_cons,
      kindTotal_nil, show (slice c (part c)).sameKind k = c.resource.sameKind k from rfl,
      show (slice c (part c)).amount = part c from rfl]
    split <;> linarith
  | cons d rest ih => exact ih.cons d

theorem pays_takeVolume? {s : Selector} {v : PersistentVolume Rat} {p p' : Pool Rat}
    {f : Resource Rat} (h : p.takeVolume? s v = some (f, p')) :
    Pays p [f] [f] p' ∧ f.persistence = none ∧ f.portRanges = [] := by
  obtain ⟨best, -, taken⟩ := Option.bind_eq_some_iff.1 h
  have fits : ∀ c : Chunk Rat, (fitsVolume s v c && Amount.sortsBefore c.remaining best) = true →
      fitsVolume s v c = true := fun c hc => (Bool.and_eq_true_iff.1 hc).1
  obtain ⟨pays, c, -, passes, rfl⟩ := pays_takeFirst? (fun c hc => volumePart_le (fits c hc)) taken
  refine ⟨pays, ?_, rfl⟩
  have := fits c passes
  simp only [fitsVolume, Bool.and_eq_true, Option.isNone_iff_eq_none] at this
  exact this.1.1.1.2

/-- All volumes that are carved are paid, up to the tolerance for each of them. -/
theorem pays_takeVolumes (s : Selector) (vs : List (PersistentVolume Rat)) (p : Pool Rat) :
    Pays p ((p.takeVolumes s vs).1.map (·.2)) ((p.takeVolumes s vs).1.map (·.2))
        (p.takeVolumes s vs).2.2 ∧
      ∀ f ∈ (p.takeVolumes s vs).1.map (·.2), f.persistence = none ∧ f.portRanges = [] := by
  induction vs generalizing p with
  | nil => exact ⟨.refl p, by simp [takeVolumes]⟩
  | cons v rest ih =>
    unfold takeVolumes
    split
    · next f p' taken =>
      obtain ⟨pays, new⟩ := pays_takeVolume? taken
      obtain ⟨pays', more⟩ := ih p'
      refine ⟨pays.append pays', ?_⟩
      intro g hg
      rcases List.mem_cons.1 hg with rfl | hg
      · exact new
      · exact more g hg
    · exact ih p

/-! ## Existing volumes -/

/-- The list that a partial map gives, if it is defined on all of a list. -/
theorem filterMap_of_mapM {α β : Type} {f : α → Option β} {l : List α} {bs : List β}
    (h : l.mapM f = some bs) : l.filterMap f = bs := by
  induction l generalizing bs with
  | nil => exact Option.some.inj h
  | cons a rest ih =>
    rw [List.mapM_cons] at h
    obtain ⟨b, hb, h⟩ := Option.bind_eq_some_iff.1 h
    obtain ⟨bs', hbs', h⟩ := Option.bind_eq_some_iff.1 h
    rw [List.filterMap_cons, hb, ih hbs']
    exact Option.some.inj h

/-- A chunk holds one volume at most. -/
theorem eq_of_holdsVolume {α : Type} [Amount α] {c : Chunk α} {v w : VolumeId} (hv : holdsVolume v c = true)
    (hw : holdsVolume w c = true) : v = w := by
  have carries : ∀ x, holdsVolume x c = true → c.resource.persistence.map (·.volumeId) = some x := by
    intro x hx
    have hx := (Bool.and_eq_true_iff.1 hx).2
    unfold carriesVolume at hx
    split at hx
    · next q hq => rw [hq, Option.map_some, beq_iff_eq.1 hx]
    · cases hx
  exact Option.some.inj ((carries v hv).symm.trans (carries w hw))

theorem resourceOfVolume?_cons {α : Type} [Amount α] (c : Chunk α) (p : Pool α) (v : VolumeId) :
    resourceOfVolume? (c :: p) v =
      if holdsVolume v c then some c.resource else resourceOfVolume? p v := by
  unfold resourceOfVolume?
  rw [List.find?_cons]
  split
  · next h => rw [if_pos h, Option.map_some]
  · next h => rw [h, if_neg Bool.false_ne_true]

/-- What carries a volume that is looked for is whole if its chunk is. -/
theorem resourceOfVolume?_eq_some {α : Type} [Amount α] {p : Pool α} {v : VolumeId}
    {r : Resource α} (h : p.resourceOfVolume? v = some r) :
    r.carriesVolume v = true ∧ ∃ c ∈ p, c.resource = r ∧ Amount.tolerance < c.remaining := by
  obtain ⟨c, hc, rfl⟩ := Option.map_eq_some_iff.1 h
  have holds : holdsVolume v c = true := List.find?_some (p := holdsVolume v) hc
  obtain ⟨held, carries⟩ := Bool.and_eq_true_iff.1 holds
  exact ⟨carries, c, List.mem_of_find?_eq_some hc, rfl, of_decide_eq_true held⟩

theorem kindTotal_perm {k : Resource Rat} {rs ss : List (Resource Rat)} (h : rs.Perm ss) :
    kindTotal k rs = kindTotal k ss := ((h.filter _).map _).sum_eq

/-- The volume of a chunk is taken out of a list of volumes; the others are found further on. -/
theorem perm_resourcesOfVolumes {α : Type} [Amount α] {ids : List VolumeId} (distinct : ids.Nodup)
    {c : Chunk α} {id : VolumeId} (found : (ids.find? fun id => holdsVolume id c) = some id)
    (p : Pool α) : (ids.filterMap (resourceOfVolume? (c :: p))).Perm
      (c.resource :: (ids.filter (· ≠ id)).filterMap p.resourceOfVolume?) := by
  have held : holdsVolume id c = true := List.find?_some (p := (holdsVolume · c)) found
  have order : ids.Perm (id :: ids.filter (· ≠ id)) := by
    have same : ids.filter (· ≠ id) = ids.erase id := by
      rw [distinct.erase_eq_filter]
      refine List.filter_congr ?_
      intro v _
      rw [Bool.eq_iff_iff, decide_eq_true_eq, bne_iff_ne]
    rw [same]
    exact List.perm_cons_erase (List.mem_of_find?_eq_some found)
  have further : (ids.filter (· ≠ id)).filterMap (resourceOfVolume? (c :: p)) =
      (ids.filter (· ≠ id)).filterMap p.resourceOfVolume? := by
    refine List.filterMap_congr ?_
    intro v hv
    have hne : v ≠ id := by simpa using (List.mem_filter.1 hv).2
    rw [resourceOfVolume?_cons, if_neg fun hv => hne (eq_of_holdsVolume hv held)]
  have first := order.filterMap (resourceOfVolume? (c :: p))
  rwa [List.filterMap_cons, resourceOfVolume?_cons, if_pos held, further] at first

/-- A chunk without one of the volumes is passed by. -/
theorem resourcesOfVolumes_of_none {α : Type} [Amount α] {ids : List VolumeId} {c : Chunk α}
    (missing : (ids.find? fun id => holdsVolume id c) = none) (p : Pool α) :
    ids.filterMap (resourceOfVolume? (c :: p)) = ids.filterMap p.resourceOfVolume? := by
  refine List.filterMap_congr ?_
  intro v hv
  rw [resourceOfVolume?_cons, if_neg (List.find?_eq_none.1 missing v hv)]

/-- The disks of different volumes are paid by the chunks that are emptied, as long as those are
whole. -/
theorem kindTotal_emptyVolumes {ids : List VolumeId} (distinct : ids.Nodup) {p : Pool Rat}
    (whole : ∀ c ∈ p, c.resource.amount = c.remaining) (k : Resource Rat) :
    kindTotal k (ids.filterMap p.resourceOfVolume?) + headroom k (emptyVolumes ids p) ≤
      headroom k p := by
  induction p generalizing ids with
  | nil =>
    have none_found : ids.filterMap (resourceOfVolume? ([] : Pool Rat)) = [] := by
      simp [resourceOfVolume?]
    rw [none_found, emptyVolumes]
    exact le_of_eq (zero_add _)
  | cons c rest ih =>
    have rest_whole : ∀ c' ∈ rest, c'.resource.amount = c'.remaining :=
      fun c' hc' => whole c' (List.mem_cons_of_mem c hc')
    unfold emptyVolumes
    split
    · next id found =>
      have held : holdsVolume id c = true := List.find?_some (p := (holdsVolume · c)) found
      have positive : 0 < c.remaining :=
        lt_trans Amount.tolerance_pos (of_decide_eq_true (Bool.and_eq_true_iff.1 held).1)
      have parts := kindTotal_perm (k := k) (perm_resourcesOfVolumes distinct found rest)
      have others := ih (distinct.filter (· ≠ id)) rest_whole
      rw [parts, kindTotal_cons, whole c List.mem_cons_self, headroom_cons, headroom_cons, max_self,
        max_eq_left (le_of_lt positive)]
      split <;> linarith
    · next missing =>
      have others := ih distinct rest_whole
      rw [resourcesOfVolumes_of_none missing, headroom_cons, headroom_cons]
      linarith

theorem frame_emptyVolumes {α : Type} [Amount α] (ids : List VolumeId) (p : Pool α) :
    (emptyVolumes ids p).frame = p.frame := by
  induction p generalizing ids with
  | nil => rfl
  | cons c rest ih =>
    unfold emptyVolumes
    split
    · next id _ => exact congrArg (_ :: ·) (ih (ids.filter (· ≠ id)))
    · exact congrArg (_ :: ·) (ih ids)

/-- The volumes of the disks that are found are those that were looked for. -/
theorem volumesOf_sublist (p : Pool Rat) (ids : List VolumeId) :
    (volumesOf (ids.filterMap p.resourceOfVolume?)).Sublist ids := by
  induction ids with
  | nil => exact .slnil
  | cons v rest ih =>
    rw [List.filterMap_cons]
    split
    · exact ih.cons v
    · next r hr =>
      obtain ⟨carries, -⟩ := resourceOfVolume?_eq_some hr
      unfold carriesVolume at carries
      split at carries
      · next q hq =>
        obtain rfl := beq_iff_eq.1 carries
        unfold volumesOf at ih ⊢
        rw [List.filter_cons]
        split
        · rw [List.filterMap_cons, hq, Option.map_some]
          exact ih.cons_cons _
        · exact ih.cons _
      · cases carries

/-- The disks that carry different volumes are paid; each of them is taken whole. -/
theorem pays_takeExisting? {ids : List VolumeId} (distinct : ids.Nodup) {p p' : Pool Rat}
    (whole : ∀ c ∈ p, c.resource.amount = c.remaining) {rs : List (Resource Rat)}
    (h : p.takeExisting? ids = some (rs, p')) :
    Pays p rs [] p' ∧ (volumesOf rs).Nodup ∧
      ∀ r ∈ rs, Amount.tolerance < r.amount ∧ ∃ c ∈ p, c.resource = r := by
  obtain ⟨rs', found, heq⟩ := Option.map_eq_some_iff.1 h
  obtain ⟨rfl, rfl⟩ := Prod.mk.inj heq
  have list := filterMap_of_mapM found
  refine ⟨⟨frame_emptyVolumes ids p, ?_⟩, ?_, ?_⟩
  · intro k
    have none_carved : (kindCount k [] : Rat) = 0 := by simp [kindCount]
    have total := kindTotal_emptyVolumes distinct whole k
    rw [list] at total
    rw [none_carved]
    linarith
  · have sub := volumesOf_sublist p ids
    rw [list] at sub
    exact distinct.sublist sub
  · intro r hr
    rw [← list] at hr
    obtain ⟨v, -, hv⟩ := List.mem_filterMap.1 hr
    obtain ⟨-, c, hc, rfl, held⟩ := resourceOfVolume?_eq_some hv
    exact ⟨(whole c hc).symm ▸ held, c, hc, rfl⟩

end Pool

end Placement
