/-
Which resource each part of a match was taken from.

Parts are taken in one order, from chunks in another, and several parts may be of one kind. Still every
part can be put down to one resource so that none gives more than it has, up to the tolerance:
`Resource.Attributed`. The pool knows how, though it does not write it down. `Pool.Gave` says what one
chunk gave, and `Pool.Yields` that the chunks of a pool gave a list of parts together; steps that yield
parts can be put one after another (`Pool.Yields.trans`), and every way to take something is one:
`Pool.yields_drain`, `Pool.yields_takeFirst?` and `Pool.yields_emptyVolumes`.
-/
import Placement.Proofs.Supply

namespace Placement

open Resource

/-- The parts can be shared out among the resources: a part differs from the resource that it is put
down to in its amount alone, and no resource gives more than it has, up to the tolerance. -/
def Resource.Attributed (rs fs : List (Resource Rat)) : Prop :=
  ∃ shares : List (List (Resource Rat)), fs.Perm shares.flatten ∧
    List.Forall₂ (fun r share => (∀ f ∈ share, f = r.withValue (.scalar f.amount)) ∧
      (share.map amount).sum ≤ r.amount + Amount.tolerance) rs shares

/-- A resource with an amount is the part of itself that has that amount. -/
theorem Resource.withValue_amount {r : Resource Rat} (h : 0 < r.amount) :
    r.withValue (.scalar r.amount) = r := by
  obtain ⟨name, value, role, reservation, disk⟩ := r
  cases value with
  | scalar a => rfl
  | ranges ranges => exact absurd h (lt_irrefl 0)

namespace Pool

/-! ## One chunk -/

/-- The chunk gave these parts of its resource, and has as much less. It is not overdrawn by more than
the tolerance. -/
structure Gave (c : Chunk Rat) (share : List (Resource Rat)) (c' : Chunk Rat) : Prop where
  resource : c'.resource = c.resource
  parts : ∀ f ∈ share, f = slice c f.amount
  total : (share.map amount).sum + c'.remaining = c.remaining
  solvent : -Amount.tolerance ≤ c.remaining → -Amount.tolerance ≤ c'.remaining

theorem Gave.refl (c : Chunk Rat) : Gave c [] c := ⟨rfl, by simp, by simp, id⟩

theorem Gave.trans {c d e : Chunk Rat} {share more : List (Resource Rat)} (h : Gave c share d)
    (h' : Gave d more e) : Gave c (share ++ more) e := by
  refine ⟨h'.resource.trans h.resource, ?_, ?_, h'.solvent ∘ h.solvent⟩
  · intro f hf
    rcases List.mem_append.1 hf with hf | hf
    · exact h.parts f hf
    · have := h'.parts f hf
      rwa [slice, h.resource] at this
  · have first := h.total
    have second := h'.total
    rw [List.map_append, List.sum_append]
    linarith

/-- A chunk gives a part that is no more than what is left, up to the tolerance. -/
theorem gave_slice {c : Chunk Rat} {a : Rat} (h : a ≤ c.remaining + Amount.tolerance) :
    Gave c [slice c a] { c with remaining := c.remaining - a } := by
  refine ⟨rfl, ?_, ?_, ?_⟩
  · intro f hf
    rw [List.mem_singleton.1 hf]
    rfl
  · show a + 0 + (c.remaining - a) = c.remaining
    linarith
  · intro _
    show -Amount.tolerance ≤ c.remaining - a
    linarith

/-! ## All chunks -/

/-- The chunks of a pool gave the parts together. -/
inductive Yields : Pool Rat → List (Resource Rat) → Pool Rat → Prop
  | nil : Yields [] [] []
  | cons {c c' : Chunk Rat} {p p' : Pool Rat} {share fs gs : List (Resource Rat)} :
      Gave c share c' → Yields p fs p' → gs.Perm (share ++ fs) → Yields (c :: p) gs (c' :: p')

section

variable {p q r : Pool Rat} {fs gs : List (Resource Rat)}

theorem Yields.refl (p : Pool Rat) : Yields p [] p := by
  induction p with
  | nil => exact .nil
  | cons c rest ih => exact .cons (.refl c) ih (.refl _)

theorem Yields.trans (h : Yields p fs q) (h' : Yields q gs r) : Yields p (fs ++ gs) r := by
  induction h generalizing gs r with
  | nil =>
    cases h' with
    | nil => exact .nil
  | @cons c c' p p' share others fs gave _ perm ih =>
    cases h' with
    | @cons _ c'' _ p'' share' others' _ gave' yields' perm' =>
      -- What the chunk gave in both steps comes first, then what the others gave.
      have sorted : ((share ++ others) ++ (share' ++ others')).Perm
          ((share ++ share') ++ (others ++ others')) := by
        rw [List.append_assoc, List.append_assoc]
        refine List.Perm.append_left share ?_
        rw [← List.append_assoc, ← List.append_assoc]
        exact List.perm_append_comm.append_right others'
      exact .cons (gave.trans gave') (ih yields') ((perm.append perm').trans sorted)

/-- Chunks before the others give nothing. -/
theorem Yields.cons_of (h : Yields p fs q) (c : Chunk Rat) : Yields (c :: p) fs (c :: q) :=
  .cons (.refl c) h (.refl fs)

theorem Yields.middle {c c' : Chunk Rat} {share : List (Resource Rat)} (h : Gave c share c')
    (before after : Pool Rat) : Yields (before ++ c :: after) share (before ++ c' :: after) := by
  induction before with
  | nil => exact .cons h (.refl after) (by rw [List.append_nil])
  | cons d rest ih => exact ih.cons_of d

theorem Yields.head {c c' : Chunk Rat} {share : List (Resource Rat)} (h : Gave c share c')
    (rest : Yields p fs q) : Yields (c :: p) (share ++ fs) (c' :: q) :=
  .cons h rest (.refl _)

/-- The parts that a pool of resources yields can be put down to these. -/
theorem Yields.attributed {rs : List (Resource Rat)} (h : Yields (ofResources rs) fs q)
    (nonneg : ∀ r ∈ rs, 0 ≤ r.amount) : Attributed rs fs := by
  have tol := Amount.tolerance_pos
  induction rs generalizing fs q with
  | nil =>
    cases h with
    | nil => exact ⟨[], .refl _, .nil⟩
  | cons r rest ih =>
    cases h with
    | @cons _ c' _ q' share others _ gave yields perm =>
      obtain ⟨shares, whole, each⟩ := ih yields fun s hs => nonneg s (List.mem_cons_of_mem r hs)
      refine ⟨share :: shares, perm.trans (whole.append_left share), .cons ⟨gave.parts, ?_⟩ each⟩
      have had := nonneg r List.mem_cons_self
      have total : (share.map amount).sum + c'.remaining = r.amount := gave.total
      have left : -Amount.tolerance ≤ c'.remaining := gave.solvent (show _ ≤ r.amount by linarith)
      linarith

end

/-! ## Steps that yield parts -/

section

variable {p p' : Pool Rat} {fs : List (Resource Rat)}

theorem yields_drain (serves : Resource Rat → Bool) (missing : Rat) (p : Pool Rat) :
    Yields p (p.drain serves missing).2.1 (p.drain serves missing).2.2 := by
  have tol := Amount.tolerance_pos
  induction p generalizing missing with
  | nil => exact .nil
  | cons c rest ih =>
    unfold drain
    split
    · exact .refl _
    · simp only
      split
      · have upper := Amount.least_le_left c.remaining missing
        exact .head (gave_slice (by linarith)) (ih (missing - Amount.least c.remaining missing))
      · exact (ih missing).cons_of c

theorem yields_takeScalar? {s : Selector} {name : ResourceName} {amount : Rat}
    (h : p.takeScalar? s name amount = some (fs, p')) : Yields p fs p' := by
  rw [takeScalar?_eq] at h
  split at h
  · cases h
  · obtain ⟨rfl, rfl⟩ := Prod.mk.inj (Option.some.inj h)
    exact (yields_drain _ _ _).trans (yields_drain _ _ _)

/-- A volume is carved from a chunk that it fits. -/
theorem takeVolume?_eq_some {s : Selector} {v : PersistentVolume Rat} {f : Resource Rat}
    (h : p.takeVolume? s v = some (f, p')) : ∃ before c after, p = before ++ c :: after ∧
      fitsVolume s v c = true ∧ f = slice c (volumePart v c) ∧
      p' = before ++ { c with remaining := c.remaining - volumePart v c } :: after := by
  obtain ⟨best, -, taken⟩ := Option.bind_eq_some_iff.1 h
  obtain ⟨before, c, after, hp, passes, hslice, hp'⟩ := takeFirst?_eq_some taken
  exact ⟨before, c, after, hp, (Bool.and_eq_true_iff.1 passes).1, hslice, hp'⟩

theorem yields_takeVolumes (s : Selector) (vs : List (PersistentVolume Rat)) (p : Pool Rat) :
    Yields p ((p.takeVolumes s vs).1.map (·.2)) (p.takeVolumes s vs).2.2 := by
  induction vs generalizing p with
  | nil => exact .refl p
  | cons v rest ih =>
    unfold takeVolumes
    split
    · next f p' taken =>
      obtain ⟨before, c, after, rfl, fits, rfl, rfl⟩ := takeVolume?_eq_some taken
      exact (Yields.middle (gave_slice (volumePart_le_remaining fits)) before after).trans (ih _)
    · exact ih p

/-- Chunks that hold different volumes give their resources whole. -/
theorem yields_emptyVolumes {ids : List VolumeId} (distinct : ids.Nodup)
    (whole : ∀ c ∈ p, c.resource.amount = c.remaining) :
    Yields p (ids.filterMap p.resourceOfVolume?) (emptyVolumes ids p) := by
  have tol := Amount.tolerance_pos
  induction p generalizing ids with
  | nil =>
    have none_found : ids.filterMap (resourceOfVolume? ([] : Pool Rat)) = [] := by
      simp [resourceOfVolume?]
    rw [none_found, emptyVolumes]
    exact .nil
  | cons c rest ih =>
    have rest_whole : ∀ c' ∈ rest, c'.resource.amount = c'.remaining :=
      fun c' hc' => whole c' (List.mem_cons_of_mem c hc')
    have all := whole c List.mem_cons_self
    unfold emptyVolumes
    split
    · next id found =>
      have held : holdsVolume id c = true := List.find?_some (p := (holdsVolume · c)) found
      have positive : 0 < c.resource.amount := by
        rw [all]
        exact lt_trans tol (of_decide_eq_true (Bool.and_eq_true_iff.1 held).1)
      have gave : Gave c [c.resource] { c with remaining := 0 } := by
        refine ⟨rfl, ?_, ?_, fun _ => ?_⟩
        · intro f hf
          rw [List.mem_singleton.1 hf, slice, withValue_amount positive]
        · simpa using all
        · show -Amount.tolerance ≤ (0 : Rat)
          linarith
      exact .cons gave (ih (distinct.filter (· ≠ id)) rest_whole)
        (perm_resourcesOfVolumes distinct found rest)
    · next missing =>
      rw [resourcesOfVolumes_of_none missing]
      exact (ih distinct rest_whole).cons_of c

theorem yields_takeExisting? {ids : List VolumeId} (distinct : ids.Nodup)
    (whole : ∀ c ∈ p, c.resource.amount = c.remaining)
    (h : p.takeExisting? ids = some (fs, p')) : Yields p fs p' := by
  obtain ⟨rs, found, heq⟩ := Option.map_eq_some_iff.1 h
  obtain ⟨rfl, rfl⟩ := Prod.mk.inj heq
  rw [← filterMap_of_mapM found]
  exact yields_emptyVolumes distinct whole

end

end Pool

namespace Matching

open Pool

theorem yields_takeScalars (s : Selector) (required : Requirements Rat) (names : List ResourceName)
    (reasons : List MismatchReason) (p : Pool Rat) :
    Yields p (takeScalars s required reasons names p).1 (takeScalars s required reasons names p).2.2 := by
  induction names generalizing reasons p with
  | nil => exact .refl p
  | cons name rest ih =>
    unfold takeScalars
    split
    · exact ih reasons p
    · split
      · next parts p' taken => exact (yields_takeScalar? taken).trans (ih reasons p')
      · exact ih _ p

/-- All that the volumes of a request take is yielded by the pool of the offer. -/
theorem yields_takeVolumes (s : Selector) (o : Offer Rat) {request : VolumeRequest Rat}
    (distinct : ∀ ids, request = .existing ids → ids.Nodup) :
    Yields (ofResources o.resources)
      ((takeVolumes s (ofResources o.resources) request).existing ++
        (takeVolumes s (ofResources o.resources) request).created.map (·.2))
      (takeVolumes s (ofResources o.resources) request).pool := by
  unfold takeVolumes
  split
  · exact .refl _
  · exact Pool.yields_takeVolumes s _ _
  · next ids =>
    split
    · next rs p found =>
      have fresh : ∀ c ∈ ofResources o.resources, c.resource.amount = c.remaining := by
        intro c hc
        obtain ⟨r, -, rfl⟩ := List.mem_map.1 hc
        rfl
      rw [List.map_nil, List.append_nil]
      exact yields_takeExisting? (distinct ids rfl) fresh found
    · exact .refl _

end Matching

end Placement
