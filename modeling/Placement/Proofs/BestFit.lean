/-
New volumes are carved by best fit.

* `Pool.Carves` is the rule, stated without a pool: it goes through the volumes in the order in which
  they are declared and keeps a log of what became of each. What is left of a resource follows from the
  log alone (`Pool.leftBy`), and the choice among resources of which equally much is left is open.
* `Pool.exists_carves` runs the carving of volumes against the rule: the pool is at each point what the
  log leaves of the resources (`Pool.poolAfter`).
* `Pool.Carves.mount` follows from the rule: a mount backs one volume at most, with all that it has.
* `Matching.bestFit_takeVolumes` is the main result. It adds that plain requirements leave mounts and
  paths alone.
-/
import Placement.Proofs.Supplied

namespace Placement

open Resource

namespace Pool

/-! ## The rule -/

/-- What became of volumes, one entry for each: the part that was carved and the place of the resource it
is from, or nothing. -/
abbrev CarvingLog := List (Option (Nat × Resource Rat))

/-- The parts that were carved from the resource at a place. -/
def partsFrom (i : Nat) (log : CarvingLog) : List (Resource Rat) :=
  log.filterMap fun entry => entry.bind fun x => if x.1 = i then some x.2 else none

/-- What the carvings of a log leave of the resource at a place. -/
def leftBy (log : CarvingLog) (i : Nat) (r : Resource Rat) : Rat :=
  r.amount - ((partsFrom i log).map Resource.amount).sum

/-- A volume can be carved from a resource of which the given amount is left: an accepted and unreserved
disk of its type, which keeps no volume and has room for it. -/
structure Suits (s : Selector) (v : PersistentVolume Rat) (r : Resource Rat) (left : Rat) : Prop where
  disk : r.name = .disk
  accepted : s.accepts r = true
  unreserved : r.reservation = none
  empty : r.persistence = none
  source : r.diskSource.type = v.diskType
  room : v.size ≤ left + Amount.tolerance

/-- The part that a volume gets of a resource of which the given amount is left: as much as it asks for,
and all of a mount. -/
def carvedPart (v : PersistentVolume Rat) (r : Resource Rat) (left : Rat) : Resource Rat :=
  r.withValue (.scalar (if v.diskType = .mount then left else v.size))

/-- Best fit: what becomes of volumes in their order, after the carvings that are `done`. A volume is
carved from a resource that suits it and of which no more is left than of any other that does; nothing
becomes of it if none does. -/
inductive Carves (s : Selector) (rs : List (Resource Rat)) :
    CarvingLog → List (PersistentVolume Rat) → CarvingLog → Prop where
  | nil (done : CarvingLog) : Carves s rs done [] []
  | fails {done : CarvingLog} {v : PersistentVolume Rat} {vs : List (PersistentVolume Rat)}
      {log : CarvingLog} (unsuited : ∀ i r, rs[i]? = some r → ¬ Suits s v r (leftBy done i r))
      (others : Carves s rs (done ++ [none]) vs log) : Carves s rs done (v :: vs) (none :: log)
  | carved {done : CarvingLog} {v : PersistentVolume Rat} {vs : List (PersistentVolume Rat)}
      {log : CarvingLog} {i : Nat} {r : Resource Rat} (there : rs[i]? = some r)
      (suits : Suits s v r (leftBy done i r))
      (least : ∀ j q, rs[j]? = some q → Suits s v q (leftBy done j q) →
        leftBy done i r ≤ leftBy done j q)
      (others : Carves s rs (done ++ [some (i, carvedPart v r (leftBy done i r))]) vs log) :
      Carves s rs done (v :: vs) (some (i, carvedPart v r (leftBy done i r)) :: log)

/-- The volumes that were carved, with their parts. -/
def served (vs : List (PersistentVolume Rat)) (log : CarvingLog) :
    List (PersistentVolume Rat × Resource Rat) :=
  (vs.zip log).filterMap fun x => x.2.map fun entry => (x.1, entry.2)

section

variable (log : CarvingLog) (i j : Nat) (r f : Resource Rat)

theorem partsFrom_cons_some :
    partsFrom i (some (j, f) :: log) = if j = i then f :: partsFrom i log else partsFrom i log := by
  by_cases h : j = i <;> simp [partsFrom, h]

theorem leftBy_nil : leftBy [] i r = r.amount := sub_zero _

/-- A volume that fails takes nothing. -/
theorem leftBy_fails : leftBy (log ++ [none]) i r = leftBy log i r := by
  simp [leftBy, partsFrom]

theorem leftBy_carved : leftBy (log ++ [some (j, f)]) i r =
    leftBy log i r - if j = i then f.amount else 0 := by
  by_cases h : j = i
  · simp [leftBy, partsFrom, h, sub_sub]
  · simp [leftBy, partsFrom, h]

end

/-! ## Mounts -/

section

variable {s : Selector} {rs : List (Resource Rat)} {done log : CarvingLog}
  {vs : List (PersistentVolume Rat)}

/-- A mount of which nothing is left backs no volume any more. -/
theorem Carves.mount_empty (h : Carves s rs done vs log) (sizes : ∀ v ∈ vs, Amount.tolerance < v.size)
    {i : Nat} {r : Resource Rat} (there : rs[i]? = some r) (gone : leftBy done i r = 0) :
    partsFrom i log = [] := by
  induction h with
  | nil => rfl
  | @fails done _ _ _ _ _ ih =>
    refine ih (fun v hv => sizes v (List.mem_cons_of_mem _ hv)) ?_
    rw [leftBy_fails, gone]
  | @carved done v vs log j q there' suits _ _ ih =>
    have other : j ≠ i := by
      rintro rfl
      obtain rfl := Option.some.inj (there.symm.trans there')
      have room := suits.room
      have large := sizes v List.mem_cons_self
      rw [gone] at room
      linarith
    rw [partsFrom_cons_some, if_neg other]
    refine ih (fun v hv => sizes v (List.mem_cons_of_mem _ hv)) ?_
    rw [leftBy_carved, if_neg other, gone, sub_zero]

/-- A mount that is whole backs no volume or one, which takes all of it. -/
theorem Carves.mount (h : Carves s rs done vs log) (sizes : ∀ v ∈ vs, Amount.tolerance < v.size)
    {i : Nat} {r : Resource Rat} (there : rs[i]? = some r) (mount : r.diskSource.type = .mount)
    (whole : leftBy done i r = r.amount) :
    partsFrom i log = [] ∨ partsFrom i log = [r.withValue (.scalar r.amount)] := by
  induction h with
  | nil => exact .inl rfl
  | @fails done _ _ _ _ _ ih =>
    refine ih (fun v hv => sizes v (List.mem_cons_of_mem _ hv)) ?_
    rw [leftBy_fails, whole]
  | @carved done v vs log j q there' suits _ others ih =>
    have sizes' : ∀ v ∈ vs, Amount.tolerance < v.size := fun v hv => sizes v (List.mem_cons_of_mem _ hv)
    rw [partsFrom_cons_some]
    split
    · next same =>
      subst same
      obtain rfl := Option.some.inj (there.symm.trans there')
      have all : carvedPart v r (leftBy done j r) = r.withValue (.scalar r.amount) := by
        rw [carvedPart, if_pos (suits.source.symm.trans mount), whole]
      have emptied := others.mount_empty sizes' there (by
        rw [leftBy_carved, if_pos rfl, all, amount_withScalar, whole, sub_self])
      rw [all, emptied]
      exact .inr rfl
    · next other =>
      refine ih sizes' ?_
      rw [leftBy_carved, if_neg other, whole, sub_zero]

end

/-! ## One volume -/

section

variable {s : Selector} {v : PersistentVolume Rat} {p : Pool Rat}

theorem leastRemaining?_eq_none_iff {fits : Chunk Rat → Bool} :
    leastRemaining? fits p = none ↔ ∀ c ∈ p, fits c = false := by
  induction p with
  | nil => simp [leastRemaining?]
  | cons c rest ih =>
    rw [List.forall_mem_cons, ← ih, leastRemaining?]
    cases fits c <;> cases leastRemaining? fits rest <;> simp

/-- The least amount is that of a chunk which passes, and none that passes has less. -/
theorem leastRemaining?_eq_some {fits : Chunk Rat → Bool} {a : Rat}
    (h : leastRemaining? fits p = some a) :
    (∃ c ∈ p, fits c = true ∧ c.remaining = a) ∧ ∀ c ∈ p, fits c = true → a ≤ c.remaining := by
  induction p generalizing a with
  | nil => cases h
  | cons c rest ih =>
    unfold leastRemaining? at h
    split at h
    · next b passes hrest =>
      obtain ⟨⟨d, hd, hfits, rfl⟩, least⟩ := ih hrest
      split at h
      · next before =>
        obtain rfl := Option.some.inj h
        have lower : c.remaining ≤ d.remaining := of_decide_eq_true before
        exact ⟨⟨c, List.mem_cons_self, passes, rfl⟩, List.forall_mem_cons.2
          ⟨fun _ => le_refl _, fun e he hfits => le_trans lower (least e he hfits)⟩⟩
      · next behind =>
        obtain rfl := Option.some.inj h
        have lower : d.remaining ≤ c.remaining :=
          le_of_lt (not_le.1 fun le => behind (decide_eq_true le))
        exact ⟨⟨d, List.mem_cons_of_mem c hd, hfits, rfl⟩,
          List.forall_mem_cons.2 ⟨fun _ => lower, least⟩⟩
    · next passes hrest =>
      obtain rfl := Option.some.inj h
      refine ⟨⟨c, List.mem_cons_self, passes, rfl⟩, List.forall_mem_cons.2 ⟨fun _ => le_refl _, ?_⟩⟩
      intro e he hfits
      rw [leastRemaining?_eq_none_iff.1 hrest e he] at hfits
      cases hfits
    · next fails =>
      obtain ⟨⟨d, hd, hfits, same⟩, least⟩ := ih h
      refine ⟨⟨d, List.mem_cons_of_mem c hd, hfits, same⟩, List.forall_mem_cons.2 ⟨?_, least⟩⟩
      intro hfits
      rw [fails] at hfits
      cases hfits

theorem takeFirst?_eq_none {test : Chunk Rat → Bool} {part : Chunk Rat → Rat}
    (h : p.takeFirst? test part = none) : ∀ c ∈ p, test c = false := by
  induction p with
  | nil => simp
  | cons c rest ih =>
    unfold takeFirst? at h
    split at h
    · cases h
    · next fails =>
      exact List.forall_mem_cons.2 ⟨Bool.eq_false_iff.2 fails, ih (Option.map_eq_none_iff.1 h)⟩

/-- A volume fails if no chunk fits. -/
theorem takeVolume?_eq_none (h : p.takeVolume? s v = none) : ∀ c ∈ p, fitsVolume s v c = false := by
  unfold takeVolume? at h
  cases hbest : p.leastRemaining? (fitsVolume s v) with
  | none => exact leastRemaining?_eq_none_iff.1 hbest
  | some best =>
    -- The chunk of which least is left passes the test for the first one.
    obtain ⟨⟨c, hc, fits, rfl⟩, -⟩ := leastRemaining?_eq_some hbest
    rw [hbest] at h
    have fails := takeFirst?_eq_none h c hc
    rw [fits, Bool.true_and] at fails
    exact absurd (le_refl c.remaining) (of_decide_eq_false fails)

/-- A volume is carved from a chunk that fits and of which no more is left than of any other. -/
theorem takeVolume?_least {p' : Pool Rat} {f : Resource Rat} (h : p.takeVolume? s v = some (f, p')) :
    ∃ i c, p[i]? = some c ∧ fitsVolume s v c = true ∧
      (∀ d ∈ p, fitsVolume s v d = true → c.remaining ≤ d.remaining) ∧
      f = carvedPart v c.resource c.remaining ∧
      p' = p.set i { c with remaining := c.remaining - f.amount } := by
  obtain ⟨best, hbest, taken⟩ := Option.bind_eq_some_iff.1 h
  obtain ⟨before, c, after, rfl, passes, rfl, rfl⟩ := takeFirst?_eq_some taken
  obtain ⟨fits, first⟩ := Bool.and_eq_true_iff.1 passes
  have lower : c.remaining ≤ best := of_decide_eq_true first
  have part : (if v.diskType == .mount then c.remaining else v.size) =
      if v.diskType = .mount then c.remaining else v.size := by
    simp only [beq_iff_eq]
  refine ⟨before.length, c, by simp, fits, ?_, ?_, ?_⟩
  · exact fun d hd hfits => le_trans lower ((leastRemaining?_eq_some hbest).2 d hd hfits)
  · rw [carvedPart, part]
  · simp

end

/-! ## The run -/

section

variable {s : Selector} {rs : List (Resource Rat)} {done : CarvingLog}

/-- The pool that carvings leave of resources. -/
def poolAfter (rs : List (Resource Rat)) (log : CarvingLog) : Pool Rat :=
  rs.mapIdx fun i r => ⟨r, leftBy log i r, []⟩

theorem getElem?_poolAfter (rs : List (Resource Rat)) (log : CarvingLog) (i : Nat) :
    (poolAfter rs log)[i]? = rs[i]?.map fun r => ⟨r, leftBy log i r, []⟩ :=
  List.getElem?_mapIdx

theorem mem_poolAfter {i : Nat} {r : Resource Rat} (there : rs[i]? = some r) (log : CarvingLog) :
    ⟨r, leftBy log i r, []⟩ ∈ poolAfter rs log := by
  have chunk := getElem?_poolAfter rs log i
  rw [there, Option.map_some] at chunk
  exact List.mem_of_getElem? chunk

theorem poolAfter_nil (rs : List (Resource Rat)) : poolAfter rs [] = ofResources rs := by
  refine List.ext_getElem? fun i => ?_
  simp only [getElem?_poolAfter, leftBy_nil, ofResources, List.getElem?_map]

theorem poolAfter_fails (rs : List (Resource Rat)) (log : CarvingLog) :
    poolAfter rs (log ++ [none]) = poolAfter rs log := by
  refine List.ext_getElem? fun i => ?_
  simp only [getElem?_poolAfter, leftBy_fails]

theorem poolAfter_carved {i : Nat} {c : Chunk Rat} (there : (poolAfter rs done)[i]? = some c)
    (f : Resource Rat) : poolAfter rs (done ++ [some (i, f)]) =
      (poolAfter rs done).set i { c with remaining := c.remaining - f.amount } := by
  refine List.ext_getElem? fun j => ?_
  rw [getElem?_poolAfter, List.getElem?_set]
  by_cases h : i = j
  · subst h
    have inside : i < (poolAfter rs done).length := (List.getElem?_eq_some_iff.1 there).1
    rw [getElem?_poolAfter] at there
    obtain ⟨r, hr, rfl⟩ := Option.map_eq_some_iff.1 there
    simp [hr, inside, leftBy_carved]
  · simp [h, getElem?_poolAfter, leftBy_carved]

/-- Whether a chunk fits is a matter of what is left of it: of a mount that is all or nothing. -/
theorem fitsVolume_iff {v : PersistentVolume Rat} {c : Chunk Rat} (large : Amount.tolerance < v.size)
    (undivided : c.resource.diskSource.type = .mount →
      c.remaining = c.resource.amount ∨ c.remaining = 0) :
    fitsVolume s v c = true ↔ Suits s v c.resource c.remaining := by
  simp only [fitsVolume, eligible, Bool.and_eq_true, Bool.or_eq_true, beq_iff_eq, bne_iff_ne,
    decide_eq_true_eq, Option.isNone_iff_eq_none, isReserved, Option.isSome_eq_false_iff]
  constructor
  · rintro ⟨⟨⟨⟨⟨⟨disk, accepted⟩, unreserved⟩, empty⟩, source⟩, room⟩, -⟩
    exact ⟨disk, accepted, unreserved, empty, source, room⟩
  · rintro ⟨disk, accepted, unreserved, empty, source, room⟩
    refine ⟨⟨⟨⟨⟨⟨disk, accepted⟩, unreserved⟩, empty⟩, source⟩, room⟩, ?_⟩
    by_cases mount : v.diskType = .mount
    · have tol := Amount.tolerance_pos
      have whole : c.remaining = c.resource.amount :=
        (undivided (source.trans mount)).resolve_right fun gone => by linarith
      refine .inr ?_
      simp only [Amount.isNear, whole, sub_self, le_of_lt tol, decide_true, Bool.and_self]
    · exact .inl mount

/-- The carving of volumes follows the rule. -/
theorem exists_carves {vs : List (PersistentVolume Rat)} (sizes : ∀ v ∈ vs, Amount.tolerance < v.size)
    (undivided : Undivided (poolAfter rs done)) : ∃ log, Carves s rs done vs log ∧
      (poolAfter rs done).takeVolumes s vs =
        (served vs log, log.all Option.isSome, poolAfter rs (done ++ log)) := by
  induction vs generalizing done with
  | nil => exact ⟨[], .nil done, by simp [takeVolumes, served]⟩
  | cons v rest ih =>
    obtain ⟨large, sizes⟩ := List.forall_mem_cons.1 sizes
    have suits_iff : ∀ {i r}, rs[i]? = some r →
        (fitsVolume s v ⟨r, leftBy done i r, []⟩ = true ↔ Suits s v r (leftBy done i r)) :=
      fun there => fitsVolume_iff large (undivided _ (mem_poolAfter there done))
    cases taken : (poolAfter rs done).takeVolume? s v with
    | none =>
      have undivided' : Undivided (poolAfter rs (done ++ [none])) := by rwa [poolAfter_fails]
      obtain ⟨log, carves, run⟩ := ih sizes undivided'
      refine ⟨none :: log, .fails (fun i r there suits => ?_) carves, ?_⟩
      · have fails := takeVolume?_eq_none taken _ (mem_poolAfter there done)
        rw [(suits_iff there).2 suits] at fails
        cases fails
      · rw [poolAfter_fails] at run
        simp [takeVolumes, taken, run, served]
    | some result =>
      obtain ⟨f, p'⟩ := result
      obtain ⟨-, undivided', -⟩ := exact_takeVolume? undivided taken
      obtain ⟨i, c, hc, fits, least, rfl, rfl⟩ := takeVolume?_least taken
      rw [← poolAfter_carved hc] at undivided'
      obtain ⟨log, carves, run⟩ := ih sizes undivided'
      rw [poolAfter_carved hc] at run
      have chunk := hc
      rw [getElem?_poolAfter] at chunk
      obtain ⟨r, there, rfl⟩ := Option.map_eq_some_iff.1 chunk
      refine ⟨_, .carved there ((suits_iff there).1 fits) (fun j q there' suits => ?_) carves, ?_⟩
      · exact least _ (mem_poolAfter there' done) ((suits_iff there').2 suits)
      · simp [takeVolumes, taken, run, served]

end

end Pool

/-! ## Plain requirements -/

namespace Resource

/-- A disk of its own, a path or a mount. -/
def isDedicated (r : Resource Rat) : Bool := r.name == .disk && r.diskSource.type != .root

/-- What serves plain requirements is no disk of its own. -/
theorem not_isDedicated_of_serves {name : ResourceName} {r : Resource Rat}
    (h : r.serves name = true) : r.isDedicated = false := by
  have plain := (Bool.and_eq_true_iff.1 h).2
  unfold Pool.servesScalar at plain
  unfold isDedicated
  cases disk : r.name == .disk with
  | false => rfl
  | true =>
    simp only [bne, disk, Bool.not_true, Bool.false_or, Bool.and_eq_true, beq_iff_eq] at plain
    simp [plain.2]

end Resource

namespace Matching

open Pool

section

variable {s : Selector} {required : Requirements Rat}

/-- Plain requirements leave disks of their own as they are, and take no part of any. -/
theorem dedicated_takeScalars (names : List ResourceName) (reasons : List MismatchReason)
    (p : Pool Rat) :
    ((takeScalars s required reasons names p).2.2.filter fun c => c.resource.isDedicated) =
        (p.filter fun c => c.resource.isDedicated) ∧
      ∀ f ∈ (takeScalars s required reasons names p).1, f.isDedicated = false := by
  induction names generalizing reasons p with
  | nil => exact ⟨rfl, by simp [takeScalars]⟩
  | cons name rest ih =>
    unfold takeScalars
    split
    · exact ih reasons p
    · split
      · next parts p' taken =>
        obtain ⟨kept, others⟩ := ih reasons p'
        refine ⟨kept.trans ?_, ?_⟩
        · rw [takeScalar?_eq] at taken
          split at taken
          · cases taken
          · obtain ⟨-, rfl⟩ := Prod.mk.inj (Option.some.inj taken)
            have apart : ∀ reserved r, usable s name reserved r = true → r.isDedicated = false :=
              fun _ r hr => not_isDedicated_of_serves (usable_iff.1 hr).1
            exact (filter_drain (apart false) _ _).trans (filter_drain (apart true) _ _)
        · intro f hf
          rcases List.mem_append.1 hf with hf | hf
          · obtain ⟨-, c, -, hserves, hslice⟩ := (supply_of_takeScalar? taken).2 f hf
            rw [hslice]
            exact not_isDedicated_of_serves hserves
          · exact others f hf
      · exact ih _ p

end

/-! ## Requests for new volumes -/

/-- What was taken for a request for new volumes, and a log of it. -/
structure BestFit (s : Selector) (o : Offer Rat) (volumes : List (PersistentVolume Rat))
    (taken : VolumesTaken Rat) (log : CarvingLog) : Prop where
  carves : Carves s o.resources [] volumes log
  created : taken.created = served volumes log
  /-- The request fails if some volume does. -/
  reasons : taken.reasons = if none ∈ log then [.insufficientDisk] else []
  /-- Nothing but the parts of the log is gone. -/
  pool : taken.pool = poolAfter o.resources log
  mounts : ∀ i r, o.resources[i]? = some r → r.diskSource.type = .mount →
    partsFrom i log = [] ∨ partsFrom i log = [r.withValue (.scalar r.amount)]
  /-- Plain requirements leave paths and mounts as they are, and get no part of any. -/
  plain : ∀ (required : Requirements Rat) reasons,
    ((takeScalars s required reasons scalarNames taken.pool).2.2.filter
        fun c => c.resource.isDedicated) = (taken.pool.filter fun c => c.resource.isDedicated) ∧
      ∀ f ∈ (takeScalars s required reasons scalarNames taken.pool).1, f.isDedicated = false

/-- A match with new volumes has all of them, with the parts of the log. -/
theorem BestFit.match? {s : Selector} {o : Offer Rat} {volumes : List (PersistentVolume Rat)}
    {log : CarvingLog}
    (h : BestFit s o volumes (takeVolumes s (ofResources o.resources) (.create volumes)) log)
    {gpus : GpuPolicy} {runSpec : RunSpec Rat} {known : List Instance} {m : ResourceMatch Rat}
    (matched : match? gpus o runSpec known s (.create volumes) = .ok m) :
    none ∉ log ∧ m.newVolumes = served volumes log := by
  obtain ⟨taken, scalars, -, htaken, hscalars, -, -, created, met⟩ := match?_eq_ok matched
  rw [hscalars] at met
  have complete := reasons_of_takeScalars met
  rw [htaken, h.reasons] at complete
  refine ⟨fun failed => ?_, by rw [created, htaken, h.created]⟩
  rw [if_pos failed] at complete
  cases complete

/-- New volumes are carved by best fit, as long as none is so small that it is within the tolerance;
and a match has them as they were carved. -/
theorem bestFit_takeVolumes (s : Selector) (o : Offer Rat) (volumes : List (PersistentVolume Rat))
    (sizes : ∀ v ∈ volumes, Amount.tolerance < v.size) :
    ∃ log, BestFit s o volumes (takeVolumes s (ofResources o.resources) (.create volumes)) log ∧
      ∀ gpus runSpec known m, match? gpus o runSpec known s (.create volumes) = .ok m →
        none ∉ log ∧ m.newVolumes = served volumes log := by
  have undivided := undivided_ofResources o.resources
  rw [← poolAfter_nil] at undivided
  obtain ⟨log, carves, run⟩ := exists_carves (s := s) sizes undivided
  rw [poolAfter_nil, List.nil_append] at run
  have failed : log.all Option.isSome = true ↔ none ∉ log := by
    rw [List.all_eq_true]
    constructor
    · intro all there
      cases all none there
    · intro absent entry there
      exact Option.isSome_iff_ne_none.2 fun same => absent (same ▸ there)
  suffices fit : BestFit s o volumes (takeVolumes s (ofResources o.resources) (.create volumes)) log from
    ⟨log, fit, fun _ _ _ _ matched => fit.match? matched⟩
  refine ⟨carves, by simp [takeVolumes, run], ?_, by simp [takeVolumes, run], ?_, ?_⟩
  · by_cases there : none ∈ log
    · have missing : log.all Option.isSome = false := Bool.eq_false_iff.2 fun all => failed.1 all there
      simp [takeVolumes, run, there, missing]
    · have complete := failed.2 there
      simp [takeVolumes, run, there, complete]
  · exact fun i r there mount => carves.mount sizes there mount (leftBy_nil i r)
  · exact fun required reasons => dedicated_takeScalars scalarNames reasons _

end Matching

namespace Sample

/-- Three parts of the root disk, two mounts and a path. -/
def disksOffer : Offer Rat where
  id := ⟨.ofNat 8⟩
  agentId := ⟨.ofNat 2⟩
  hostname := "host"
  attributes := ∅
  resources := [.ofDisk 1000 .root, .ofDisk 200 .root, .ofDisk 50 .root, .ofDisk 500 (.mount "/a"),
    .ofDisk 300 (.mount "/b"), .ofDisk 40 (.path "/c")]

/-- The second volume fits what the first one leaves; the mounts serve two volumes, not three. -/
def disksVolumes : List (PersistentVolume Rat) :=
  [⟨"a", 100, .root⟩, ⟨"b", 90, .root⟩, ⟨"c", 10, .mount⟩, ⟨"d", 400, .mount⟩, ⟨"e", 10, .mount⟩,
    ⟨"f", 60, .path⟩, ⟨"g", 45, .root⟩]

end Sample

theorem Matching.bestFit_takeVolumes_sample :
    ((takeVolumes ⟨Roles.ofList ["*"], .unreserved⟩ (Pool.ofResources Sample.disksOffer.resources)
        (.create Sample.disksVolumes)).created.map fun x => (x.1.containerPath, x.2.amount)) =
        [("a", 100), ("b", 90), ("c", 300), ("d", 500), ("g", 45)] ∧
      (takeVolumes ⟨Roles.ofList ["*"], .unreserved⟩ (Pool.ofResources Sample.disksOffer.resources)
        (.create Sample.disksVolumes)).pool.map (·.remaining) = [1000, 10, 5, 0, 0, 40] ∧
      ∃ log, BestFit ⟨Roles.ofList ["*"], .unreserved⟩ Sample.disksOffer Sample.disksVolumes
        (takeVolumes ⟨Roles.ofList ["*"], .unreserved⟩ (Pool.ofResources Sample.disksOffer.resources)
          (.create Sample.disksVolumes)) log := by
  obtain ⟨log, fit, -⟩ := bestFit_takeVolumes ⟨Roles.ofList ["*"], .unreserved⟩ Sample.disksOffer
    Sample.disksVolumes (by decide +kernel)
  exact ⟨by decide +kernel, by decide +kernel, log, fit⟩

end Placement
