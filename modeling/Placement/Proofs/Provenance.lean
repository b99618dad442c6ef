/-
Where the parts of a match come from, for amounts of any type.

`Resource.Pieces` says that parts are of kinds that a list of resources has, of those of its resources
that pass a test, and `Resource.Portless` that they hold no ports. Every way to take something from a
pool has one lemma, as has handing out portions (`Portion.pieces_take`, `Portion.pieces_ports`). Put
together:

* `Matching.fit_match?`: the parts of a match are pieces of resources that the selector accepts and
  that keep no volume, or disks of the volumes that were asked for.
* `Decision.pieces_made`: a new instance consumes pieces of its match and nothing else.
-/
import Placement.Proofs.Matching
import Placement.Proofs.Reached

namespace Placement

variable {α : Type}

/-! ## Pieces of resources -/

namespace Resource

/-- Each part is of the kind of one of the resources that pass a test. -/
def Pieces (rs : List (Resource α)) (test : Resource α → Prop) (fs : List (Resource α)) : Prop :=
  ∀ f ∈ fs, ∃ r ∈ rs, test r ∧ f.sameKind r = true

variable {rs fs gs : List (Resource α)} {test test' : Resource α → Prop}

theorem pieces_nil (rs : List (Resource α)) (test : Resource α → Prop) : Pieces rs test [] := by
  simp [Pieces]

theorem pieces_cons {f : Resource α} : Pieces rs test (f :: fs) ↔
    (∃ r ∈ rs, test r ∧ f.sameKind r = true) ∧ Pieces rs test fs := List.forall_mem_cons

theorem Pieces.append (h : Pieces rs test fs) (h' : Pieces rs test gs) :
    Pieces rs test (fs ++ gs) :=
  fun f hf => (List.mem_append.1 hf).elim (h f) (h' f)

theorem Pieces.mono (h : Pieces rs test fs) (weaker : ∀ r, test r → test' r) :
    Pieces rs test' fs := by
  intro f hf
  obtain ⟨r, hr, passes, kind⟩ := h f hf
  exact ⟨r, hr, weaker r passes, kind⟩

/-- Pieces of pieces are pieces. -/
theorem Pieces.trans (h : Pieces rs test fs) (h' : Pieces fs test' gs) : Pieces rs test gs := by
  intro g hg
  obtain ⟨f, hf, -, kind⟩ := h' g hg
  obtain ⟨r, hr, passes, kind'⟩ := h f hf
  exact ⟨r, hr, passes, (sameKind_congr kind r).trans kind'⟩

/-- More resources have these pieces too. -/
theorem Pieces.cons (h : Pieces rs test fs) (r : Resource α) : Pieces (r :: rs) test fs := by
  intro f hf
  obtain ⟨s, hs, passes, kind⟩ := h f hf
  exact ⟨s, List.mem_cons_of_mem r hs, passes, kind⟩

theorem pieces_self (rs : List (Resource α)) : Pieces rs (fun _ => True) rs :=
  fun r hr => ⟨r, hr, trivial, sameKind_self r⟩

/-- None of these parts holds a port. -/
def Portless (fs : List (Resource α)) : Prop := ∀ f ∈ fs, f.portRanges = []

theorem portless_nil : Portless ([] : List (Resource α)) := by
  simp [Portless]

/-- A part with an amount holds no ports. -/
theorem Portless.withScalar (h : Portless fs) (r : Resource α) (a : α) :
    Portless (r.withValue (.scalar a) :: fs) := List.forall_mem_cons.2 ⟨rfl, h⟩

theorem Portless.append (h : Portless fs) (h' : Portless gs) : Portless (fs ++ gs) :=
  fun f hf => (List.mem_append.1 hf).elim (h f) (h' f)

end Resource

open Resource

variable [Amount α]

/-! ## Taking from a pool -/

namespace Pool

variable {s : Selector} {p p' : Pool α}

/-- The resources that scalars and new volumes may be taken from. -/
def Plain (s : Selector) (r : Resource α) : Prop := s.accepts r = true ∧ r.Bare

omit [Amount α] in
theorem accepts_of_eligible {name : ResourceName} {reserved : Bool} {r : Resource α}
    (h : eligible s name reserved r = true) : r.name = name ∧ s.accepts r = true := by
  simp only [eligible, Bool.and_eq_true, beq_iff_eq] at h
  exact h.1

theorem pieces_drain (serves : Resource α → Bool) (missing : α) (p : Pool α) :
    (p.drain serves missing).2.2.frame = p.frame ∧
      Pieces (p.map Chunk.resource) (serves · = true) (p.drain serves missing).2.1 ∧
      Portless (p.drain serves missing).2.1 := by
  induction p generalizing missing with
  | nil => exact ⟨rfl, pieces_nil _ _, portless_nil⟩
  | cons c rest ih =>
    unfold drain
    split
    · exact ⟨rfl, pieces_nil _ _, portless_nil⟩
    · simp only
      split
      · next holds =>
        obtain ⟨frame, pieces, portless⟩ := ih (missing - Amount.least c.remaining missing)
        refine ⟨congrArg (_ :: ·) frame, pieces_cons.2 ⟨?_, pieces.cons c.resource⟩,
          portless.withScalar c.resource _⟩
        exact ⟨c.resource, List.mem_cons_self, (Bool.and_eq_true_iff.1 holds).1, sameKind_self _⟩
      · obtain ⟨frame, pieces, portless⟩ := ih missing
        exact ⟨congrArg (_ :: ·) frame, pieces.cons c.resource, portless⟩

theorem pieces_takeScalar? {name : ResourceName} {amount : α} {fs : List (Resource α)}
    (h : p.takeScalar? s name amount = some (fs, p')) :
    p'.frame = p.frame ∧ Pieces (p.map Chunk.resource) (Plain s) fs ∧ Portless fs := by
  unfold takeScalar? at h
  simp only at h
  split at h
  · cases h
  · obtain ⟨rfl, rfl⟩ := Prod.mk.inj (Option.some.inj h)
    obtain ⟨frame, first, portless⟩ :=
      pieces_drain (fun r => eligible s name true r && servesScalar r) amount p
    obtain ⟨frame', second, portless'⟩ := pieces_drain
      (fun r => eligible s name false r && servesScalar r)
      (p.drain (fun r => eligible s name true r && servesScalar r) amount).1
      (p.drain (fun r => eligible s name true r && servesScalar r) amount).2.2
    have plain : ∀ reserved (r : Resource α), (eligible s name reserved r && servesScalar r) = true →
        Plain s r := by
      intro reserved r serves
      obtain ⟨eligible, scalar⟩ := Bool.and_eq_true_iff.1 serves
      exact ⟨(accepts_of_eligible eligible).2, bare_of_servesScalar scalar⟩
    rw [resources_of_frame frame] at second
    exact ⟨frame'.trans frame, (first.mono (plain true)).append (second.mono (plain false)),
      portless.append portless'⟩

theorem pieces_takeFirst? {test : Chunk α → Bool} {part : Chunk α → α} {f : Resource α}
    (h : p.takeFirst? test part = some (f, p')) :
    p'.frame = p.frame ∧ ∃ c ∈ p, test c = true ∧ f = c.resource.withValue (.scalar (part c)) := by
  obtain ⟨before, c, after, rfl, passes, rfl, rfl⟩ := takeFirst?_eq_some h
  exact ⟨by simp [Pool.frame], c, by simp, passes, rfl⟩

theorem pieces_takeVolumes (s : Selector) (vs : List (PersistentVolume α)) (p : Pool α) :
    (p.takeVolumes s vs).2.2.frame = p.frame ∧
      Pieces (p.map Chunk.resource) (Plain s) ((p.takeVolumes s vs).1.map (·.2)) ∧
      Portless ((p.takeVolumes s vs).1.map (·.2)) := by
  induction vs generalizing p with
  | nil => exact ⟨rfl, pieces_nil _ _, portless_nil⟩
  | cons v rest ih =>
    unfold takeVolumes
    split
    · next f p' taken =>
      obtain ⟨best, -, first⟩ := Option.bind_eq_some_iff.1 taken
      obtain ⟨frame, c, hc, passes, rfl⟩ := pieces_takeFirst? first
      obtain ⟨frame', more, portless⟩ := ih p'
      rw [resources_of_frame frame] at more
      have fits : fitsVolume s v c = true := (Bool.and_eq_true_iff.1 passes).1
      simp only [fitsVolume, Bool.and_eq_true, Option.isNone_iff_eq_none] at fits
      obtain ⟨⟨⟨⟨eligible, empty⟩, -⟩, -⟩, -⟩ := fits
      have plain : Plain s c.resource := ⟨(accepts_of_eligible eligible).2, fun _ => empty⟩
      exact ⟨frame'.trans frame, pieces_cons.2 ⟨⟨c.resource, List.mem_map.2 ⟨c, hc, rfl⟩, plain,
        sameKind_self c.resource⟩, more⟩, portless.withScalar c.resource _⟩
    · exact ih p

/-- Disks of existing volumes are taken as they are; no selector is asked. -/
theorem mem_takeExisting? {ids : List VolumeId} {rs : List (Resource α)}
    (h : p.takeExisting? ids = some (rs, p')) :
    p'.frame = p.frame ∧
      ∀ r ∈ rs, r ∈ p.map Chunk.resource ∧ ∃ v ∈ ids, r.carriesVolume v = true := by
  obtain ⟨rs', found, heq⟩ := Option.map_eq_some_iff.1 h
  obtain ⟨rfl, rfl⟩ := Prod.mk.inj heq
  refine ⟨frame_emptyVolumes ids p, ?_⟩
  intro r hr
  rw [← filterMap_of_mapM found] at hr
  obtain ⟨v, hv, hfound⟩ := List.mem_filterMap.1 hr
  obtain ⟨carries, c, hc, rfl, -⟩ := resourceOfVolume?_eq_some hfound
  exact ⟨List.mem_map.2 ⟨c, hc, rfl⟩, v, hv, carries⟩

/-! ## Ports -/

/-- Only port resources that the selector accepts have given ports away. -/
def Granted (s : Selector) (p : Pool α) : Prop :=
  ∀ c ∈ p, c.takenPorts ≠ [] → c.resource.name = .ports ∧ s.accepts c.resource = true

omit [Amount α] in
theorem granted_takePortFrom? {reserved : Bool} {port : Port}
    (h : p.takePortFrom? (eligible s .ports reserved) port = some p') (before : Granted s p) :
    Granted s p' := by
  induction p generalizing p' with
  | nil => cases h
  | cons c rest ih =>
    have later : Granted s rest := fun d hd => before d (List.mem_cons_of_mem c hd)
    unfold takePortFrom? at h
    split at h
    · next holds =>
      obtain rfl := Option.some.inj h
      intro d hd given
      rcases List.mem_cons.1 hd with rfl | hd
      · exact accepts_of_eligible (Bool.and_eq_true_iff.1 holds).1
      · exact later d hd given
    · obtain ⟨rest', hrest, rfl⟩ := Option.map_eq_some_iff.1 h
      intro d hd given
      rcases List.mem_cons.1 hd with rfl | hd
      · exact before d List.mem_cons_self given
      · exact ih hrest later d hd given

omit [Amount α] in
theorem granted_takePort? {port : Port} (h : p.takePort? s port = some p') (before : Granted s p) :
    Granted s p' := by
  rcases Option.or_eq_some_iff.1 h with reserved | ⟨-, unreserved⟩
  · exact granted_takePortFrom? reserved before
  · exact granted_takePortFrom? unreserved before

omit [Amount α] in
theorem pieces_consumedPorts (granted : Granted s p) :
    Pieces (p.map Chunk.resource) (Plain s) p.consumedPorts := by
  intro u hu
  obtain ⟨c, hc, given, rfl⟩ := mem_consumedPorts.1 hu
  obtain ⟨named, accepted⟩ := granted c hc given
  refine ⟨c.resource, List.mem_map.2 ⟨c, hc, rfl⟩, ⟨accepted, ?_⟩, sameKind_self c.resource⟩
  intro disk
  cases named.symm.trans disk

end Pool

/-! ## Matches -/

namespace Matching

variable {s : Selector} {o : Offer α}

theorem pieces_takeScalars (s : Selector) (required : Requirements α) (names : List ResourceName)
    (reasons : List MismatchReason) (p : Pool α) :
    (takeScalars s required reasons names p).2.2.frame = p.frame ∧
      Pieces (p.map Chunk.resource) (Pool.Plain s) (takeScalars s required reasons names p).1 ∧
      Portless (takeScalars s required reasons names p).1 := by
  induction names generalizing reasons p with
  | nil => exact ⟨rfl, pieces_nil _ _, portless_nil⟩
  | cons name rest ih =>
    unfold takeScalars
    split
    · exact ih reasons p
    · split
      · next parts p' taken =>
        obtain ⟨frame, first, portless⟩ := Pool.pieces_takeScalar? taken
        obtain ⟨frame', more, portless'⟩ := ih reasons p'
        rw [Pool.resources_of_frame frame] at more
        exact ⟨frame'.trans frame, first.append more, portless.append portless'⟩
      · exact ih _ p

/-- A part that a match with the request may use: a piece of a resource that is accepted and keeps no
volume, or an offered disk with a volume that is asked for. -/
def Fit (s : Selector) (o : Offer α) (request : VolumeRequest α) (u : Resource α) : Prop :=
  (s.accepts u = true ∧ u.Bare) ∨
    ∃ ids, request = .existing ids ∧ u ∈ o.resources ∧ ∃ v ∈ ids, u.carriesVolume v = true

omit [Amount α] in
theorem accepts_congr {u r : Resource α} (h : u.sameKind r = true) : s.accepts u = s.accepts r := by
  obtain ⟨-, role, reservation, -⟩ := sameKind_iff.1 h
  simp only [Selector.accepts, Selector.labelled, isReserved, reservationLabels, role, reservation]

omit [Amount α] in
theorem fit_of_pieces {request : VolumeRequest α} {fs : List (Resource α)}
    (h : Pieces o.resources (Pool.Plain s) fs) : ∀ u ∈ fs, Fit s o request u := by
  intro u hu
  obtain ⟨r, -, ⟨accepted, bare⟩, kind⟩ := h u hu
  exact .inl ⟨(accepts_congr kind).trans accepted, bare_congr kind bare⟩

/-- Taking volumes leaves the resources of the pool, and takes what fits. -/
theorem fit_takeVolumes (s : Selector) (o : Offer α) (request : VolumeRequest α) :
    (takeVolumes s (Pool.ofResources o.resources) request).pool.frame =
        (Pool.ofResources o.resources).frame ∧
      ∀ u ∈ (takeVolumes s (Pool.ofResources o.resources) request).existing ++
          (takeVolumes s (Pool.ofResources o.resources) request).created.map (·.2),
        Fit s o request u := by
  have all := Pool.resources_ofResources o.resources
  unfold takeVolumes
  split
  · exact ⟨rfl, by simp⟩
  · next volumes =>
    obtain ⟨frame, pieces, -⟩ := Pool.pieces_takeVolumes s volumes (Pool.ofResources o.resources)
    rw [all] at pieces
    exact ⟨frame, fit_of_pieces pieces⟩
  · next ids =>
    split
    · next rs p found =>
      obtain ⟨frame, held⟩ := Pool.mem_takeExisting? found
      rw [all] at held
      refine ⟨frame, ?_⟩
      intro u hu
      rw [List.map_nil, List.append_nil] at hu
      obtain ⟨offered, carries⟩ := held u hu
      exact .inr ⟨ids, rfl, offered, carries⟩
    · exact ⟨rfl, by simp⟩

/-- Taking volumes and amounts changes no port of the pool. -/
theorem frame_takeScalars (s : Selector) (o : Offer α) (request : VolumeRequest α)
    (required : Requirements α) :
    (takeScalars s required (takeVolumes s (Pool.ofResources o.resources) request).reasons scalarNames
      (takeVolumes s (Pool.ofResources o.resources) request).pool).2.2.frame =
        (Pool.ofResources o.resources).frame :=
  (pieces_takeScalars s required scalarNames _ _).1.trans (fit_takeVolumes s o request).1

/-- All parts of a match fit. -/
theorem fit_match? {gpus : GpuPolicy} {runSpec : RunSpec α} {known : List Instance}
    {request : VolumeRequest α} {m : ResourceMatch α}
    (h : match? gpus o runSpec known s request = .ok m) : ∀ u ∈ m.resources, Fit s o request u := by
  obtain ⟨volumes, scalars, pool, rfl, rfl, assigned, resources, -, -⟩ := match?_eq_ok h
  obtain ⟨frame, carved⟩ := fit_takeVolumes s o request
  obtain ⟨-, paid, -⟩ := pieces_takeScalars s runSpec.totalResources scalarNames
    (takeVolumes s (Pool.ofResources o.resources) request).reasons
    (takeVolumes s (Pool.ofResources o.resources) request).pool
  rw [Pool.resources_of_frame frame, Pool.resources_ofResources] at paid
  have kept := frame_takeScalars s o request runSpec.totalResources
  have none_given := Pool.takenPorts_of_frame kept
  have granted : Pool.Granted s pool := by
    refine HostPorts.preserved_assign? (P := Pool.Granted s) ?_ assigned ?_
    · intro port p p' _ taken
      exact Pool.granted_takePort? taken
    · intro c hc given
      exact absurd (none_given c hc) given
  have bound := Pool.pieces_consumedPorts granted
  rw [(HostPorts.gives_assign? assigned).resources, Pool.resources_of_frame kept,
    Pool.resources_ofResources] at bound
  intro u hu
  rw [resources, List.mem_append, List.mem_append, List.mem_append] at hu
  rcases hu with ((hu | hu) | hu) | hu
  · exact carved u (List.mem_append_left _ hu)
  · exact fit_of_pieces paid u hu
  · exact carved u (List.mem_append_right _ hu)
  · exact fit_of_pieces bound u hu

end Matching

/-! ## Portions -/

namespace Portion

/-- What is handed out of a scalar, and what is left, are pieces of the parts. -/
theorem pieces_takeScalar (name : ResourceName) (missing : α) (parts : List (Resource α)) :
    Pieces parts (fun _ => True) (takeScalar name missing parts).1 ∧
      Pieces parts (fun _ => True) (takeScalar name missing parts).2 := by
  induction parts generalizing missing with
  | nil => exact ⟨pieces_nil _ _, pieces_nil _ _⟩
  | cons r rest ih =>
    have first : ∀ f : Resource α, f.sameKind r = true →
        ∃ s ∈ r :: rest, True ∧ f.sameKind s = true :=
      fun f kind => ⟨r, List.mem_cons_self, trivial, kind⟩
    unfold takeScalar
    split
    · exact ⟨pieces_nil _ _, pieces_self _⟩
    · split
      · next amount _ _ =>
        simp only
        split
        · obtain ⟨taken, left⟩ := ih missing
          exact ⟨taken.cons r, pieces_cons.2 ⟨first r (sameKind_self r), left.cons r⟩⟩
        · obtain ⟨taken, left⟩ := ih (missing - Amount.least amount missing)
          exact ⟨pieces_cons.2 ⟨first _ (sameKind_self r), taken.cons r⟩,
            pieces_cons.2 ⟨first _ (sameKind_self r), left.cons r⟩⟩
      · obtain ⟨taken, left⟩ := ih missing
        exact ⟨taken.cons r, pieces_cons.2 ⟨first r (sameKind_self r), left.cons r⟩⟩

theorem pieces_takeScalars (required : Requirements α) (names : List ResourceName)
    (parts : List (Resource α)) :
    Pieces parts (fun _ => True) (takeScalars required names parts).1 ∧
      Pieces parts (fun _ => True) (takeScalars required names parts).2 := by
  induction names generalizing parts with
  | nil => exact ⟨pieces_nil _ _, pieces_self _⟩
  | cons name rest ih =>
    obtain ⟨taken, left⟩ := pieces_takeScalar name (required.of name) parts
    obtain ⟨more, left'⟩ := ih (takeScalar name (required.of name) parts).2
    exact ⟨taken.append (left.trans more), left.trans left'⟩

theorem pieces_take (required : Requirements α) (parts : List (Resource α)) :
    Pieces parts (fun _ => True) (take required parts).1 ∧
      Pieces parts (fun _ => True) (take required parts).2 :=
  pieces_takeScalars required _ parts

omit [Amount α] in
theorem pieces_ports (hostPorts : List (Option Port)) (parts : List (Resource α)) :
    Pieces parts (fun _ => True) (ports hostPorts parts) := by
  intro u hu
  obtain ⟨port, -, heq⟩ := List.mem_filterMap.1 hu
  obtain ⟨r, found, rfl⟩ := Option.map_eq_some_iff.1 heq
  exact ⟨r, List.mem_of_find?_eq_some found, trivial, sameKind_self r⟩

end Portion

/-! ## New instances -/

namespace Decision

variable {runSpec : RunSpec α} {o : Offer α} {now : Timestamp} {instanceId : InstanceId}

/-- The members of a group are handed pieces of the parts. -/
theorem pieces_groupMembers {containers : List (ContainerSpec α)} {hostPorts : List (Option Port)}
    {parts : List (Resource α)} {infos : List (TaskInfo α)} {ops : List StateOp}
    (h : groupMembers runSpec o instanceId now containers hostPorts parts = .ok (infos, ops)) :
    Pieces parts (fun _ => True) (infos.flatMap (·.resources)) := by
  induction containers generalizing hostPorts parts infos ops with
  | nil =>
    obtain ⟨rfl, rfl⟩ := Prod.mk.inj (Except.ok.inj h)
    exact pieces_nil _ _
  | cons c rest ih =>
    obtain ⟨-, infos', ops', -, others, rfl, rfl⟩ := groupMembers_cons_eq_ok h
    obtain ⟨taken, left⟩ := Portion.pieces_take c.resources parts
    have bound := Portion.pieces_ports (hostPorts.take c.endpoints.length)
      (Portion.take c.resources parts).2
    exact (taken.append (left.trans bound)).append (left.trans (ih others))

/-- A new instance consumes pieces of its match. -/
theorem pieces_made {m : ResourceMatch α} {op : InstanceOp α}
    (made : (if runSpec.isPod then launchGroup runSpec o m instanceId now
      else launchTask runSpec o m instanceId now) = .ok op) :
    Pieces m.resources (fun _ => True) op.consumed := by
  split at made
  · obtain ⟨infos, ops, members, rfl⟩ := launchGroup_eq_ok made
    obtain ⟨executor, left⟩ := Portion.pieces_take Requirements.executor m.resources
    exact executor.append (left.trans (pieces_groupMembers members))
  · obtain rfl := InstanceOp.ofTask_eq_ok made
    exact pieces_self m.resources

end Decision

end Placement
