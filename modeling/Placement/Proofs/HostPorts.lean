/-
Host ports that are bound: they are different, free before, and offered.

`Pool.given` lists the ports that the chunks of a pool have given away, and `Pool.Gives` says that a
step gives away some more. Binding the requests of an instance is a row of such steps, and
`HostPorts.gives_assign?` puts them together: the bound ports are those that were given. The
resources made of them carry just these ports (`Pool.portsOf_consumedPorts`).
-/
import Placement.Proofs.Kind
import Placement.Proofs.PortRange
import Placement.Matching.HostPorts

namespace Placement

variable {α : Type}

namespace Pool

/-- The ports that have been given away. -/
def given (p : Pool α) : List Port := p.flatMap (·.takenPorts)

/-- Ports have been given away only by port resources that hold them. -/
def Offered (p : Pool α) : Prop :=
  ∀ c ∈ p, ∀ port ∈ c.takenPorts,
    c.resource.name = .ports ∧ PortRange.anyContains c.resource.portRanges port = true

theorem given_cons (c : Chunk α) (p : Pool α) : given (c :: p) = c.takenPorts ++ given p :=
  List.flatMap_cons

theorem isTaken_iff {p : Pool α} {port : Port} : p.isTaken port = true ↔ port ∈ p.given := by
  simp [isTaken, given]

/-- Ports are given away, different from one another and from those given before. -/
structure Gives (p : Pool α) (ports : List Port) (p' : Pool α) : Prop where
  resources : p'.map Chunk.resource = p.map Chunk.resource
  given : p'.given.Perm (ports ++ p.given)
  distinct : p.given.Nodup → p'.given.Nodup
  offered : p.Offered → p'.Offered

theorem Gives.refl (p : Pool α) : Gives p [] p := ⟨rfl, .refl _, id, id⟩

theorem Gives.trans {p q r : Pool α} {ps qs : List Port} (h : Gives p ps q) (h' : Gives q qs r) :
    Gives p (qs ++ ps) r := by
  refine ⟨h'.resources.trans h.resources, ?_, h'.distinct ∘ h.distinct, h'.offered ∘ h.offered⟩
  rw [List.append_assoc]
  exact h'.given.trans (h.given.append_left qs)

/-! ## One port -/

/-- A port is given away by the first chunk that serves and holds it. -/
theorem takePortFrom?_eq_some {serves : Resource α → Bool} {port : Port} {p p' : Pool α}
    (h : p.takePortFrom? serves port = some p') (named : ∀ r, serves r = true → r.name = .ports) :
    p'.map Chunk.resource = p.map Chunk.resource ∧ p'.given.Perm (port :: p.given) ∧
      (p.Offered → p'.Offered) := by
  induction p generalizing p' with
  | nil => cases h
  | cons c rest ih =>
    unfold takePortFrom? at h
    split at h
    · next holds =>
      obtain ⟨hserves, hport⟩ := Bool.and_eq_true_iff.1 holds
      obtain rfl := Option.some.inj h
      refine ⟨rfl, .refl _, ?_⟩
      intro offered c' hc'
      rcases List.mem_cons.1 hc' with rfl | hc'
      · intro q hq
        rcases List.mem_cons.1 hq with rfl | hq
        · exact ⟨named c.resource hserves, hport⟩
        · exact offered c List.mem_cons_self q hq
      · exact offered c' (List.mem_cons_of_mem c hc')
    · obtain ⟨rest', hrest, rfl⟩ := Option.map_eq_some_iff.1 h
      obtain ⟨resources, perm, offered⟩ := ih hrest
      refine ⟨congrArg (_ :: ·) resources, ?_, ?_⟩
      · rw [given_cons, given_cons]
        exact (perm.append_left _).trans List.perm_middle
      · intro before c' hc'
        rcases List.mem_cons.1 hc' with rfl | hc'
        · exact before c' List.mem_cons_self
        · exact offered (fun d hd => before d (List.mem_cons_of_mem c hd)) c' hc'

/-- Taking a port that nobody has gives it away. -/
theorem gives_takePort? {s : Selector} {port : Port} {p p' : Pool α}
    (h : p.takePort? s port = some p') (free : p.isTaken port = false) : Gives p [port] p' := by
  have named : ∀ reserved (r : Resource α), eligible s .ports reserved r = true →
      r.name = .ports := by
    intro reserved r hr
    simp only [eligible, Bool.and_eq_true, beq_iff_eq] at hr
    exact hr.1.1
  have step : p'.map Chunk.resource = p.map Chunk.resource ∧ p'.given.Perm (port :: p.given) ∧
      (p.Offered → p'.Offered) := by
    rcases Option.or_eq_some_iff.1 h with reserved | ⟨-, unreserved⟩
    · exact takePortFrom?_eq_some reserved (named true)
    · exact takePortFrom?_eq_some unreserved (named false)
  obtain ⟨resources, perm, offered⟩ := step
  refine ⟨resources, perm, ?_, offered⟩
  intro distinct
  have new : port ∉ p.given := fun hmem => by
    rw [isTaken_iff.2 hmem] at free
    cases free
  exact perm.nodup_iff.2 (List.nodup_cons.2 ⟨new, distinct⟩)

end Pool

namespace HostPorts

open Pool

/-! ## All requests of an instance -/

/-- The ports that are asked for by number. -/
def fixedPorts (requests : List HostPort) : List Port :=
  requests.filterMap fun
    | .fixed port => some port
    | _ => none

theorem gives_takeFree? {s : Selector} {excluded : List Port} {port : Port} {p p' : Pool α}
    (h : takeFree? s excluded port p = some p') : Gives p [port] p' := by
  unfold takeFree? at h
  split at h
  · next free =>
    simp only [isFree, Bool.and_eq_true, Bool.not_eq_true'] at free
    exact gives_takePort? h free.2
  · cases h

theorem gives_takeFixed? {s : Selector} {excluded : List Port} {requests : List HostPort}
    {p p' : Pool α} (h : takeFixed? s excluded requests p = some p') :
    ∃ ports, Gives p ports p' ∧ ports.Perm (fixedPorts requests) := by
  induction requests generalizing p with
  | nil =>
    obtain rfl := Option.some.inj h
    exact ⟨[], .refl p, .refl _⟩
  | cons request rest ih =>
    cases request with
    | fixed port =>
      obtain ⟨mid, taken, more⟩ := Option.bind_eq_some_iff.1 h
      obtain ⟨ports, gives, perm⟩ := ih more
      refine ⟨ports ++ [port], (gives_takeFree? taken).trans gives, ?_⟩
      exact List.perm_append_comm.trans (perm.cons port)
    | dynamic => exact ih h
    | none => exact ih h

/-- The bound ports are those asked for by number and those that were taken for the others, one for each
of these. -/
theorem gives_bind? {s : Selector} {excluded : List Port} {requests : List HostPort}
    {p p' : Pool α} {hosts : List (Option Port)}
    (h : bind? s excluded requests p = some (hosts, p')) :
    ∃ ports, Gives p ports p' ∧ (hosts.filterMap id).Perm (ports ++ fixedPorts requests) ∧
      ports.length = requests.count .dynamic := by
  induction requests generalizing p hosts with
  | nil =>
    obtain ⟨rfl, rfl⟩ := Prod.mk.inj (Option.some.inj h)
    exact ⟨[], .refl _, .refl _, rfl⟩
  | cons request rest ih =>
    cases request with
    | fixed port =>
      obtain ⟨⟨more, p''⟩, hrest, heq⟩ := Option.map_eq_some_iff.1 h
      obtain ⟨rfl, rfl⟩ := Prod.mk.inj heq
      obtain ⟨ports, gives, perm, count⟩ := ih hrest
      refine ⟨ports, gives, (perm.cons port).trans List.perm_middle.symm, ?_⟩
      rw [count, List.count_cons_of_ne (by simp)]
    | none =>
      obtain ⟨⟨more, p''⟩, hrest, heq⟩ := Option.map_eq_some_iff.1 h
      obtain ⟨rfl, rfl⟩ := Prod.mk.inj heq
      obtain ⟨ports, gives, perm, count⟩ := ih hrest
      refine ⟨ports, gives, perm, ?_⟩
      rw [count, List.count_cons_of_ne (by simp)]
    | dynamic =>
      obtain ⟨port, found, h⟩ := Option.bind_eq_some_iff.1 h
      obtain ⟨mid, taken, h⟩ := Option.bind_eq_some_iff.1 h
      obtain ⟨⟨more, p''⟩, hrest, h⟩ := Option.bind_eq_some_iff.1 h
      obtain ⟨rfl, rfl⟩ := Prod.mk.inj (Option.some.inj h)
      have free : isFree excluded p port = true := List.find?_some found
      simp only [isFree, Bool.and_eq_true, Bool.not_eq_true'] at free
      obtain ⟨ports, gives, perm, count⟩ := ih hrest
      refine ⟨ports ++ [port], (gives_takePort? taken free.2).trans gives, ?_, ?_⟩
      · rw [List.append_assoc]
        exact (perm.cons port).trans List.perm_middle.symm
      · rw [List.length_append, count, List.count_cons_self]
        rfl

/-- The ports that an instance is bound to are those that were given away for it. -/
theorem gives_assign? {s : Selector} {excluded : List Port} {requests : List HostPort}
    {p p' : Pool α} {hosts : List (Option Port)}
    (h : assign? s excluded requests p = some (hosts, p')) : Gives p (hosts.filterMap id) p' := by
  obtain ⟨mid, fixed, bound⟩ := Option.bind_eq_some_iff.1 h
  obtain ⟨first, gives, perm⟩ := gives_takeFixed? fixed
  obtain ⟨others, gives', perm', -⟩ := gives_bind? bound
  have both := gives.trans gives'
  have same : (others ++ first).Perm (hosts.filterMap id) :=
    (perm.append_left others).trans perm'.symm
  exact ⟨both.resources, both.given.trans (same.append_right _), both.distinct, both.offered⟩

/-! ## Invariants of binding -/

section

variable {s : Selector} {excluded : List Port} {P : Pool α → Prop}
  {requests : List HostPort} {p p' : Pool α} {hosts : List (Option Port)}

theorem preserved_takeFixed?
    (step : ∀ port p p', isFree excluded p port = true → p.takePort? s port = some p' → P p → P p')
    (h : takeFixed? s excluded requests p = some p') (before : P p) : P p' := by
  induction requests generalizing p with
  | nil =>
    obtain rfl := Option.some.inj h
    exact before
  | cons request rest ih =>
    cases request with
    | fixed port =>
      obtain ⟨mid, taken, more⟩ := Option.bind_eq_some_iff.1 h
      unfold takeFree? at taken
      split at taken
      · next free => exact ih more (step port p mid free taken before)
      · cases taken
    | dynamic => exact ih h before
    | none => exact ih h before

theorem preserved_bind?
    (step : ∀ port p p', isFree excluded p port = true → p.takePort? s port = some p' → P p → P p')
    (h : bind? s excluded requests p = some (hosts, p')) (before : P p) : P p' := by
  induction requests generalizing p hosts with
  | nil =>
    obtain ⟨-, rfl⟩ := Prod.mk.inj (Option.some.inj h)
    exact before
  | cons request rest ih =>
    cases request with
    | fixed port =>
      obtain ⟨⟨more, p''⟩, hrest, heq⟩ := Option.map_eq_some_iff.1 h
      obtain ⟨-, rfl⟩ := Prod.mk.inj heq
      exact ih hrest before
    | none =>
      obtain ⟨⟨more, p''⟩, hrest, heq⟩ := Option.map_eq_some_iff.1 h
      obtain ⟨-, rfl⟩ := Prod.mk.inj heq
      exact ih hrest before
    | dynamic =>
      obtain ⟨port, found, h⟩ := Option.bind_eq_some_iff.1 h
      obtain ⟨mid, taken, h⟩ := Option.bind_eq_some_iff.1 h
      obtain ⟨⟨more, p''⟩, hrest, heq⟩ := Option.bind_eq_some_iff.1 h
      obtain ⟨-, rfl⟩ := Prod.mk.inj (Option.some.inj heq)
      have free : isFree excluded p port = true :=
        List.find?_some (p := isFree excluded p) found
      exact ih hrest (step port p mid free taken before)

/-- What no taking of a free port destroys holds of the pool after all ports have been bound. -/
theorem preserved_assign?
    (step : ∀ port p p', isFree excluded p port = true → p.takePort? s port = some p' → P p → P p')
    (h : assign? s excluded requests p = some (hosts, p')) (before : P p) : P p' := by
  obtain ⟨mid, first, others⟩ := Option.bind_eq_some_iff.1 h
  exact preserved_bind? step others (preserved_takeFixed? step first before)

end

end HostPorts

namespace Pool

/-! ## Resources of the ports that were given away -/

theorem mem_consumedPorts {p : Pool α} {u : Resource α} : u ∈ p.consumedPorts ↔
    ∃ c ∈ p, c.takenPorts ≠ [] ∧
      u = c.resource.withValue (.ranges (PortRange.ofPorts c.takenPorts)) := by
  simp only [consumedPorts, List.mem_map, List.mem_filter, Bool.not_eq_true', List.isEmpty_eq_false_iff]
  constructor
  · rintro ⟨c, ⟨hc, hports⟩, rfl⟩
    exact ⟨c, hc, hports, rfl⟩
  · rintro ⟨c, hc, hports, rfl⟩
    exact ⟨c, ⟨hc, hports⟩, rfl⟩

/-- Once each, the ports that were given away are those of the resources made of them. -/
theorem portsOf_consumedPorts {p : Pool α} (distinct : p.given.Nodup) :
    (Resource.portsOf p.consumedPorts).Perm p.given := by
  induction p with
  | nil => exact .refl _
  | cons c rest ih =>
    rw [given_cons, List.nodup_append] at distinct
    obtain ⟨here, others, -⟩ := distinct
    have same : (PortRange.allPorts (PortRange.ofPorts c.takenPorts)).Perm c.takenPorts := by
      rw [PortRange.allPorts_ofPorts]
      exact (List.perm_ext_iff_of_nodup (PortRange.nodup_distinct _) here).2
        fun _ => PortRange.mem_distinct
    have rest_perm := ih others
    rw [given_cons]
    unfold consumedPorts Resource.portsOf at rest_perm ⊢
    rw [List.filter_cons]
    split
    · exact same.append rest_perm
    · next none_given =>
      have empty : c.takenPorts = [] := by simpa using none_given
      rw [empty]
      exact rest_perm

/-- A resource made of ports that were given away is of the kind of a port resource that holds
them. -/
theorem offered_consumedPorts {p : Pool α} (offered : p.Offered) {u : Resource α}
    (hu : u ∈ p.consumedPorts) {port : Port} (hport : port ∈ PortRange.allPorts u.portRanges) :
    ∃ r ∈ p.map Chunk.resource, r.name = .ports ∧ u.sameKind r = true ∧
      port ∈ PortRange.allPorts r.portRanges := by
  obtain ⟨c, hc, -, rfl⟩ := mem_consumedPorts.1 hu
  rw [Resource.portRanges_withRanges, PortRange.mem_allPorts_ofPorts] at hport
  obtain ⟨hname, holds⟩ := offered c hc port hport
  exact ⟨c.resource, List.mem_map.2 ⟨c, hc, rfl⟩, hname, Resource.sameKind_self _,
    PortRange.mem_allPorts.2 holds⟩

/-- Such a resource has no amount and is no disk. -/
theorem plain_consumedPorts [Amount α] {p : Pool α} (offered : p.Offered) {u : Resource α}
    (hu : u ∈ p.consumedPorts) : u.amount = 0 ∧ u.Bare := by
  obtain ⟨c, hc, hports, rfl⟩ := mem_consumedPorts.1 hu
  obtain ⟨port, hport⟩ := List.exists_mem_of_ne_nil _ hports
  have hname := (offered c hc port hport).1
  refine ⟨rfl, ?_⟩
  intro hdisk
  have hdisk : c.resource.name = .disk := hdisk
  rw [hname] at hdisk
  cases hdisk

end Pool

end Placement
