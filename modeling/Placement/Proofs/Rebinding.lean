/-
Host ports that are bound again.

Requests that were met hold as many ports as they ask for, the fixed ones among them
(`HostPorts.held_assign?`). Where the reserved resources of a pool hold ports that suffice in this way
and none of them is excluded, the requests are met from those resources alone
(`HostPorts.assign?_of_holds`): every dynamic request still finds a free port among them, and they are
looked at before all others.
-/
import Placement.Proofs.HostPorts

namespace Placement

variable {α : Type}

namespace Pool

/-! ## Ports of reserved resources -/

/-- The ports that serve are those of the resources that serve. -/
theorem portsOf_eq (serves : Resource α → Bool) (p : Pool α) :
    p.portsOf serves = Resource.portsOf ((p.map Chunk.resource).filter serves) := by
  rw [List.filter_map, Resource.portsOf, List.flatMap_map]
  rfl

/-- The reserved resources of the pool hold the ports `held`. What has been given away are ports among
these, and these resources gave them. -/
structure Holds (s : Selector) (held : List Port) (p : Pool α) : Prop where
  offered : ∀ port, port ∈ p.portsOf (eligible s .ports true) ↔ port ∈ held
  given : ∀ port ∈ p.given, port ∈ held
  reserved : ∀ c ∈ p, c.takenPorts ≠ [] → eligible s .ports true c.resource = true

/-- A port that serves is given away by a chunk that serves. -/
theorem exists_takePortFrom? {serves : Resource α → Bool} {port : Port} {p : Pool α}
    (h : port ∈ p.portsOf serves) :
    ∃ p', p.takePortFrom? serves port = some p' ∧
      ∀ c' ∈ p', serves c'.resource = true ∨ c' ∈ p := by
  induction p with
  | nil => simp [portsOf] at h
  | cons c rest ih =>
    unfold takePortFrom?
    split
    · next holds =>
      refine ⟨_, rfl, ?_⟩
      intro c' hc'
      rcases List.mem_cons.1 hc' with rfl | hc'
      · exact .inl (Bool.and_eq_true_iff.1 holds).1
      · exact .inr (List.mem_cons_of_mem c hc')
    · next passes =>
      have later : port ∈ portsOf serves rest := by
        unfold portsOf at h ⊢
        obtain ⟨c', hc', hport⟩ := List.mem_flatMap.1 h
        obtain ⟨hmem, hserves⟩ := List.mem_filter.1 hc'
        rcases List.mem_cons.1 hmem with rfl | hmem
        · exact absurd (Bool.and_eq_true_iff.2 ⟨hserves, PortRange.mem_allPorts.1 hport⟩) passes
        · exact List.mem_flatMap.2 ⟨c', List.mem_filter.2 ⟨hmem, hserves⟩, hport⟩
      obtain ⟨rest', taken, from_⟩ := ih later
      refine ⟨c :: rest', by rw [taken]; rfl, ?_⟩
      intro c' hc'
      rcases List.mem_cons.1 hc' with rfl | hc'
      · exact .inr List.mem_cons_self
      · exact (from_ c' hc').imp_right (List.mem_cons_of_mem c)

variable {s : Selector} {held : List Port} {p : Pool α}

/-- A port that is held and free is taken from a reserved resource. -/
theorem Holds.takePort? (h : Holds s held p) {port : Port} (hport : port ∈ held)
    (free : p.isTaken port = false) :
    ∃ p', p.takePort? s port = some p' ∧ Holds s held p' ∧ p'.given.Perm (port :: p.given) := by
  obtain ⟨p', taken, from_⟩ := exists_takePortFrom? ((h.offered port).2 hport)
  have took : p.takePort? s port = some p' := by rw [Pool.takePort?, taken, Option.some_or]
  have gives := gives_takePort? took free
  refine ⟨p', took, ⟨?_, ?_, ?_⟩, gives.given⟩
  · intro q
    rw [portsOf_eq, gives.resources, ← portsOf_eq]
    exact h.offered q
  · intro q hq
    rcases List.mem_cons.1 (gives.given.mem_iff.1 hq) with rfl | hq
    · exact hport
    · exact h.given q hq
  · intro c hc some_given
    rcases from_ c hc with serves | before
    · exact serves
    · exact h.reserved c before some_given

/-- The resources that are made of ports given away are of reserved ones, and carry ports that are
held. -/
theorem Holds.consumedPorts (h : Holds s held p) {u : Resource α} (hu : u ∈ p.consumedPorts) :
    (∃ r ∈ p.map Chunk.resource, eligible s .ports true r = true ∧ u.sameKind r = true) ∧
      ∀ port ∈ PortRange.allPorts u.portRanges, port ∈ held := by
  obtain ⟨c, hc, some_given, rfl⟩ := mem_consumedPorts.1 hu
  refine ⟨⟨c.resource, List.mem_map_of_mem hc, h.reserved c hc some_given,
    Resource.sameKind_self _⟩, ?_⟩
  intro port hport
  rw [Resource.portRanges_withRanges, PortRange.mem_allPorts_ofPorts] at hport
  exact h.given port (List.mem_flatMap.2 ⟨c, hc, hport⟩)

end Pool

namespace HostPorts

open Pool

/-! ## Requests that were met -/

/-- The ports of requests that were met suffice for them: the fixed ones, and one for each dynamic
request. -/
def Suffices (requests : List HostPort) (held : List Port) : Prop :=
  ∃ others, held.Perm (others ++ fixedPorts requests) ∧ others.length = requests.count .dynamic

theorem held_assign? {s : Selector} {excluded : List Port} {requests : List HostPort}
    {p p' : Pool α} {hosts : List (Option Port)}
    (h : assign? s excluded requests p = some (hosts, p')) :
    Suffices requests (hosts.filterMap id) := by
  obtain ⟨mid, -, bound⟩ := Option.bind_eq_some_iff.1 h
  obtain ⟨others, -, perm, count⟩ := gives_bind? bound
  exact ⟨others, perm, count⟩

/-! ## Requests that are met again -/

section

variable {s : Selector} {held excluded : List Port} {requests : List HostPort} {p : Pool α}

theorem takeFixed?_of_holds (h : Holds s held p) (open_ : ∀ port ∈ held, port ∉ excluded)
    (fixed : ∀ port ∈ fixedPorts requests, port ∈ held)
    (distinct : (fixedPorts requests ++ p.given).Nodup) :
    ∃ p', takeFixed? s excluded requests p = some p' ∧ Holds s held p' ∧
      p'.given.length = (fixedPorts requests).length + p.given.length := by
  induction requests generalizing p with
  | nil => exact ⟨p, rfl, h, (Nat.zero_add _).symm⟩
  | cons request rest ih =>
    cases request with
    | fixed port =>
      have hport := fixed port List.mem_cons_self
      obtain ⟨new, distinct⟩ := List.nodup_cons.1 distinct
      have free : p.isTaken port = false := by
        rw [Bool.eq_false_iff, ne_eq, isTaken_iff]
        exact fun taken => new (List.mem_append_right _ taken)
      obtain ⟨mid, taken, holds, given⟩ := h.takePort? hport free
      have distinct' : (fixedPorts rest ++ mid.given).Nodup := by
        refine ((given.append_left (fixedPorts rest)).trans List.perm_middle).nodup_iff.2 ?_
        exact List.nodup_cons.2 ⟨new, distinct⟩
      obtain ⟨p', rest_taken, holds', count⟩ :=
        ih holds (fun q hq => fixed q (List.mem_cons_of_mem port hq)) distinct'
      refine ⟨p', ?_, holds', ?_⟩
      · have first : takeFree? s excluded port p = some mid := by
          rw [takeFree?, isFree, free, taken]
          simp [open_ port hport]
        rw [takeFixed?, first]
        exact rest_taken
      · rw [count, given.length_eq]
        simp only [fixedPorts, List.filterMap_cons, List.length_cons]
        omega
    | dynamic => exact ih h fixed distinct
    | none => exact ih h fixed distinct

/-- As long as fewer ports have been given away than are held, one of those held is free. -/
theorem exists_free (h : Holds s held p) (open_ : ∀ port ∈ held, port ∉ excluded)
    (distinct : held.Nodup) (fewer : p.given.length < held.length) :
    ∃ port ∈ held, (p.candidatePorts s).find? (isFree excluded p) = some port ∧
      p.isTaken port = false := by
  have some_free : ∃ port ∈ held, port ∉ p.given := by
    by_contra none_free
    have all : held ⊆ p.given := fun port hport => by
      by_contra hfree
      exact none_free ⟨port, hport, hfree⟩
    exact absurd (distinct.length_le_of_subset all) (Nat.not_le.2 fewer)
  obtain ⟨port, hport, hfree⟩ := some_free
  -- A port is looked for among the reserved resources first, and one is found there.
  have found : ((p.portsOf (eligible s .ports true)).find? (isFree excluded p)).isSome = true := by
    rw [List.find?_isSome]
    refine ⟨port, (h.offered port).2 hport, ?_⟩
    have untaken : p.isTaken port = false := by
      rw [Bool.eq_false_iff, ne_eq, isTaken_iff]
      exact hfree
    simp [isFree, untaken, open_ port hport]
  obtain ⟨q, hq⟩ := Option.isSome_iff_exists.1 found
  have free : isFree excluded p q = true := List.find?_some hq
  simp only [isFree, Bool.and_eq_true, Bool.not_eq_true'] at free
  refine ⟨q, (h.offered q).1 (List.mem_of_find?_eq_some hq), ?_, free.2⟩
  rw [candidatePorts, List.find?_append, hq, Option.some_or]

theorem bind?_of_holds (h : Holds s held p) (open_ : ∀ port ∈ held, port ∉ excluded)
    (distinct : held.Nodup) (enough : requests.count .dynamic + p.given.length ≤ held.length) :
    ∃ hosts p', bind? s excluded requests p = some (hosts, p') ∧ Holds s held p' := by
  induction requests generalizing p with
  | nil => exact ⟨[], p, rfl, h⟩
  | cons request rest ih =>
    cases request with
    | fixed port =>
      rw [List.count_cons_of_ne (by simp)] at enough
      obtain ⟨hosts, p', bound, holds⟩ := ih h enough
      exact ⟨some port :: hosts, p', by rw [bind?, bound]; rfl, holds⟩
    | none =>
      rw [List.count_cons_of_ne (by simp)] at enough
      obtain ⟨hosts, p', bound, holds⟩ := ih h enough
      exact ⟨none :: hosts, p', by rw [bind?, bound]; rfl, holds⟩
    | dynamic =>
      rw [List.count_cons_self] at enough
      obtain ⟨port, hport, found, free⟩ := exists_free h open_ distinct (by omega)
      obtain ⟨mid, taken, holds, given⟩ := h.takePort? hport free
      have enough' : rest.count .dynamic + mid.given.length ≤ held.length := by
        rw [given.length_eq, List.length_cons]
        omega
      obtain ⟨hosts, p', bound, holds'⟩ := ih holds enough'
      refine ⟨some port :: hosts, p', ?_, holds'⟩
      rw [bind?, found]
      simp [taken, bound]

/-- Ports that suffice for requests are bound to them again, those of reserved resources alone. -/
theorem assign?_of_holds (h : Holds s held p) (open_ : ∀ port ∈ held, port ∉ excluded)
    (distinct : held.Nodup) (suffices_ : Suffices requests held) (untouched : p.given = []) :
    ∃ hosts p', assign? s excluded requests p = some (hosts, p') ∧ Holds s held p' := by
  obtain ⟨others, perm, count⟩ := suffices_
  have fixed_held : ∀ port ∈ fixedPorts requests, port ∈ held :=
    fun port hport => perm.mem_iff.2 (List.mem_append_right _ hport)
  have fixed_apart : (fixedPorts requests ++ p.given).Nodup := by
    rw [untouched, List.append_nil]
    exact (List.nodup_append.1 (perm.nodup_iff.1 distinct)).2.1
  obtain ⟨mid, fixed, holds, given⟩ := takeFixed?_of_holds h open_ fixed_held fixed_apart
  have enough : requests.count .dynamic + mid.given.length ≤ held.length := by
    have total := perm.length_eq
    rw [List.length_append] at total
    rw [given, untouched, List.length_nil]
    omega
  obtain ⟨hosts, p', bound, holds'⟩ := bind?_of_holds holds open_ distinct enough
  exact ⟨hosts, p', by rw [assign?, fixed]; exact bound, holds'⟩

end

end HostPorts

end Placement
