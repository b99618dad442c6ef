/-
Which requests for host ports can be bound.

`HostPorts.Bindable` says it of the requests and the ports that there are, without any order of binding:
the fixed ports are different from one another and free, and beside them enough free ports are left for
the dynamic requests. `HostPorts.isSome_assign?_iff` has it that binding misses no such case, though it
takes one port after another and never gives one back.

`HostPorts.spare` lists the ports that a pool can still give. Taking a port takes just that one from
the list, so that only the number of ports in it matters to dynamic requests.
-/
import Mathlib.Data.List.Dedup
import Mathlib.Order.Fin.Basic
import Placement.Proofs.Rebinding

namespace Placement

variable {α : Type}

namespace Pool

/-! ## Candidates -/

/-- A port of a resource that the selector accepts. -/
theorem mem_candidatePorts {s : Selector} {p : Pool α} {port : Port} :
    port ∈ p.candidatePorts s ↔
      port ∈ p.portsOf (eligible s .ports true) ∨ port ∈ p.portsOf (eligible s .ports false) :=
  List.mem_append

theorem candidatePorts_congr {p p' : Pool α} (s : Selector)
    (h : p'.map Chunk.resource = p.map Chunk.resource) :
    p'.candidatePorts s = p.candidatePorts s := by
  simp only [candidatePorts, portsOf_eq, h]

/-- The candidates of resources are all ports of those that are accepted. -/
theorem mem_candidatePorts_iff {s : Selector} {p : Pool α} {rs : List (Resource α)} {port : Port}
    (h : p.map Chunk.resource = rs) : port ∈ p.candidatePorts s ↔
      port ∈ Resource.portsOf (rs.filter fun r => r.name == .ports && s.accepts r) := by
  rw [mem_candidatePorts, portsOf_eq, portsOf_eq, h]
  simp only [Resource.portsOf, List.mem_flatMap, List.mem_filter, eligible, Bool.and_eq_true,
    beq_iff_eq]
  constructor
  · rintro (⟨r, ⟨hr, passes, -⟩, hport⟩ | ⟨r, ⟨hr, passes, -⟩, hport⟩)
    · exact ⟨r, ⟨hr, passes⟩, hport⟩
    · exact ⟨r, ⟨hr, passes⟩, hport⟩
  · rintro ⟨r, ⟨hr, passes⟩, hport⟩
    cases reserved : r.isReserved with
    | true => exact .inl ⟨r, ⟨hr, passes, reserved⟩, hport⟩
    | false => exact .inr ⟨r, ⟨hr, passes, reserved⟩, hport⟩

/-- A port that is taken is one of those that serve. -/
theorem mem_portsOf_of_takePortFrom? {serves : Resource α → Bool} {port : Port} {p p' : Pool α}
    (h : p.takePortFrom? serves port = some p') : port ∈ p.portsOf serves := by
  induction p generalizing p' with
  | nil => cases h
  | cons c rest ih =>
    unfold takePortFrom? at h
    unfold portsOf
    split at h
    · next holds =>
      obtain ⟨hserves, hport⟩ := Bool.and_eq_true_iff.1 holds
      exact List.mem_flatMap.2
        ⟨c, List.mem_filter.2 ⟨List.mem_cons_self, hserves⟩, PortRange.mem_allPorts.2 hport⟩
    · obtain ⟨rest', hrest, -⟩ := Option.map_eq_some_iff.1 h
      obtain ⟨c', hc', hport⟩ := List.mem_flatMap.1 (ih hrest)
      obtain ⟨hmem, hserves⟩ := List.mem_filter.1 hc'
      exact List.mem_flatMap.2
        ⟨c', List.mem_filter.2 ⟨List.mem_cons_of_mem c hmem, hserves⟩, hport⟩

/-- A port can be taken just if it is a candidate. -/
theorem isSome_takePort?_iff {s : Selector} {port : Port} {p : Pool α} :
    (p.takePort? s port).isSome = true ↔ port ∈ p.candidatePorts s := by
  rw [mem_candidatePorts, takePort?, Option.isSome_or, Bool.or_eq_true]
  refine or_congr ?_ ?_
  all_goals
    constructor
    · intro h
      obtain ⟨p', taken⟩ := Option.isSome_iff_exists.1 h
      exact mem_portsOf_of_takePortFrom? taken
    · intro h
      obtain ⟨p', taken, -⟩ := exists_takePortFrom? h
      rw [taken]
      rfl

end Pool

namespace HostPorts

open Pool

/-- The requests can be bound to ports of `accepted` that are not excluded. -/
def Bindable (excluded accepted : List Port) (requests : List HostPort) : Prop :=
  (fixedPorts requests).Nodup ∧
    (∀ port ∈ fixedPorts requests, port ∈ accepted ∧ port ∉ excluded) ∧
    requests.count .dynamic ≤ (accepted.dedup.filter fun port =>
      port ∉ excluded ∧ port ∉ fixedPorts requests).length

instance (excluded accepted : List Port) (requests : List HostPort) :
    Decidable (Bindable excluded accepted requests) :=
  -- Only the fixed ports are gone through, not all ports.
  haveI : Decidable (∀ port ∈ fixedPorts requests, port ∈ accepted ∧ port ∉ excluded) :=
    List.decidableBAll _ _
  inferInstanceAs (Decidable (_ ∧ _ ∧ _))

/-! ## Spare ports -/

/-- The ports that the pool can still give, each once. -/
def spare (s : Selector) (excluded : List Port) (p : Pool α) : List Port :=
  (p.candidatePorts s).dedup.filter (isFree excluded p)

section

variable {s : Selector} {excluded : List Port} {p p' : Pool α} {port : Port}

theorem isFree_iff : isFree excluded p port = true ↔ port ∉ excluded ∧ port ∉ p.given := by
  rw [isFree, Bool.and_eq_true, Bool.not_eq_true', Bool.not_eq_true', ← isTaken_iff]
  simp

theorem mem_spare :
    port ∈ spare s excluded p ↔ port ∈ p.candidatePorts s ∧ isFree excluded p port = true := by
  rw [spare, List.mem_filter, List.mem_dedup]

theorem nodup_spare (s : Selector) (excluded : List Port) (p : Pool α) :
    (spare s excluded p).Nodup :=
  (List.nodup_dedup _).filter _

/-- What has been given is no longer spare; all else is. -/
theorem spare_of_gives {ports : List Port} (h : Gives p ports p') :
    spare s excluded p' = (spare s excluded p).filter (· ∉ ports) := by
  rw [spare, spare, candidatePorts_congr s h.resources, List.filter_filter]
  refine List.filter_congr ?_
  intro port _
  rw [Bool.eq_iff_iff, Bool.and_eq_true, decide_eq_true_eq, isFree_iff, isFree_iff, h.given.mem_iff,
    List.mem_append]
  tauto

theorem length_spare_of_gives (h : Gives p [port] p') (before : port ∈ spare s excluded p) :
    (spare s excluded p').length + 1 = (spare s excluded p).length := by
  have erased : (spare s excluded p).filter (· ∉ [port]) = (spare s excluded p).erase port := by
    rw [(nodup_spare s excluded p).erase_eq_filter]
    simp only [List.mem_singleton, decide_not]
    rfl
  rw [spare_of_gives h, erased, List.length_erase_of_mem before]
  exact Nat.sub_add_cancel (List.length_pos_of_mem before)

/-- A spare port can be taken. -/
theorem exists_takePort? (h : port ∈ spare s excluded p) :
    ∃ p', p.takePort? s port = some p' ∧ Gives p [port] p' := by
  obtain ⟨candidate, free⟩ := mem_spare.1 h
  obtain ⟨p', taken⟩ := Option.isSome_iff_exists.1 (isSome_takePort?_iff.2 candidate)
  have untaken : p.isTaken port = false := by
    rw [Bool.eq_false_iff, ne_eq, isTaken_iff]
    exact (isFree_iff.1 free).2
  exact ⟨p', taken, gives_takePort? taken untaken⟩

/-- The search for a free port finds a spare one, unless there is none. -/
theorem find?_candidatePorts (s : Selector) (excluded : List Port) (p : Pool α) :
    ((p.candidatePorts s).find? (isFree excluded p) = none ∧ spare s excluded p = []) ∨
      ∃ port ∈ spare s excluded p, (p.candidatePorts s).find? (isFree excluded p) = some port := by
  cases found : (p.candidatePorts s).find? (isFree excluded p) with
  | none =>
    refine .inl ⟨rfl, List.filter_eq_nil_iff.2 ?_⟩
    intro port hport
    exact List.find?_eq_none.1 found port (List.mem_dedup.1 hport)
  | some port =>
    have free : isFree excluded p port = true := List.find?_some found
    exact .inr ⟨port, mem_spare.2 ⟨List.mem_of_find?_eq_some found, free⟩, rfl⟩

/-! ## All requests -/

variable {requests : List HostPort}

/-- Dynamic requests are bound just if there are as many spare ports. -/
theorem isSome_bind?_iff : (bind? s excluded requests p).isSome = true ↔
    requests.count .dynamic ≤ (spare s excluded p).length := by
  induction requests generalizing p with
  | nil => simp [bind?]
  | cons request rest ih =>
    cases request with
    | fixed port => rw [bind?, Option.isSome_map, ih, List.count_cons_of_ne (by simp)]
    | none => rw [bind?, Option.isSome_map, ih, List.count_cons_of_ne (by simp)]
    | dynamic =>
      rw [List.count_cons_self]
      rcases find?_candidatePorts s excluded p with ⟨nothing, empty⟩ | ⟨port, before, found⟩
      · rw [bind?, nothing, empty]
        simp
      · obtain ⟨mid, taken, gives⟩ := exists_takePort? before
        have more : (bind? s excluded (.dynamic :: rest) p).isSome =
            (bind? s excluded rest mid).isSome := by
          rw [bind?, found]
          simp only [Option.bind_eq_bind, Option.bind_some, taken]
          cases bind? s excluded rest mid <;> rfl
        rw [more, ih, ← length_spare_of_gives gives before, Nat.add_le_add_iff_right]

/-- A port that is asked for by number is taken just if it is spare. -/
theorem takeFree?_eq (port : Port) (p : Pool α) : takeFree? s excluded port p =
    if port ∈ spare s excluded p then p.takePort? s port else none := by
  unfold takeFree?
  by_cases free : isFree excluded p port = true
  · rw [if_pos free]
    split
    · rfl
    · next absent =>
      rw [mem_spare, ← isSome_takePort?_iff] at absent
      simpa [free] using absent
  · rw [if_neg free, if_neg fun h => free (mem_spare.1 h).2]

/-- All fixed ports are taken just if they are different from one another and spare. -/
theorem isSome_takeFixed?_iff : (takeFixed? s excluded requests p).isSome = true ↔
    (fixedPorts requests).Nodup ∧ ∀ port ∈ fixedPorts requests, port ∈ spare s excluded p := by
  induction requests generalizing p with
  | nil => simp [takeFixed?, fixedPorts]
  | cons request rest ih =>
    cases request with
    | dynamic => exact ih
    | none => exact ih
    | fixed port =>
      have ports : fixedPorts (.fixed port :: rest) = port :: fixedPorts rest := rfl
      rw [takeFixed?, takeFree?_eq, ports, List.nodup_cons, List.forall_mem_cons]
      split
      · next before =>
        obtain ⟨mid, taken, gives⟩ := exists_takePort? before
        rw [taken, Option.bind_some, ih, spare_of_gives gives]
        simp only [List.mem_filter, List.mem_singleton, decide_eq_true_eq]
        constructor
        · rintro ⟨distinct, spares⟩
          exact ⟨⟨fun again => (spares port again).2 rfl, distinct⟩, before,
            fun q hq => (spares q hq).1⟩
        · rintro ⟨⟨new, distinct⟩, -, spares⟩
          exact ⟨distinct, fun q hq => ⟨spares q hq, fun same => new (same ▸ hq)⟩⟩
      · next absent => simp [absent]

/-- Requests are bound, from a pool that has given no port away, just if that is possible at all. -/
theorem isSome_assign?_iff {rs : List (Resource α)} (resources : p.map Chunk.resource = rs)
    (untouched : p.given = []) : (assign? s excluded requests p).isSome = true ↔
      Bindable excluded (Resource.portsOf (rs.filter fun r => r.name == .ports && s.accepts r))
        requests := by
  have spares : ∀ port, port ∈ spare s excluded p ↔
      port ∈ Resource.portsOf (rs.filter fun r => r.name == .ports && s.accepts r) ∧
        port ∉ excluded := by
    intro port
    rw [mem_spare, isFree_iff, mem_candidatePorts_iff resources, untouched]
    simp
  -- Once the fixed ports are gone, what is spare are the accepted ports that are in nobody's way.
  have remaining : ((spare s excluded p).filter (· ∉ fixedPorts requests)).length =
      ((Resource.portsOf (rs.filter fun r => r.name == .ports && s.accepts r)).dedup.filter
        fun port => port ∉ excluded ∧ port ∉ fixedPorts requests).length := by
    refine List.Perm.length_eq ((List.perm_ext_iff_of_nodup ((nodup_spare s excluded p).filter _)
      ((List.nodup_dedup _).filter _)).2 ?_)
    intro port
    simp only [List.mem_filter, spares, List.mem_dedup, decide_eq_true_eq]
    tauto
  rw [Bindable, ← remaining]
  simp only [← spares]
  constructor
  · intro h
    obtain ⟨⟨hosts, p'⟩, assigned⟩ := Option.isSome_iff_exists.1 h
    obtain ⟨mid, fixed, bound⟩ := Option.bind_eq_some_iff.1 assigned
    obtain ⟨ports, gives, perm⟩ := gives_takeFixed? fixed
    obtain ⟨distinct, found⟩ := isSome_takeFixed?_iff.1 (Option.isSome_of_mem fixed)
    have enough := isSome_bind?_iff.1 (Option.isSome_of_mem bound)
    rw [spare_of_gives gives] at enough
    simp only [perm.mem_iff] at enough
    exact ⟨distinct, found, enough⟩
  · rintro ⟨distinct, found, enough⟩
    obtain ⟨mid, fixed⟩ := Option.isSome_iff_exists.1 (isSome_takeFixed?_iff.2 ⟨distinct, found⟩)
    obtain ⟨ports, gives, perm⟩ := gives_takeFixed? fixed
    rw [assign?, fixed, Option.bind_some, isSome_bind?_iff, spare_of_gives gives]
    simp only [perm.mem_iff]
    exact enough

end

end HostPorts

end Placement
