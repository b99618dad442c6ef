/-
What the executor and the containers of a task group are handed of a match.

They draw on the same parts, one after another, and each leaves what is within the tolerance: of a part
that is nearly used up, and of what it still needs itself. Who comes late could be short of all that was
left before. `Portion.HandsOut` says of one amount that little is missing or little is left, and as long
as enough was there for all together (`Portion.HandsOut.step`), nobody is short of more than the tolerance
for each part and once again: `Decision.apportions_evaluate`.
-/
import Placement.Proofs.Decision
import Placement.Proofs.Isolation
import Placement.Proofs.Ports
import Placement.Proofs.Supplied

namespace Placement

open Resource

namespace Portion

/-! ## One amount -/

/-- An amount of the name was asked for of the parts: `taken` was handed out, and `rest` is left. -/
structure HandsOut (name : ResourceName) (required : Rat) (parts taken rest : List (Resource Rat)) :
    Prop where
  total : amountOf (·.name == name) taken + amountOf (·.name == name) rest =
    amountOf (·.name == name) parts
  no_more : amountOf (·.name == name) taken ≤ required
  count : rest.countP (·.name == name) = parts.countP (·.name == name)
  /-- Unless next to nothing is missing, next to nothing is left of each part. -/
  short : required - amountOf (·.name == name) taken ≤ Amount.tolerance ∨
    amountOf (·.name == name) rest ≤ parts.countP (·.name == name) * Amount.tolerance

variable {name other : ResourceName} {required missing : Rat}
  {parts parts' taken taken' rest rest' : List (Resource Rat)}

/-- Only the parts of the name matter. -/
theorem HandsOut.congr (h : HandsOut name required parts taken rest)
    (before : parts'.filter (·.name == name) = parts.filter (·.name == name))
    (handed : taken'.filter (·.name == name) = taken.filter (·.name == name))
    (after : rest'.filter (·.name == name) = rest.filter (·.name == name)) :
    HandsOut name required parts' taken' rest' := by
  obtain ⟨total, no_more, count, short⟩ := h
  simp only [amountOf, List.countP_eq_length_filter] at total no_more count short
  constructor
  all_goals simpa only [amountOf, List.countP_eq_length_filter, before, handed, after]

/-- What is within the tolerance is not looked for. -/
theorem takeScalar_of_le (h : missing ≤ Amount.tolerance) (parts : List (Resource Rat)) :
    takeScalar name missing parts = ([], parts) := by
  cases parts with
  | nil => rfl
  | cons r rest => rw [takeScalar, if_pos h]

/-- A part in front that is left alone, because it is of another name or next to nothing. -/
theorem HandsOut.cons (h : HandsOut name required parts taken rest) {r : Resource Rat}
    (left : r.name = name → r.amount ≤ Amount.tolerance) :
    HandsOut name required (r :: parts) taken (r :: rest) := by
  by_cases named : r.name = name
  · have little := left named
    have here : (r.name == name) = true := beq_iff_eq.2 named
    obtain ⟨total, no_more, count, short⟩ := h
    refine ⟨?_, no_more, ?_, short.imp_right fun empty => ?_⟩
    · rw [amountOf_cons, amountOf_cons, if_pos here]
      linarith
    · simp only [List.countP_cons, count]
    · rw [amountOf_cons, if_pos here]
      simp only [List.countP_cons, here, if_true]
      push_cast
      linarith
  · have passed : ∀ l : List (Resource Rat),
        (r :: l).filter (·.name == name) = l.filter (·.name == name) :=
      fun l => List.filter_cons_of_neg (by simpa using named)
    exact h.congr (passed _) rfl (passed _)

/-- Of a part in front an amount is handed out, and then what is missing beside it. -/
theorem HandsOut.slice {r : Resource Rat} {a b : Rat} (named : r.name = name) (amount : r.amount = a)
    (h : HandsOut name (required - b) parts taken rest)
    (short : required - b - amountOf (·.name == name) taken ≤ Amount.tolerance ∨ b = a) :
    HandsOut name required (r :: parts) (r.withValue (.scalar b) :: taken)
      (r.withValue (.scalar (a - b)) :: rest) := by
  have tol := Amount.tolerance_pos
  have here : ∀ value, ((r.withValue value).name == name) = true := fun _ => beq_iff_eq.2 named
  have here' : (r.name == name) = true := beq_iff_eq.2 named
  obtain ⟨total, no_more, count, last⟩ := h
  refine ⟨?_, ?_, ?_, ?_⟩
  · simp only [amountOf_cons, here, here', if_true, amount_withScalar, amount]
    linarith
  · simp only [amountOf_cons, here, if_true, amount_withScalar]
    linarith
  · simp only [List.countP_cons, here, here', count]
  · simp only [amountOf_cons, List.countP_cons, here, here', if_true, amount_withScalar]
    push_cast
    rcases short with enough | rfl
    · exact .inl (by linarith)
    · exact last.imp (fun enough => by linarith) fun empty => by linarith

theorem handsOut_takeScalar (h : 0 ≤ missing) (parts : List (Resource Rat)) :
    HandsOut name missing parts (takeScalar name missing parts).1
      (takeScalar name missing parts).2 := by
  have tol := Amount.tolerance_pos
  induction parts generalizing missing with
  | nil => exact ⟨add_zero 0, h, rfl, .inr (by simp [takeScalar])⟩
  | cons r rest ih =>
    by_cases small : missing ≤ Amount.tolerance
    · rw [takeScalar_of_le small]
      exact ⟨zero_add _, h, rfl, .inl (by simpa using small)⟩
    · rw [takeScalar, if_neg small]
      split
      · next amount hname hvalue =>
        have named : r.name = name := beq_iff_eq.1 hname
        have worth : r.amount = amount := amount_of_scalar hvalue
        have upper := Amount.least_le_right amount missing
        simp only
        split
        · next little =>
          refine (ih h).cons fun _ => ?_
          rw [worth]
          unfold Amount.least at little
          split at little
          · exact little
          · exact absurd little small
        · have more := @ih (missing - Amount.least amount missing) (by linarith)
          refine more.slice named worth ?_
          -- A part that has all that is missing ends the search; any other is used up.
          by_cases used : amount ≤ missing
          · exact .inr (if_pos used)
          · have all : Amount.least amount missing = missing := if_neg used
            rw [all, sub_self, takeScalar_of_le (le_of_lt tol)]
            exact .inl (by simpa using le_of_lt tol)
      · next absent =>
        refine (ih h).cons fun named => ?_
        -- Ports have no amount.
        cases hvalue : r.value with
        | scalar amount => exact (absent amount (beq_iff_eq.2 named) hvalue).elim
        | ranges ranges =>
          rw [amount_of_ranges hvalue]
          exact le_of_lt tol

/-! ## Several amounts -/

/-- Parts of other names are left alone. -/
theorem filter_takeScalar (unlike : other ≠ name) (missing : Rat) (parts : List (Resource Rat)) :
    (takeScalar name missing parts).1.filter (·.name == other) = [] ∧
      (takeScalar name missing parts).2.filter (·.name == other) =
        parts.filter (·.name == other) := by
  induction parts generalizing missing with
  | nil => exact ⟨rfl, rfl⟩
  | cons r rest ih =>
    unfold takeScalar
    split
    · exact ⟨rfl, rfl⟩
    · split
      · next amount hname _ =>
        have passed : ∀ value (l : List (Resource Rat)),
            (r.withValue value :: l).filter (·.name == other) = l.filter (·.name == other) := by
          intro value l
          refine (List.filter_cons ..).trans (if_neg fun same => ?_)
          exact unlike ((beq_iff_eq.1 same).symm.trans (beq_iff_eq.1 hname))
        have passed' : ∀ l : List (Resource Rat),
            (r :: l).filter (·.name == other) = l.filter (·.name == other) := passed r.value
        simp only
        split
        · obtain ⟨handed, left⟩ := ih missing
          exact ⟨handed, by rw [passed', passed', left]⟩
        · obtain ⟨handed, left⟩ := ih (missing - Amount.least amount missing)
          exact ⟨(passed _ _).trans handed, by rw [passed, passed', left]⟩
      · obtain ⟨handed, left⟩ := ih missing
        refine ⟨handed, ?_⟩
        rw [List.filter_cons, List.filter_cons, left]

theorem filter_takeScalars (required : Requirements Rat) {names : List ResourceName}
    (absent : other ∉ names) (parts : List (Resource Rat)) :
    (takeScalars required names parts).1.filter (·.name == other) = [] ∧
      (takeScalars required names parts).2.filter (·.name == other) =
        parts.filter (·.name == other) := by
  induction names generalizing parts with
  | nil => exact ⟨rfl, rfl⟩
  | cons name rest ih =>
    simp only [List.mem_cons, not_or] at absent
    obtain ⟨unlike, absent⟩ := absent
    obtain ⟨handed, left⟩ := filter_takeScalar unlike (required.of name) parts
    obtain ⟨handed', left'⟩ := ih absent (takeScalar name (required.of name) parts).2
    refine ⟨?_, left'.trans left⟩
    rw [takeScalars, List.filter_append, handed, handed', List.append_nil]

theorem handsOut_takeScalars {required : Requirements Rat} {names : List ResourceName}
    (distinct : names.Nodup) (nonneg : ∀ name ∈ names, 0 ≤ required.of name)
    (parts : List (Resource Rat)) : ∀ name ∈ names, HandsOut name (required.of name) parts
      (takeScalars required names parts).1 (takeScalars required names parts).2 := by
  induction names generalizing parts with
  | nil => simp
  | cons first rest ih =>
    obtain ⟨unlike, distinct⟩ := List.nodup_cons.1 distinct
    intro name hname
    by_cases here : name = first
    · subst here
      obtain ⟨handed, left⟩ := filter_takeScalars required unlike
        (takeScalar name (required.of name) parts).2
      refine (handsOut_takeScalar (nonneg name List.mem_cons_self) parts).congr rfl ?_ left
      rw [takeScalars, List.filter_append, handed, List.append_nil]
    · obtain ⟨handed, left⟩ := filter_takeScalar here (required.of first) parts
      have later := ih distinct (fun n hn => nonneg n (List.mem_cons_of_mem first hn))
        (takeScalar first (required.of first) parts).2 name
        ((List.mem_cons.1 hname).resolve_left here)
      refine later.congr left.symm ?_ rfl
      rw [takeScalars, List.filter_append, handed, List.nil_append]

theorem handsOut_take {required : Requirements Rat}
    (nonneg : ∀ name ∈ Matching.scalarNames, 0 ≤ required.of name) (parts : List (Resource Rat)) :
    ∀ name ∈ Matching.scalarNames, HandsOut name (required.of name) parts (take required parts).1
      (take required parts).2 :=
  handsOut_takeScalars (by decide) nonneg parts

/-! ## One after another -/

theorem scalarSum_eq (name : ResourceName) (rs : List (Resource Rat)) :
    scalarSum name rs = amountOf (·.name == name) rs := List.sum_eq_foldl.symm

/-- Parts with the amount of a name that is required: no more, and at most the tolerance for each of
`count` parts and once again less. -/
structure Receives (name : ResourceName) (count : Nat) (required : Rat)
    (handed : List (Resource Rat)) : Prop where
  no_more : scalarSum name handed ≤ required
  enough : required - (count + 1) * Amount.tolerance ≤ scalarSum name handed

/-- Where there is enough for this amount and for what will be required later, it is received, and there is
enough for the others afterwards. -/
theorem HandsOut.step {later : Rat} (h : HandsOut name required parts taken rest)
    (enough : required + later ≤ amountOf (·.name == name) parts + Amount.tolerance)
    (nonneg : 0 ≤ later) :
    Receives name (parts.countP (·.name == name)) required taken ∧
      later ≤ amountOf (·.name == name) rest + Amount.tolerance := by
  have tol := Amount.tolerance_pos
  have each : 0 ≤ (parts.countP (·.name == name) : Rat) * Amount.tolerance :=
    mul_nonneg (Nat.cast_nonneg _) (le_of_lt tol)
  have total := h.total
  have upper := h.no_more
  refine ⟨⟨(scalarSum_eq name taken).trans_le upper, ?_⟩, by linarith⟩
  rw [scalarSum_eq]
  rcases h.short with small | empty
  · linarith
  · linarith

/-- Ports have no amount. -/
theorem scalarSum_append_ports (name : ResourceName) (handed : List (Resource Rat))
    (hostPorts : List (Option Port)) (parts : List (Resource Rat)) :
    scalarSum name (handed ++ ports hostPorts parts) = scalarSum name handed := by
  rw [scalarSum_eq, scalarSum_eq, amountOf_append, add_eq_left]
  refine amountOf_eq_zero fun u hu _ => ?_
  obtain ⟨port, -, heq⟩ := List.mem_filterMap.1 hu
  obtain ⟨r, -, rfl⟩ := Option.map_eq_some_iff.1 heq
  rfl

end Portion

/-! ## What a match provides -/

namespace Requirements

theorem of_add (a b : Requirements Rat) (name : ResourceName) :
    (a.add b).of name = a.of name + b.of name := by
  cases name with
  | ports => exact (add_zero 0).symm
  | _ => rfl

theorem of_foldl_add (rs : List (Requirements Rat)) (a : Requirements Rat) (name : ResourceName) :
    (rs.foldl add a).of name = a.of name + (rs.map (·.of name)).sum := by
  induction rs generalizing a with
  | nil => exact (add_zero _).symm
  | cons r rest ih => rw [List.foldl_cons, ih, of_add, List.map_cons, List.sum_cons, add_assoc]

theorem executor_nonneg : ∀ name ∈ Matching.scalarNames, 0 ≤ (executor : Requirements Rat).of name := by
  decide +kernel

end Requirements

/-- An instance of a pod needs what its executor and its containers need. -/
theorem RunSpec.of_totalResources {s : RunSpec Rat} (pod : s.isPod = true) (name : ResourceName) :
    s.totalResources.of name =
      Requirements.executor.of name + (s.containers.map (·.resources.of name)).sum := by
  rw [totalResources, if_pos pod, Requirements.of_foldl_add, List.map_map]
  rfl

namespace Matching

/-- A match without volumes has what is required, up to the tolerance, in parts with amounts of zero at
least. -/
theorem provides_match? {gpus : GpuPolicy} {o : Offer Rat} {runSpec : RunSpec Rat}
    {known : List Instance} {s : Selector} {m : ResourceMatch Rat}
    (h : match? gpus o runSpec known s .none = .ok m) :
    (∀ name ∈ scalarNames, runSpec.totalResources.of name ≤
      amountOf (·.name == name) m.resources + Amount.tolerance) ∧
      ∀ r ∈ m.resources, 0 ≤ r.amount := by
  obtain ⟨volumes, scalars, pool, rfl, hscalars, -, resources, -, met⟩ := match?_eq_ok h
  have valueless : ∀ u ∈ pool.consumedPorts, u.amount = 0 := by
    intro u hu
    obtain ⟨c, -, -, rfl⟩ := Pool.mem_consumedPorts.1 hu
    rfl
  have parts := (pays_takeScalars s runSpec.totalResources scalarNames []
    (Pool.ofResources o.resources)).2
  rw [hscalars] at met
  have makesUp := makesUp_takeScalars (by decide) met
  have plain : m.resources = scalars.1 ++ pool.consumedPorts := by
    rw [resources]
    simp [takeVolumes]
  rw [plain, hscalars]
  refine ⟨?_, ?_⟩
  · intro name hname
    have made := makesUp name hname
    rw [amountOf_append, amountOf_eq_zero fun u hu _ => valueless u hu, add_zero]
    rcases le_or_gt (runSpec.totalResources.of name) Amount.tolerance with small | large
    · rw [made.none_needed small]
      linarith
    · linarith [made.enough large]
  · intro r hr
    rcases List.mem_append.1 hr with hr | hr
    · exact le_of_lt (parts r hr).1
    · exact le_of_eq (valueless r hr).symm

end Matching

/-! ## Task groups -/

namespace Decision

open Matching Portion

variable {policy : LaunchPolicy} {gpus : GpuPolicy} {runSpec : RunSpec Rat} {o : Offer Rat}
  {known : List Instance} {now : Timestamp} {instanceId : InstanceId}

/-- As long as there is enough for all members, each receives what it requires. -/
theorem receives_groupMembers {containers : List (ContainerSpec Rat)} {hostPorts : List (Option Port)}
    {parts : List (Resource Rat)} {infos : List (TaskInfo Rat)} {ops : List StateOp}
    (nonneg : ∀ c ∈ containers, ∀ name ∈ scalarNames, 0 ≤ c.resources.of name)
    (enough : ∀ name ∈ scalarNames, (containers.map (·.resources.of name)).sum ≤
      amountOf (·.name == name) parts + Amount.tolerance)
    (h : groupMembers runSpec o instanceId now containers hostPorts parts = .ok (infos, ops)) :
    List.Forall₂ (fun c info => ∀ name ∈ scalarNames,
      Receives name (parts.countP (·.name == name)) (c.resources.of name) info.resources)
      containers infos := by
  induction containers generalizing hostPorts parts infos ops with
  | nil =>
    obtain ⟨rfl, -⟩ := Prod.mk.inj (Except.ok.inj h)
    exact .nil
  | cons c rest ih =>
    have nonneg' : ∀ d ∈ rest, ∀ name ∈ scalarNames, 0 ≤ d.resources.of name :=
      fun d hd => nonneg d (List.mem_cons_of_mem c hd)
    have handed := handsOut_take (nonneg c List.mem_cons_self) parts
    have steps := fun name hname => (handed name hname).step (enough name hname)
      (List.sum_nonneg (by simpa using fun d hd => nonneg' d hd name hname))
    obtain ⟨-, infos', ops', -, others, rfl, -⟩ := groupMembers_cons_eq_ok h
    refine .cons ?_ ((ih nonneg' (fun name hname => (steps name hname).2) others).imp ?_)
    · intro name hname
      obtain ⟨no_more, received⟩ := (steps name hname).1
      rw [← scalarSum_append_ports name _ (hostPorts.take c.endpoints.length)
        (take c.resources parts).2] at no_more received
      exact ⟨no_more, received⟩
    · intro d info receives name hname
      rw [← (handed name hname).count]
      exact receives name hname

/-- What the executor and the members of a task group are handed of a match. -/
structure Apportioned (runSpec : RunSpec Rat) (m : ResourceMatch Rat) (group : TaskGroupInfo Rat) :
    Prop where
  executor : ∀ name ∈ scalarNames, Receives name (m.resources.countP (·.name == name))
    (Requirements.executor.of name) group.executor.resources
  members : List.Forall₂ (fun c info => ∀ name ∈ scalarNames,
    Receives name (m.resources.countP (·.name == name)) (c.resources.of name) info.resources)
    runSpec.containers group.tasks
  /-- Together they have no more of a kind than the match, and none but its ports, each once. -/
  total : ∀ k, kindTotal k (group.executor.resources ++ group.tasks.flatMap (·.resources)) ≤
    kindTotal k m.resources
  held : ∀ u ∈ group.executor.resources ++ group.tasks.flatMap (·.resources), ∃ r ∈ m.resources,
    u.sameKind r = true ∧
      ∀ port ∈ PortRange.allPorts u.portRanges, port ∈ PortRange.allPorts r.portRanges
  ports : (portsOf (group.executor.resources ++ group.tasks.flatMap (·.resources))).Nodup

/-- Whatever parts a match is made of, the executor and each container of the group that is launched
receive what they require of it, up to the tolerance for each part and once again, and together no more
than was matched. -/
theorem apportions_evaluate {additional : Nat} {ids ids' : IdSupply} {group : TaskGroupInfo Rat}
    {ops : List StateOp}
    (nonneg : ∀ c ∈ runSpec.containers, ∀ name ∈ scalarNames, 0 ≤ c.resources.of name)
    (h : evaluate policy gpus runSpec o known additional now ids =
      (.ok (.op (.launchGroup group ops)), ids')) :
    ∃ m, match? gpus o runSpec known (freeSelector policy runSpec) .none = .ok m ∧
      Apportioned runSpec m group := by
  cases (reached_evaluate h).2 with
  | launched m _ found made =>
    refine ⟨m, found, ?_⟩
    split at made
    · next pod =>
      obtain ⟨provides, plain⟩ := provides_match? found
      have different := (ports_match? found).1
      obtain ⟨infos, ops', members, made⟩ := launchGroup_eq_ok made
      obtain ⟨rfl, rfl⟩ := InstanceOp.launchGroup.inj made
      have handed := handsOut_take Requirements.executor_nonneg m.resources
      have steps := fun name hname => (handed name hname).step
        (le_of_eq_of_le (RunSpec.of_totalResources pod name).symm (provides name hname))
        (List.sum_nonneg (by simpa using fun c hc => nonneg c hc name hname))
      have receive := receives_groupMembers nonneg (fun name hname => (steps name hname).2) members
      obtain ⟨rest, splits⟩ := splits_groupMembers members
      have all := (splits_take Requirements.executor m.resources).trans splits
      refine ⟨fun name hname => (steps name hname).1, receive.imp ?_, ?_, all.held,
        different.sublist all.ports⟩
      · intro c info receives name hname
        rw [← (handed name hname).count]
        exact receives name hname
      · intro k
        have total := all.total k
        have left := kindTotal_nonneg (all.nonneg plain) k
        linarith
    · cases InstanceOp.ofTask_eq_ok made

end Decision

namespace Sample

/-- The executor and two containers need 1.6 processors and 128 of memory together. -/
def duo : RunSpec Rat :=
  { RunSpec.ofId ⟨"/duo", by decide⟩ 1 ⟨0, 0⟩ with
    containers := [⟨"first", ⟨1 / 2, 32, 0, 0⟩, [.ofHostPort .dynamic], .none, ∅⟩,
      ⟨"second", ⟨1, 64, 0, 0⟩, [], .none, ∅⟩] }

/-- The processors come in three parts, none of which is enough for the second container. -/
def piecemeal : Offer Rat where
  id := ⟨.ofNat 4⟩
  agentId := ⟨.ofNat 2⟩
  hostname := "host"
  attributes := ∅
  resources := [.scalar .cpus (1 / 5), .scalar .cpus (9 / 10), .scalar .cpus (4 / 5), .scalar .mem 256,
    .scalar .disk 64, .ports [⟨31000, 31001⟩]]

def duoDecision : Decision.Result Rat :=
  Decision.evaluate .usual .restricted duo piecemeal [] 1 ⟨0, 0⟩ (.numbered ⟨5, 0⟩)

/-- What the members of a task group get of the processors, part by part. -/
def processors? : InstanceOp Rat → Option (List (List Rat))
  | .launchGroup group _ => some ((group.executor.resources :: group.tasks.map (·.resources)).map
      fun rs => (rs.filter (·.name == .cpus)).map (·.amount))
  | _ => none

end Sample

/-- Each of the two containers is handed parts of two of the processor resources. -/
theorem Decision.apportions_evaluate_sample : ∃ group ops ids,
    (∀ c ∈ Sample.duo.containers, ∀ name ∈ Matching.scalarNames, 0 ≤ c.resources.of name) ∧
      Sample.duoDecision = (.ok (.op (.launchGroup group ops)), ids) ∧
      Sample.processors? (.launchGroup group ops) =
        some [[1 / 10], [1 / 10, 2 / 5], [1 / 2, 1 / 2]] ∧
      ∃ m, Matching.match? .restricted Sample.piecemeal Sample.duo []
          (Decision.freeSelector .usual Sample.duo) .none = .ok m ∧
        Apportioned Sample.duo m group := by
  have nonneg : ∀ c ∈ Sample.duo.containers, ∀ name ∈ Matching.scalarNames,
      0 ≤ c.resources.of name := by
    decide +kernel
  have launched : Sample.duoDecision.1.map (fun d => d.op?.bind Sample.processors?) =
      .ok (some [[1 / 10], [1 / 10, 2 / 5], [1 / 2, 1 / 2]]) := by
    decide +kernel
  obtain ⟨op, ids, decided, handed⟩ := exists_op launched
  cases op with
  | launchGroup group ops =>
    exact ⟨group, ops, ids, nonneg, decided, handed, apportions_evaluate nonneg decided⟩
  | launchTask => cases handed
  | reserveAndCreate => cases handed

end Placement
