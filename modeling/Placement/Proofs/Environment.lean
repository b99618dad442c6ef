/-
What a task learns of its ports from its environment.

Some variables are named by the place of a port, some by the name of its definition, and some stand for
all ports. Only the first kind has a digit behind the first four letters of its name, so that none of the
others can get in its way, whatever the definitions are called. `Decision.find?_taskVariables` has the
value of each.
-/
import Placement.Proofs.OrderedMap
import Placement.Decision.TaskInfo

namespace Placement.Decision

/-! ## Names of variables -/

/-- The variable for the port of a place. -/
def portVariable (i : Nat) : String := s!"PORT{i}"

/-- A digit stands behind the first four letters. -/
def Numbered (name : String) : Prop := name.toList[4]?.any Char.isDigit = true

instance (name : String) : Decidable (Numbered name) := inferInstanceAs (Decidable (_ = true))

theorem toList_portVariable (i : Nat) :
    (portVariable i).toList = "PORT".toList ++ Nat.toDigits 10 i := by
  show ("PORT" ++ toString i).toList = _
  rw [String.toList_append, Nat.toString_eq_repr, Nat.toList_repr]

theorem portVariable_injective : Function.Injective portVariable := by
  intro i j same
  have texts := congrArg String.toList same
  rw [toList_portVariable, toList_portVariable, List.append_cancel_left_eq] at texts
  rw [← Nat.ofDigitChars_ten_toDigits (n := i), texts, Nat.ofDigitChars_ten_toDigits]

theorem numbered_portVariable (i : Nat) : Numbered (portVariable i) := by
  obtain ⟨d, ds, written⟩ := List.exists_cons_of_ne_nil (Nat.toDigits_ne_nil (n := i) (b := 10))
  have digit : d.isDigit = true :=
    Nat.isDigit_of_mem_toDigits (n := i) (b := 10) (by decide) (by decide)
      (written ▸ List.mem_cons_self)
  rw [Numbered, toList_portVariable, written]
  exact digit

theorem not_numbered_named (name : String) : ¬Numbered ("PORT_" ++ name) := by
  rw [Numbered, String.toList_append, List.getElem?_append_left (by decide)]
  decide

/-! ## Values of variables -/

/-- The port that a task has in a place: the host port, or without one the container port. -/
def portAt? (definitions : List PortDefinition) (hostPorts : List (Option Port)) (i : Nat) :
    Option Port :=
  definitions[i]?.bind fun d => hostPorts[i]?.join.or d.containerPort

theorem mem_numberedPorts {definitions : List PortDefinition} {hostPorts : List (Option Port)}
    {n i : Nat} {d : PortDefinition} {port : Port} :
    (i, d, port) ∈ numberedPorts n definitions hostPorts ↔ ∃ j, i = n + j ∧
      definitions[j]? = some d ∧ portAt? definitions hostPorts j = some port := by
  induction definitions generalizing n hostPorts with
  | nil => simp [numberedPorts]
  | cons first rest ih =>
    have later : (i, d, port) ∈ numberedPorts (n + 1) rest (hostPorts.drop 1) ↔ ∃ j,
        i = n + (j + 1) ∧ (first :: rest)[j + 1]? = some d ∧
          portAt? (first :: rest) hostPorts (j + 1) = some port := by
      rw [ih]
      simp [portAt?, Nat.add_comm, Nat.add_left_comm]
    have here : portAt? (first :: rest) hostPorts 0 =
        (hostPorts.head?.bind id).or first.containerPort := by
      rw [List.head?_eq_getElem?]
      rfl
    rw [← Nat.or_exists_add_one, ← later, here, numberedPorts]
    cases (hostPorts.head?.bind id).or first.containerPort with
    | none => simp
    | some p => simp [eq_comm]

/-- Only a definition with a port, of the host or of its container, has a variable. -/
theorem mem_portVariables {ports : List (Nat × PortDefinition × Port)} {i : Nat} {text : String} :
    (portVariable i, text) ∈ portVariables ports ↔
      ∃ d port, (i, d, port) ∈ ports ∧ text = portText port := by
  unfold portVariables
  rw [List.mem_append, List.mem_flatMap]
  constructor
  · rintro (front | ⟨⟨j, d, port⟩, there, own⟩)
    · split at front
      · cases front
      · have named := List.mem_map_of_mem (f := Prod.fst) front
        have others : ∀ name ∈ ["PORT", "PORTS"], ¬Numbered name := by decide
        exact absurd (numbered_portVariable i) (others _ named)
    · rcases List.mem_cons.1 own with same | named
      · obtain ⟨place, rfl⟩ := Prod.mk.inj same
        obtain rfl := portVariable_injective place
        exact ⟨d, port, there, rfl⟩
      · split at named
        · next name _ =>
          obtain ⟨same, -⟩ := Prod.mk.inj (List.mem_singleton.1 named)
          exact absurd (same ▸ numbered_portVariable i) (not_numbered_named _)
        · cases named
  · rintro ⟨d, port, there, rfl⟩
    exact .inr ⟨_, there, List.mem_cons_self⟩

variable {α : Type} [Amount α]

/-- The variable of a place says which port the task has there, and is missing if there is none. -/
theorem find?_taskVariables (runSpec : RunSpec α) (taskId : TaskId) (host : String)
    (definitions : List PortDefinition) (hostPorts : List (Option Port)) (required : Requirements α)
    (i : Nat) :
    (taskVariables runSpec taskId host definitions hostPorts required).find? (portVariable i) =
      (portAt? definitions hostPorts i).map portText := by
  refine OrderedMap.find?_ofList_of_forall fun text => ?_
  rw [List.mem_append, mem_portVariables]
  constructor
  · rintro (front | ⟨d, port, there, rfl⟩)
    · have named := List.mem_map_of_mem (f := Prod.fst) front
      have others : ∀ name ∈ ["KEEL_RUN_SPEC_ID", "KEEL_RUN_SPEC_VERSION", "KEEL_TASK_ID", "HOST",
          "KEEL_RESOURCE_CPUS", "KEEL_RESOURCE_MEM", "KEEL_RESOURCE_DISK", "KEEL_RESOURCE_GPUS"],
          ¬Numbered name := by
        decide
      exact absurd (numbered_portVariable i) (others _ named)
    · obtain ⟨j, rfl, -, found⟩ := mem_numberedPorts.1 there
      rw [Nat.zero_add, found]
      rfl
  · intro found
    obtain ⟨port, held, rfl⟩ := Option.map_eq_some_iff.1 found
    obtain ⟨d, defined, -⟩ := Option.bind_eq_some_iff.1 held
    exact .inr ⟨d, port, mem_numberedPorts.2 ⟨i, (Nat.zero_add i).symm, defined, held⟩, rfl⟩

/-- What the user has put under a name: in the container itself, or else for all of the run spec. -/
def userVariable? (runSpec : RunSpec α) (container : Option (ContainerSpec α)) (name : String) :
    Option String :=
  (container.bind fun c => c.env.find? name).or (runSpec.env.find? name)

/-- The ports that are declared for a task: those of its container, or of the run spec if it is the only
task of its instance. -/
def declaredPorts (runSpec : RunSpec α) (container : Option (ContainerSpec α)) :
    List PortDefinition :=
  (container.map (·.endpoints)).getD runSpec.ports

/-- Unless the user has put something else there, the variable of a place says which port the task has
there. -/
theorem find?_environment (runSpec : RunSpec α) (o : Offer α) (taskId : TaskId)
    (container : Option (ContainerSpec α)) (resources : List (Resource α))
    (hostPorts : List (Option Port)) (i : Nat) :
    (taskInfo runSpec o taskId container resources hostPorts).command.environment.find?
        (portVariable i) =
      (userVariable? runSpec container (portVariable i)).or
        ((portAt? (declaredPorts runSpec container) hostPorts i).map portText) := by
  cases container with
  | none =>
    refine (OrderedMap.find?_union ..).trans ?_
    rw [find?_taskVariables]
    rfl
  | some c =>
    refine (OrderedMap.find?_union ..).trans ?_
    rw [OrderedMap.find?_union, find?_taskVariables, userVariable?, Option.bind_some,
      Option.or_assoc]
    rfl

end Placement.Decision
