/-
Which texts are read as an identifier that is made of parts.

* `RunSpecId.ofSafeChars_eq_ok_iff`: a slash is read like an underscore in a safe path, so a path of
  several segments has several texts there.
* `TaskId.parse_eq_ok_iff`, `VolumeId.parse_eq_ok_iff`: all texts that are read as an identifier. The
  names of containers and volumes are read as they stand.
* `spelled_once` is the main result: without a slash in front of its first separator, a text shows the
  run spec and the name as the identifier does. `Sample.spelled_twice` has texts with a slash there.
-/
import Placement.Proofs.Grammar

namespace Placement

/-- A character of a path as the safe form has it. -/
def underscored (c : Char) : Char := if c = '/' then '_' else c

/-- What stands in front of the first separator. -/
def textBefore (sep : Char) (s : String) : String := String.ofList (s.toList.takeWhile (· ≠ sep))

theorem head?_splitOn (sep : Char) (cs : List Char) :
    (cs.splitOn sep).head? = some (cs.takeWhile (· ≠ sep)) := by
  induction cs with
  | nil => rfl
  | cons c rest ih =>
    rw [List.splitOn_cons_eq_if_modifyHead]
    by_cases hc : c = sep
    · simp [hc]
    · obtain ⟨head, tail, parts⟩ := List.exists_cons_of_ne_nil (List.splitOn_ne_nil sep rest)
      rw [parts, List.head?_cons, Option.some.injEq] at ih
      simp [hc, parts, ih]

/-! ## Safe paths -/

namespace RunSpecId

variable {cs : List Char} {id : RunSpecId}

theorem path_of_parseChars (h : parseChars cs = .ok id) : id.path = String.ofList cs := by
  unfold parseChars at h
  split at h
  · cases h
  · obtain rfl := Except.ok.inj h
    rfl

/-- A slash is read like an underscore. -/
theorem ofSafeChars_underscored (cs : List Char) :
    ofSafeChars (cs.map underscored) = ofSafeChars cs := by
  have same : (fun c => if c = '_' then '/' else c) ∘ underscored =
      fun c => if c = '_' then '/' else c := by
    funext c
    by_cases slash : c = '/' <;> simp [underscored, slash]
  simp only [ofSafeChars, List.map_eq_nil_iff, List.map_map, same]

/-- The texts that are read as the path of a run spec are its safe path, and that with a slash for some
of the underscores. -/
theorem ofSafeChars_eq_ok_iff : ofSafeChars cs = .ok id ↔ cs.map underscored = id.safeChars := by
  constructor
  · intro h
    unfold ofSafeChars at h
    split at h
    · cases h
    · have path := id.path_eq_relative.1
      rw [path_of_parseChars h, String.toList_ofList, List.cons.injEq] at path
      have back : underscored ∘ (fun c => if c = '_' then '/' else c) = underscored := by
        funext c
        by_cases underscore : c = '_' <;> simp [underscored, underscore]
      show _ = id.relative.map underscored
      rw [← path.2, List.map_map, back]
  · intro h
    rw [← ofSafeChars_underscored, h, ofSafeChars_safeChars]

/-- Without a slash there is only the safe path. -/
theorem ofList_eq_safePath (h : cs.map underscored = id.safeChars) (slashless : '/' ∉ cs) :
    String.ofList cs = id.safePath := by
  have same : cs.map underscored = cs :=
    (List.map_congr_left fun c hc => if_neg (by rintro rfl; exact slashless hc)).trans cs.map_id
  rw [safePath, ← h, same]

end RunSpecId

/-! ## Tasks -/

theorem ContainerName.parseChars_eq_ok_iff {cs : List Char} {name : ContainerName} :
    parseChars cs = .ok name ↔ cs = name.text.toList := by
  constructor
  · intro h
    unfold parseChars at h
    split at h
    · cases h
    · obtain rfl := Except.ok.inj h
      exact String.toList_ofList.symm
  · rintro rfl
    exact name.parseChars_text

namespace TaskId

variable {id : TaskId} {safe inst : List Char} {container : Option (List Char)}

theorem ofParts_eq_ok_iff : ofParts safe inst container = .ok id ↔
    RunSpecId.ofSafeChars safe = .ok id.runSpecId ∧
      GeneratedId.parseChars inst = .ok id.instanceId ∧
        container = id.container.map (·.text.toList) := by
  constructor
  · intro h
    cases hspec : RunSpecId.ofSafeChars safe with
    | error e =>
      rw [ofParts, hspec] at h
      cases h
    | ok runSpecId =>
      cases hinst : (GeneratedId.parseChars inst : Except IdError InstanceId) with
      | error e =>
        rw [ofParts, hspec, hinst] at h
        cases h
      | ok instanceId =>
        cases container with
        | none =>
          rw [ofParts, hspec, hinst] at h
          obtain rfl := Except.ok.inj h
          exact ⟨rfl, rfl, rfl⟩
        | some cs =>
          cases hname : ContainerName.parseChars cs with
          | error e =>
            simp only [ofParts, hspec, hinst, hname] at h
            cases h
          | ok name =>
            simp only [ofParts, hspec, hinst, hname] at h
            obtain rfl := Except.ok.inj h
            exact ⟨rfl, rfl, congrArg some (ContainerName.parseChars_eq_ok_iff.1 hname)⟩
  · rintro ⟨hspec, hinst, rfl⟩
    obtain ⟨runSpecId, instanceId, name⟩ := id
    cases name with
    | none => simp only [ofParts, hspec, hinst]; rfl
    | some name =>
      simp only [ofParts, hspec, hinst, Option.map_some, ContainerName.parseChars_text]
      rfl

/-- A text is read as a task if its parts spell those of the task. -/
theorem parse_eq_ok_iff {s : String} : parse s = .ok id ↔ ∃ safe inst,
    s.toList.splitOn '.' = safe :: inst :: (id.container.map (·.text.toList)).toList ∧
      safe.map underscored = id.runSpecId.safeChars ∧
        GeneratedId.parseChars inst = .ok id.instanceId := by
  unfold parse parseChars
  constructor
  · intro h
    split at h
    · cases h
    · split at h
      · next safe inst parts =>
        obtain ⟨spec, instance_, container⟩ := ofParts_eq_ok_iff.1 h
        exact ⟨safe, inst, by rw [parts, ← container]; rfl, RunSpecId.ofSafeChars_eq_ok_iff.1 spec,
          instance_⟩
      · next safe inst cs parts =>
        obtain ⟨spec, instance_, container⟩ := ofParts_eq_ok_iff.1 h
        exact ⟨safe, inst, by rw [parts, ← container]; rfl, RunSpecId.ofSafeChars_eq_ok_iff.1 spec,
          instance_⟩
      · cases h
      · cases h
  · rintro ⟨safe, inst, parts, spec, instance_⟩
    have filled : s.toList ≠ [] := by
      intro empty
      rw [empty] at parts
      cases parts
    rw [if_neg filled, parts]
    have read := ofParts_eq_ok_iff.2 ⟨RunSpecId.ofSafeChars_eq_ok_iff.2 spec, instance_, rfl⟩
    cases hname : id.container with
    | none =>
      rw [hname] at read
      exact read
    | some name =>
      rw [hname] at read
      exact read

end TaskId

/-! ## Volumes -/

/-- A text is read as a volume if its parts spell those of the volume. -/
theorem VolumeId.parse_eq_ok_iff {s : String} {id : VolumeId} : parse s = .ok id ↔ ∃ safe uuid,
    s.toList.splitOn '#' = [safe, id.name.toList, uuid] ∧
      safe.map underscored = id.runSpecId.safeChars ∧ Uuid.parse? uuid = some id.uuid := by
  unfold parse parseChars
  constructor
  · intro h
    split at h
    · cases h
    · split at h
      · next safe name uuid parts =>
        split at h
        · cases h
        · split at h
          · split at h
            · cases h
            · next runSpecId spec =>
              split at h
              · cases h
              · next u read =>
                obtain rfl := Except.ok.inj h
                exact ⟨safe, uuid, by rw [parts, String.toList_ofList],
                  RunSpecId.ofSafeChars_eq_ok_iff.1 spec, read⟩
          · cases h
      · cases h
  · rintro ⟨safe, uuid, parts, spec, read⟩
    have filled : s.toList ≠ [] := by
      intro empty
      rw [empty] at parts
      cases parts
    have named := id.valid
    have some_name : id.name.toList.isEmpty = false := by
      simp only [isVolumeName, Bool.and_eq_true, Bool.not_eq_true'] at named
      exact named.1
    rw [if_neg filled, parts]
    simp only [some_name, named, RunSpecId.ofSafeChars_eq_ok_iff.2 spec, read, String.ofList_toList,
      Bool.false_eq_true, if_false, dite_true]

/-! ## One text for each spelling of the generated part -/

/-- The text of a task with the generated part as it is given. -/
def TaskId.spelling (id : TaskId) (inst : List Char) : List Char :=
  id.runSpecId.safeChars ++ '.' :: inst
    ++ match id.container with
      | some name => '.' :: name.text.toList
      | none => []

/-- The text of a volume with the generated part as it is given. -/
def VolumeId.spelling (id : VolumeId) (uuid : List Char) : List Char :=
  id.runSpecId.safeChars ++ '#' :: id.name.toList ++ '#' :: uuid

/-- The text that is written is the one with the generated part as it is written. -/
theorem TaskId.chars_eq_spelling (id : TaskId) : id.chars = id.spelling id.instanceId.chars := rfl

theorem VolumeId.chars_eq_spelling (id : VolumeId) : id.chars = id.spelling id.uuid.chars := rfl

theorem toList_textBefore {sep : Char} {s : String} {first : List Char} {rest : List (List Char)}
    (h : s.toList.splitOn sep = first :: rest) : (textBefore sep s).toList = first := by
  have head := head?_splitOn sep s.toList
  rw [h, List.head?_cons, Option.some.injEq] at head
  rw [textBefore, String.toList_ofList, head]

theorem eq_safeChars_of_shown {sep : Char} {s : String} {id : RunSpecId} {safe : List Char}
    {rest : List (List Char)} (parts : s.toList.splitOn sep = safe :: rest)
    (shown : textBefore sep s = id.safePath) : safe = id.safeChars := by
  rw [← toList_textBefore parts, shown, RunSpecId.safePath, String.toList_ofList]

/-- What is read as the path of a run spec is its safe path just if there is no slash in it. -/
theorem textBefore_eq_safePath_iff {sep : Char} {s : String} {id : RunSpecId} {safe : List Char}
    {rest : List (List Char)} (parts : s.toList.splitOn sep = safe :: rest)
    (h : safe.map underscored = id.safeChars) :
    textBefore sep s = id.safePath ↔ '/' ∉ (textBefore sep s).toList := by
  rw [toList_textBefore parts]
  constructor
  · intro shown slash
    rw [eq_safeChars_of_shown parts shown, ← h] at slash
    obtain ⟨c, -, hc⟩ := List.mem_map.1 slash
    unfold underscored at hc
    split at hc
    · cases hc
    · next other => exact other hc
  · intro slashless
    rw [← RunSpecId.ofList_eq_safePath h slashless, ← toList_textBefore parts, String.ofList_toList]

theorem TaskId.textBefore_iff {s : String} {id : TaskId} (h : parse s = .ok id) :
    textBefore '.' s = id.runSpecId.safePath ↔ '/' ∉ (textBefore '.' s).toList := by
  obtain ⟨safe, inst, parts, spec, -⟩ := parse_eq_ok_iff.1 h
  exact textBefore_eq_safePath_iff parts spec

theorem VolumeId.textBefore_iff {s : String} {id : VolumeId} (h : parse s = .ok id) :
    textBefore '#' s = id.runSpecId.safePath ↔ '/' ∉ (textBefore '#' s).toList := by
  obtain ⟨safe, uuid, parts, spec, -⟩ := parse_eq_ok_iff.1 h
  exact textBefore_eq_safePath_iff parts spec

/-- A task's text is put together from its parts. -/
theorem TaskId.toList_eq_spelling {s : String} {id : TaskId} (h : parse s = .ok id)
    (shown : textBefore '.' s = id.runSpecId.safePath) :
    ∃ inst, GeneratedId.parseChars inst = .ok id.instanceId ∧ s.toList = id.spelling inst := by
  obtain ⟨safe, inst, parts, -, generated⟩ := parse_eq_ok_iff.1 h
  refine ⟨inst, generated, ?_⟩
  have whole : ['.'].intercalate (s.toList.splitOn '.') = s.toList := List.intercalate_splitOn '.'
  rw [← whole, parts, eq_safeChars_of_shown parts shown]
  cases hname : id.container <;> simp [spelling, hname]

/-- A volume's text is put together from its parts. -/
theorem VolumeId.toList_eq_spelling {s : String} {id : VolumeId} (h : parse s = .ok id)
    (shown : textBefore '#' s = id.runSpecId.safePath) :
    ∃ uuid, Uuid.parse? uuid = some id.uuid ∧ s.toList = id.spelling uuid := by
  obtain ⟨safe, uuid, parts, -, read⟩ := parse_eq_ok_iff.1 h
  refine ⟨uuid, read, ?_⟩
  have whole : ['#'].intercalate (s.toList.splitOn '#') = s.toList := List.intercalate_splitOn '#'
  rw [← whole, parts, eq_safeChars_of_shown parts shown]
  simp [spelling]

/-- Names in a text are those of the identifier it is read as. What stands in front of the first
separator is the safe path of the run spec unless there is a slash in it, and then two texts of one
identifier differ in the generated part alone. -/
theorem spelled_once (s t : String) :
    (∀ id, TaskId.parse s = .ok id →
      (s.toList.splitOn '.')[2]? = id.container.map (·.text.toList) ∧
        (textBefore '.' s = id.runSpecId.safePath ↔ '/' ∉ (textBefore '.' s).toList)) ∧
    (∀ id, VolumeId.parse s = .ok id →
      (s.toList.splitOn '#')[1]? = some id.name.toList ∧
        (textBefore '#' s = id.runSpecId.safePath ↔ '/' ∉ (textBefore '#' s).toList)) ∧
    (∀ id, TaskId.parse s = .ok id → TaskId.parse t = .ok id →
      '/' ∉ (textBefore '.' s).toList → '/' ∉ (textBefore '.' t).toList →
        ∃ i j, s.toList = id.spelling i ∧ t.toList = id.spelling j ∧
          GeneratedId.parseChars i = .ok id.instanceId ∧
            GeneratedId.parseChars j = .ok id.instanceId) ∧
    (∀ id, VolumeId.parse s = .ok id → VolumeId.parse t = .ok id →
      '/' ∉ (textBefore '#' s).toList → '/' ∉ (textBefore '#' t).toList →
        ∃ u v, s.toList = id.spelling u ∧ t.toList = id.spelling v ∧
          Uuid.parse? u = some id.uuid ∧ Uuid.parse? v = some id.uuid) := by
  refine ⟨fun id h => ⟨?_, TaskId.textBefore_iff h⟩, fun id h => ⟨?_, VolumeId.textBefore_iff h⟩, ?_, ?_⟩
  · obtain ⟨safe, inst, parts, -, -⟩ := TaskId.parse_eq_ok_iff.1 h
    rw [parts]
    cases id.container <;> rfl
  · obtain ⟨safe, uuid, parts, -, -⟩ := VolumeId.parse_eq_ok_iff.1 h
    rw [parts]
    rfl
  · intro id hs ht slashless slashless'
    obtain ⟨i, readI, shownI⟩ := TaskId.toList_eq_spelling hs ((TaskId.textBefore_iff hs).2 slashless)
    obtain ⟨j, readJ, shownJ⟩ := TaskId.toList_eq_spelling ht ((TaskId.textBefore_iff ht).2 slashless')
    exact ⟨i, j, shownI, shownJ, readI, readJ⟩
  · intro id hs ht slashless slashless'
    obtain ⟨u, readU, shownU⟩ :=
      VolumeId.toList_eq_spelling hs ((VolumeId.textBefore_iff hs).2 slashless)
    obtain ⟨v, readV, shownV⟩ :=
      VolumeId.toList_eq_spelling ht ((VolumeId.textBefore_iff ht).2 slashless')
    exact ⟨u, v, shownU, shownV, readU, readV⟩

/-- The instance of a task may be in small letters, and a volume's name may hold a slash. -/
theorem spelled_once_sample : ∃ task volume,
    TaskId.parse "prod_web.inst_01hw95rx000000000000000001.app" = .ok task ∧
      task.runSpecId.safePath = "prod_web" ∧ some "app".toList = task.container.map (·.text.toList) ∧
    VolumeId.parse "prod_web#var/data#2f1c0000-1111-4222-8333-000000000001" = .ok volume ∧
      volume.runSpecId.safePath = "prod_web" ∧ some "var/data".toList = some volume.name.toList ∧
    ∃ i j, "prod_web.inst_01hw95rx000000000000000001.app".toList = task.spelling i ∧
      "prod_web.inst_01HW95RX000000000000000001.app".toList = task.spelling j := by
  obtain ⟨task, small, capital⟩ : ∃ task,
    TaskId.parse "prod_web.inst_01hw95rx000000000000000001.app" = .ok task ∧
      TaskId.parse "prod_web.inst_01HW95RX000000000000000001.app" = .ok task := ⟨_, rfl, rfl⟩
  obtain ⟨volume, read⟩ : ∃ volume,
    VolumeId.parse "prod_web#var/data#2f1c0000-1111-4222-8333-000000000001" = .ok volume := ⟨_, rfl⟩
  obtain ⟨tasks, -, pairs, -⟩ := spelled_once "prod_web.inst_01hw95rx000000000000000001.app"
    "prod_web.inst_01HW95RX000000000000000001.app"
  obtain ⟨-, volumes, -⟩ := spelled_once "prod_web#var/data#2f1c0000-1111-4222-8333-000000000001" ""
  obtain ⟨i, j, shown, shown', -⟩ := pairs task small capital (by decide) (by decide)
  have app : ("prod_web.inst_01hw95rx000000000000000001.app".toList.splitOn '.')[2]? =
    some "app".toList := by decide
  have data : ("prod_web#var/data#2f1c0000-1111-4222-8333-000000000001".toList.splitOn '#')[1]? =
    some "var/data".toList := by decide
  exact ⟨task, volume, small, ((tasks task small).2.2 (by decide)).symm,
    app.symm.trans (tasks task small).1, read, ((volumes volume read).2.2 (by decide)).symm,
    data.symm.trans (volumes volume read).1, i, j, shown, shown'⟩

/-- A slash in the path in front of the separator reads like an underscore there. -/
theorem Sample.spelled_twice : ∃ task volume,
    TaskId.parse "prod_web.inst_01HW95RX000000000000000001" = .ok task ∧
      TaskId.parse "prod/web.inst_01HW95RX000000000000000001" = .ok task ∧
      textBefore '.' "prod/web.inst_01HW95RX000000000000000001" ≠ task.runSpecId.safePath ∧
    VolumeId.parse "prod_web#data#2f1c0000-1111-4222-8333-000000000001" = .ok volume ∧
      VolumeId.parse "prod/web#data#2f1c0000-1111-4222-8333-000000000001" = .ok volume ∧
      textBefore '#' "prod/web#data#2f1c0000-1111-4222-8333-000000000001" ≠
        volume.runSpecId.safePath :=
  ⟨_, _, rfl, rfl, by decide, rfl, rfl, by decide⟩

end Placement
