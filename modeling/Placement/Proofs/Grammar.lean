/-
Which texts name a workload, and that no two identifiers share a text.

* `IsPath` is the grammar of paths: segments, each with a slash in front. `RunSpecId.isOk_parse_iff` says
  that reading accepts what the grammar has and nothing else, `RunSpecId.path_of_parse` that nothing of
  it is changed.
* `identifiers_read_back` adds that paths come back from their safe form, and tasks and volumes from
  their texts.
-/
import Placement.Proofs.Identifier

namespace Placement

/-! ## The grammar of paths -/

/-- One or more of `a` to `z`, `0` to `9` and dashes, with no dash at either end. -/
structure IsSegment (cs : List Char) : Prop where
  filled : cs ≠ []
  allowed : ∀ c ∈ cs, ('a' ≤ c ∧ c ≤ 'z') ∨ ('0' ≤ c ∧ c ≤ '9') ∨ c = '-'
  first : cs.head? ≠ some '-'
  last : cs.getLast? ≠ some '-'

/-- One or more segments, each with a slash in front. -/
def IsPath (cs : List Char) : Prop :=
  ∃ segments : List (List Char), segments ≠ [] ∧ (∀ part ∈ segments, IsSegment part) ∧
    cs = segments.flatMap ('/' :: ·)

theorem isSegmentChar_iff {c : Char} :
    isSegmentChar c = true ↔ ('a' ≤ c ∧ c ≤ 'z') ∨ ('0' ≤ c ∧ c ≤ '9') ∨ c = '-' := by
  simp only [isSegmentChar, Char.isDigit, Bool.or_eq_true, Bool.and_eq_true, decide_eq_true_eq,
    beq_iff_eq, or_assoc]
  rfl

/-- Nothing is wrong with a text just if it is a segment. -/
theorem segmentError?_eq_none_iff {cs : List Char} : segmentError? cs = none ↔ IsSegment cs := by
  have chars : cs.all isSegmentChar = true ↔
      ∀ c ∈ cs, ('a' ≤ c ∧ c ≤ 'z') ∨ ('0' ≤ c ∧ c ≤ '9') ∨ c = '-' := by
    rw [List.all_eq_true]
    exact forall₂_congr fun c _ => isSegmentChar_iff
  have filled : cs.isEmpty = false ↔ cs ≠ [] := List.isEmpty_eq_false_iff
  unfold segmentError? segmentFault?
  constructor
  · intro h
    split at h
    · cases h
    · next nonempty =>
      split at h
      · cases h
      · next valid =>
        split at h
        · cases h
        · next ends =>
          simp only [Bool.or_eq_true, beq_iff_eq, not_or] at ends
          exact ⟨filled.1 (Bool.eq_false_iff.2 nonempty), chars.1 (by simpa using valid), ends.1, ends.2⟩
  · intro h
    simp [h.filled, chars.2 h.allowed, h.first, h.last]

/-- A slash in front of each is a slash between them, and one in front of all. -/
theorem flatMap_slash (part : List Char) (rest : List (List Char)) :
    (part :: rest).flatMap ('/' :: ·) = '/' :: ['/'].intercalate (part :: rest) := by
  induction rest generalizing part with
  | nil => simp
  | cons next rest ih =>
    rw [List.flatMap_cons, ih next, List.intercalate_cons_cons]
    simp

/-- No segment holds a slash. -/
theorem IsSegment.slash_not_mem {cs : List Char} (h : IsSegment cs) : '/' ∉ cs :=
  fun hmem => absurd (isSegmentChar_iff.2 (h.allowed '/' hmem)) (by decide)

/-- Nothing is wrong with a text just if it is a path. -/
theorem pathError?_eq_none_iff {cs : List Char} : pathError? cs = none ↔ IsPath cs := by
  constructor
  · intro h
    unfold pathError? at h
    split at h
    · cases h
    · next rest =>
      split at h
      · cases h
      · have parts : ∀ part ∈ rest.splitOn '/', IsSegment part := fun part hpart =>
          segmentError?_eq_none_iff.1 (List.findSome?_eq_none_iff.1 h part hpart)
        obtain ⟨part, more, split⟩ := List.exists_cons_of_ne_nil (List.splitOn_ne_nil '/' rest)
        refine ⟨rest.splitOn '/', List.splitOn_ne_nil '/' rest, parts, ?_⟩
        rw [split, flatMap_slash, ← split, List.intercalate_splitOn]
    · cases h
  · rintro ⟨segments, some_part, valid, rfl⟩
    obtain ⟨part, more, rfl⟩ := List.exists_cons_of_ne_nil some_part
    have parts : (['/'].intercalate (part :: more)).splitOn '/' = part :: more :=
      List.splitOn_intercalate '/' (fun l hl => (valid l hl).slash_not_mem) (by simp)
    have filled : ['/'].intercalate (part :: more) ≠ [] := by
      intro empty
      rw [empty] at parts
      have first := (List.cons.inj parts).1
      exact (valid part List.mem_cons_self).filled first.symm
    rw [flatMap_slash]
    simp only [pathError?, List.isEmpty_iff, if_neg filled, parts, List.findSome?_eq_none_iff]
    exact fun l hl => segmentError?_eq_none_iff.2 (valid l hl)

namespace RunSpecId

/-- What is read shows as it was written. -/
theorem path_of_parse {s : String} {id : RunSpecId} (h : parse s = .ok id) : id.path = s := by
  unfold parse parseChars at h
  split at h
  · cases h
  · obtain rfl := Except.ok.inj h
    exact String.ofList_toList

/-- The path of a workload reads as that workload. -/
theorem parse_path (id : RunSpecId) : parse id.path = .ok id := id.parseChars_path

/-- Reading accepts the texts of the grammar, and no others. -/
theorem isOk_parse_iff {s : String} : (∃ id, parse s = .ok id) ↔ IsPath s.toList := by
  rw [← pathError?_eq_none_iff]
  constructor
  · rintro ⟨id, h⟩
    rw [← path_of_parse h]
    exact id.valid
  · intro h
    exact ⟨⟨s, h⟩, parse_path ⟨s, h⟩⟩

theorem ofSafePath_safePath (id : RunSpecId) : ofSafePath id.safePath = .ok id := by
  rw [ofSafePath, safePath, String.toList_ofList]
  exact id.ofSafeChars_safeChars

end RunSpecId

/-! ## Texts and identifiers -/

/-- What can be read back from its text is determined by it. -/
theorem injective_of_readBack {α ε : Type} {text : α → String} {parse : String → Except ε α}
    (h : ∀ a, parse (text a) = .ok a) : Function.Injective text := by
  intro a b same
  have read := h a
  rw [same, h b] at read
  exact (Except.ok.inj read).symm

/-- Names of workloads are the paths of the grammar, each shown as it was written. They come back from
their safe form, and the names of tasks and volumes come back from their texts; so no two identifiers
of one sort share a text. -/
theorem identifiers_read_back :
    (∀ s : String, (∃ id, RunSpecId.parse s = .ok id) ↔ IsPath s.toList) ∧
    (∀ s id, RunSpecId.parse s = .ok id → id.path = s) ∧
    (∀ id : RunSpecId, RunSpecId.ofSafePath id.safePath = .ok id) ∧
    (∀ (runSpecId : RunSpecId) (instanceId : InstanceId) (container : Option ContainerName),
      TaskId.parse (TaskId.text ⟨runSpecId, instanceId, container⟩) =
        .ok ⟨runSpecId, instanceId, container⟩) ∧
    (∀ (runSpecId : RunSpecId) (containerPath : String) (uuid : Uuid) (id : VolumeId),
      VolumeId.forPath runSpecId containerPath uuid = .ok id → VolumeId.parse id.text = .ok id) ∧
    Function.Injective RunSpecId.path ∧ Function.Injective TaskId.text ∧
    Function.Injective VolumeId.text := by
  refine ⟨fun s => RunSpecId.isOk_parse_iff, fun s id => RunSpecId.path_of_parse,
    RunSpecId.ofSafePath_safePath, ?_, ?_, ?_, ?_, ?_⟩
  · intro runSpecId instanceId container
    exact TaskId.parse_text ⟨runSpecId, instanceId, container⟩
  · intro _ _ _ id _
    exact id.parse_text
  · exact injective_of_readBack RunSpecId.parse_path
  · exact injective_of_readBack TaskId.parse_text
  · exact injective_of_readBack VolumeId.parse_text

/-- Two segments make a path, and a volume at `/var/data` is called `var_data`. -/
theorem identifiers_read_back_sample : IsPath "/prod/web-1".toList ∧
    ∃ web data, RunSpecId.parse "/prod/web-1" = .ok web ∧ web.path = "/prod/web-1" ∧
      VolumeId.forPath web "/var/data" (.ofNat 3) = .ok data ∧ data.name = "var_data" ∧
      VolumeId.parse data.text = .ok data := by
  obtain ⟨accepted, shown, -, -, volumes, -⟩ := identifiers_read_back
  have path : IsPath "/prod/web-1".toList :=
    ⟨["prod".toList, "web-1".toList], by simp, fun part hpart =>
      segmentError?_eq_none_iff.1 (by revert part; decide), rfl⟩
  obtain ⟨web, read⟩ := (accepted "/prod/web-1").2 path
  have made : VolumeId.forPath web "/var/data" (.ofNat 3) =
      .ok ⟨web, "var_data", .ofNat 3, by decide⟩ := rfl
  exact ⟨path, web, _, read, shown _ web read, made, rfl, volumes _ _ _ _ made⟩

end Placement
