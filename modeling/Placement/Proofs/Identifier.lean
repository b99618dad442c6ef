/-
Texts of identifiers, and what is read back from them.

* `Ulid.parse_chars`: 26 digits of base 32 give their 128 bits back.
* `RunSpecId.ofSafeChars_safeChars`: a path is read back from its safe form, since a segment holds
  neither a slash nor an underscore.
* `TaskId.parse_text`: no part of a task's id holds a dot, so the parts come back as they were joined.
* `VolumeId.parse_text`: likewise for volumes, whose parts hold no `#`.
-/
import Mathlib.Algebra.Group.Nat.Defs
import Placement.Id.TaskId
import Placement.Id.VolumeId

namespace Placement

/-! ## Base 32 -/

namespace Ulid

theorem digitValue?_digitChar (d : Nat) : digitValue? (digitChar d) = some (d % 32) := by
  have small : ∀ d, d < 32 → digitValue? (digitChar d) = some d := by decide +kernel
  have h := small (d % 32) (Nat.mod_lt d (by decide))
  rw [digitChar, Nat.mod_mod] at h
  exact h

theorem mem_digits {count n : Nat} {c : Char} (h : c ∈ digits count n) : ∃ d, c = digitChar d := by
  induction count generalizing n with
  | zero => simp [digits] at h
  | succ count ih =>
    rw [digits, List.mem_append] at h
    rcases h with h | h
    · exact ih h
    · exact ⟨n, List.mem_singleton.1 h⟩

/-- Digits are characters of one byte. -/
theorem utf8Size_digitChar (d : Nat) : (digitChar d).utf8Size = 1 := by
  have small : ∀ d, d < 32 → (digitChar d).utf8Size = 1 := by decide +kernel
  have h := small (d % 32) (Nat.mod_lt d (by decide))
  rw [digitChar, Nat.mod_mod] at h
  exact h

theorem utf8ByteSize_digits (count n : Nat) :
    (String.ofList (digits count n)).utf8ByteSize = count := by
  induction count generalizing n with
  | zero => rfl
  | succ count ih =>
    have last : (String.ofList [digitChar n]).utf8ByteSize = 1 := by
      rw [← String.singleton_eq_ofList, String.utf8ByteSize_singleton, utf8Size_digitChar]
    rw [digits, String.ofList_append, String.utf8ByteSize_append, ih, last]

/-- Digits give the number back as far as they hold it. -/
theorem value?_digits (count n : Nat) : value? (digits count n) = some (n % 32 ^ count) := by
  induction count generalizing n with
  | zero => simp [digits, value?, Nat.mod_one]
  | succ count ih =>
    have step : n / 32 % 32 ^ count * 32 + n % 32 = n % 32 ^ (count + 1) := by
      rw [Nat.pow_succ, Nat.mul_comm (32 ^ count), Nat.mod_mul]
      omega
    have ih := ih (n / 32)
    unfold value? at ih ⊢
    rw [digits, List.foldlM_append, ih]
    simp [digitValue?_digitChar, step]

theorem parse_chars (u : Ulid) : parse u.chars = .ok u := by
  -- 26 digits hold 130 bits, so nothing is lost.
  have bound : u.bits.val < 0x100000000000000000000000000000000 := u.bits.isLt
  have held : u.bits.val % 32 ^ 26 = u.bits.val :=
    Nat.mod_eq_of_lt (Nat.lt_trans bound (by decide))
  have low : u.bits.val % 0x100000000000000000000000000000000 = u.bits.val :=
    Nat.mod_eq_of_lt bound
  unfold parse chars
  rw [utf8ByteSize_digits, value?_digits, held]
  simp only [ne_eq, not_true_eq_false, if_false]
  exact congrArg Except.ok (congrArg mk (Fin.ext low))

end Ulid

/-! ## Generated identifiers -/

/-- An underscore ends the tag, and does not occur in it. -/
theorem IdKind.underscore_not_mem_tag (kind : IdKind) : '_' ∉ kind.tag.toList := by
  cases kind <;> decide

theorem Ulid.dot_not_mem_chars (u : Ulid) : '.' ∉ u.chars := by
  intro h
  obtain ⟨d, hd⟩ := mem_digits h
  have value := digitValue?_digitChar d
  rw [← hd] at value
  exact nomatch value

namespace GeneratedId

variable {kind : IdKind}

theorem parseChars_chars (id : GeneratedId kind) : parseChars id.chars = .ok id := by
  have tag : ∀ c ∈ kind.tag.toList, decide (c ≠ '_') = true := fun c hc =>
    decide_eq_true fun h => kind.underscore_not_mem_tag (h ▸ hc)
  have skipped : id.chars.dropWhile (· ≠ '_') = '_' :: id.ulid.chars := by
    rw [chars, List.dropWhile_append_of_pos tag]
    simp
  have taken : id.chars.takeWhile (· ≠ '_') = kind.tag.toList := by
    rw [chars, List.takeWhile_append_of_pos tag]
    simp
  have some_chars : id.chars ≠ [] := by simp [chars]
  unfold parseChars
  rw [if_neg some_chars, skipped, taken]
  simp [Ulid.parse_chars]

theorem dot_not_mem_chars (id : GeneratedId kind) : '.' ∉ id.chars := by
  have tag : '.' ∉ kind.tag.toList := by cases kind <;> decide
  simp [chars, tag, id.ulid.dot_not_mem_chars]

end GeneratedId

/-! ## Paths -/

/-- What is split is in one of the parts, or is the separator. -/
theorem mem_splitOn {sep c : Char} {cs : List Char} (h : c ∈ cs) :
    c = sep ∨ ∃ part ∈ cs.splitOn sep, c ∈ part := by
  induction cs with
  | nil => simp at h
  | cons a rest ih =>
    rw [List.splitOn_cons_eq_if_modifyHead]
    obtain ⟨head, tail, parts⟩ := List.exists_cons_of_ne_nil (List.splitOn_ne_nil sep rest)
    by_cases ha : a = sep
    · rcases List.mem_cons.1 h with rfl | h
      · exact .inl ha
      · refine (ih h).imp_right fun ⟨part, hpart, hc⟩ => ⟨part, ?_, hc⟩
        simp [ha, hpart]
    · rw [parts] at ih
      simp only [ha, beq_iff_eq, if_false, parts, List.modifyHead_cons]
      rcases List.mem_cons.1 h with rfl | h
      · exact .inr ⟨c :: head, by simp, by simp⟩
      · refine (ih h).imp_right fun ⟨part, hpart, hc⟩ => ?_
        rcases List.mem_cons.1 hpart with rfl | hpart
        · exact ⟨a :: part, by simp, by simp [hc]⟩
        · exact ⟨part, by simp [hpart], hc⟩

/-- A segment holds a character, and only such as may stand in one. -/
theorem segment_of_segmentError? {cs : List Char} (h : segmentError? cs = none) :
    cs ≠ [] ∧ ∀ c ∈ cs, isSegmentChar c = true := by
  have fault : segmentFault? cs = none := by simpa [segmentError?] using h
  unfold segmentFault? at fault
  split at fault
  · cases fault
  · next filled =>
    split at fault
    · cases fault
    · next valid => exact ⟨by simpa using filled, by simpa using valid⟩

namespace RunSpecId

/-- A path is a slash, then a character of a segment, then such characters and slashes. -/
theorem path_chars (id : RunSpecId) : ∃ c rest, id.path.toList = '/' :: c :: rest ∧
    isSegmentChar c = true ∧ ∀ d ∈ c :: rest, d = '/' ∨ isSegmentChar d = true := by
  have valid := id.valid
  unfold pathError? at valid
  split at valid
  · cases valid
  · next rest hpath =>
    split at valid
    · cases valid
    · have segments : ∀ part ∈ rest.splitOn '/', part ≠ [] ∧ ∀ c ∈ part, isSegmentChar c = true :=
        fun part hpart => segment_of_segmentError? (List.findSome?_eq_none_iff.1 valid part hpart)
      have inside : ∀ d ∈ rest, d = '/' ∨ isSegmentChar d = true := fun d hd =>
        (mem_splitOn hd).imp_right fun ⟨part, hpart, hc⟩ => (segments part hpart).2 d hc
      cases rest with
      | nil => simp at segments
      | cons c rest =>
        refine ⟨c, rest, hpath, (inside c List.mem_cons_self).resolve_left ?_, inside⟩
        intro hc
        -- A slash in front would make the first segment empty.
        refine (segments [] ?_).1 rfl
        rw [hc, List.splitOn_cons_eq_if_modifyHead]
        simp
  · cases valid

theorem isSegmentChar_ne {c d : Char} (h : isSegmentChar c = true) (hd : isSegmentChar d = false) :
    c ≠ d := by
  rintro rfl
  rw [h] at hd
  cases hd

/-- The relative path of a path is all but its slash in front. -/
theorem path_eq_relative (id : RunSpecId) : id.path.toList = '/' :: id.relative ∧
    id.relative ≠ [] ∧ ∀ c ∈ id.relative, c = '/' ∨ isSegmentChar c = true := by
  obtain ⟨c, rest, hpath, hc, hrest⟩ := id.path_chars
  have first : c ≠ '/' := isSegmentChar_ne hc (by decide)
  have hrel : id.relative = c :: rest := by
    rw [relative, hpath]
    simp [first]
  rw [hrel]
  exact ⟨hpath, by simp, hrest⟩

theorem parseChars_path (id : RunSpecId) : parseChars id.path.toList = .ok id := by
  unfold parseChars
  split
  · next e h =>
    rw [id.valid] at h
    cases h
  · simp only [String.ofList_toList]

/-- A path is read back from its safe form. -/
theorem ofSafeChars_safeChars (id : RunSpecId) : ofSafeChars id.safeChars = .ok id := by
  obtain ⟨hpath, filled, chars⟩ := id.path_eq_relative
  have back : id.safeChars.map (fun c => if c = '_' then '/' else c) = id.relative := by
    rw [safeChars, List.map_map]
    refine (List.map_congr_left ?_).trans id.relative.map_id
    intro c hc
    rcases chars c hc with rfl | hc
    · rfl
    · have slash : c ≠ '/' := isSegmentChar_ne hc (by decide)
      have underscore : c ≠ '_' := isSegmentChar_ne hc (by decide)
      simp [slash, underscore]
  have some_chars : id.safeChars ≠ [] := by simpa [safeChars] using filled
  rw [ofSafeChars, if_neg some_chars, back, ← hpath, parseChars_path]

/-- The safe form holds underscores and characters of segments only. -/
theorem mem_safeChars {id : RunSpecId} {c : Char} (h : c ∈ id.safeChars) :
    c = '_' ∨ isSegmentChar c = true := by
  obtain ⟨d, hd, rfl⟩ := List.mem_map.1 h
  rcases id.path_eq_relative.2.2 d hd with rfl | hd'
  · exact .inl rfl
  · have slash : d ≠ '/' := isSegmentChar_ne hd' (by decide)
    simp [slash, hd']

end RunSpecId

/-! ## Tasks -/

namespace ContainerName

theorem parseChars_text (name : ContainerName) : parseChars name.text.toList = .ok name := by
  unfold parseChars
  split
  · next fault h =>
    rw [name.valid] at h
    cases h
  · simp only [String.ofList_toList]

theorem isSegmentChar_of_mem (name : ContainerName) {c : Char} (h : c ∈ name.text.toList) :
    isSegmentChar c = true := by
  have fault : segmentError? name.text.toList = none := by rw [segmentError?, name.valid]; rfl
  exact (segment_of_segmentError? fault).2 c h

end ContainerName

namespace TaskId

theorem ofParts_parts (id : TaskId) :
    ofParts id.runSpecId.safeChars id.instanceId.chars (id.container.map (·.text.toList)) =
      .ok id := by
  obtain ⟨runSpecId, instanceId, container⟩ := id
  cases container with
  | none =>
    simp only [ofParts, RunSpecId.ofSafeChars_safeChars, GeneratedId.parseChars_chars]
    rfl
  | some name =>
    simp only [ofParts, RunSpecId.ofSafeChars_safeChars, GeneratedId.parseChars_chars,
      Option.map_some, ContainerName.parseChars_text]
    rfl

/-- No part of a task's id holds a dot, so the parts come back as they were joined. -/
theorem parseChars_chars (id : TaskId) : parseChars id.chars = .ok id := by
  have safe : '.' ∉ id.runSpecId.safeChars := fun h => by
    rcases RunSpecId.mem_safeChars h with h | h <;> exact absurd h (by decide)
  have inst := id.instanceId.dot_not_mem_chars
  have some_chars : id.chars ≠ [] := by simp [chars]
  unfold parseChars
  rw [if_neg some_chars, ← ofParts_parts id, chars]
  cases id.container with
  | none =>
    rw [List.append_nil, List.splitOn_append_cons_self_of_not_mem safe,
      List.splitOn_eq_singleton inst]
    rfl
  | some name =>
    have dot : '.' ∉ name.text.toList := fun h => absurd (name.isSegmentChar_of_mem h) (by decide)
    rw [List.append_assoc, List.cons_append, List.splitOn_append_cons_self_of_not_mem safe,
      List.splitOn_append_cons_self_of_not_mem inst, List.splitOn_eq_singleton dot]
    rfl

/-- The text of a task's id is read back as that id. -/
theorem parse_text (id : TaskId) : parse id.text = .ok id := by
  rw [parse, text, String.toList_ofList]
  exact id.parseChars_chars

end TaskId

/-! ## Volumes -/

namespace Uuid

theorem digitValue?_digitChar (d : Nat) : digitValue? (digitChar d) = some (d % 16) := by
  have small : ∀ d, d < 16 → digitValue? (digitChar d) = some d := by decide +kernel
  have h := small (d % 16) (Nat.mod_lt d (by decide))
  rw [digitChar, Nat.mod_mod] at h
  exact h

theorem mem_digits {count n : Nat} {c : Char} (h : c ∈ digits count n) : ∃ d, c = digitChar d := by
  induction count generalizing n with
  | zero => simp [digits] at h
  | succ count ih =>
    rw [digits, List.mem_append] at h
    rcases h with h | h
    · exact ih h
    · exact ⟨n, List.mem_singleton.1 h⟩

@[simp] theorem length_digits (count n : Nat) : (digits count n).length = count := by
  induction count generalizing n with
  | zero => rfl
  | succ count ih => simp [digits, ih]

/-- Digits give the number back as far as they hold it. -/
theorem value?_digits (count n : Nat) : value? (digits count n) = some (n % 16 ^ count) := by
  induction count generalizing n with
  | zero => simp [digits, value?, Nat.mod_one]
  | succ count ih =>
    have step : n / 16 % 16 ^ count * 16 + n % 16 = n % 16 ^ (count + 1) := by
      rw [Nat.pow_succ, Nat.mul_comm (16 ^ count), Nat.mod_mul]
      omega
    have ih := ih (n / 16)
    unfold value? at ih ⊢
    rw [digits, List.foldlM_append, ih]
    simp [digitValue?_digitChar, step]

/-- A character without a value is not a digit. -/
theorem not_mem_digits {c : Char} (h : digitValue? c = none) (count n : Nat) :
    c ∉ digits count n := by
  intro hc
  obtain ⟨d, rfl⟩ := mem_digits hc
  rw [digitValue?_digitChar] at h
  cases h

/-- The groups hold the characters that were cut, and dashes. -/
theorem mem_hyphenated {cs : List Char} {c : Char} (h : c ∈ hyphenated cs) : c = '-' ∨ c ∈ cs := by
  simp only [hyphenated, List.mem_append, List.mem_cons, or_assoc] at h
  have taken : ∀ m n, c ∈ (cs.drop m).take n → c ∈ cs :=
    fun m n hc => List.mem_of_mem_drop (List.mem_of_mem_take hc)
  rcases h with h | h | h | h | h | h | h | h | h
  · exact .inr (List.mem_of_mem_take h)
  · exact .inl h
  · exact .inr (taken _ _ h)
  · exact .inl h
  · exact .inr (taken _ _ h)
  · exact .inl h
  · exact .inr (taken _ _ h)
  · exact .inl h
  · exact .inr (List.mem_of_mem_drop h)

/-- Without its dashes, what was cut into groups is whole again. -/
theorem filter_hyphenated {cs : List Char} (h : '-' ∉ cs) :
    (hyphenated cs).filter (· ≠ '-') = cs := by
  have kept : ∀ m n, ((cs.drop m).take n).filter (· ≠ '-') = (cs.drop m).take n := fun m n =>
    List.filter_eq_self.2 fun c hc => decide_eq_true fun heq =>
      h (heq ▸ List.mem_of_mem_drop (List.mem_of_mem_take hc))
  have first := kept 0 8
  have last : (cs.drop 20).filter (· ≠ '-') = cs.drop 20 :=
    List.filter_eq_self.2 fun c hc => decide_eq_true fun heq => h (heq ▸ List.mem_of_mem_drop hc)
  have whole : cs.take 8 ++ ((cs.drop 8).take 4 ++ ((cs.drop 12).take 4 ++
      ((cs.drop 16).take 4 ++ cs.drop 20))) = cs := by
    rw [show cs.drop 20 = (cs.drop 16).drop 4 by rw [List.drop_drop], List.take_append_drop,
      show cs.drop 16 = (cs.drop 12).drop 4 by rw [List.drop_drop], List.take_append_drop,
      show cs.drop 12 = (cs.drop 8).drop 4 by rw [List.drop_drop], List.take_append_drop,
      List.take_append_drop]
  rw [List.drop_zero] at first
  simp only [hyphenated, List.filter_append, List.filter_cons, first, kept, last]
  simpa using whole

theorem parse?_chars (u : Uuid) : parse? u.chars = some u := by
  have bound : u.bits.val < 0x100000000000000000000000000000000 := u.bits.isLt
  have held : u.bits.val % 16 ^ 32 = u.bits.val := Nat.mod_eq_of_lt (Nat.lt_of_lt_of_eq bound rfl)
  have low : u.bits.val % 0x100000000000000000000000000000000 = u.bits.val :=
    Nat.mod_eq_of_lt bound
  have dashes : '-' ∉ digits 32 u.bits.val := not_mem_digits (by decide) _ _
  have length : u.chars.length = 36 := by simp [chars, hyphenated]
  unfold parse?
  rw [if_neg (by rw [length]; decide), if_pos length, parseHyphenated?]
  simp only [chars, filter_hyphenated dashes, if_true]
  rw [parseSimple?, if_pos (length_digits _ _), value?_digits, held]
  exact congrArg some (congrArg mk (Fin.ext low))

end Uuid

namespace VolumeId

/-- No part of a volume's id holds a `#`, so the parts come back as they were joined. -/
theorem parseChars_chars (id : VolumeId) : parseChars id.chars = .ok id := by
  have safe : '#' ∉ id.runSpecId.safeChars := fun h => by
    rcases RunSpecId.mem_safeChars h with h | h <;> exact absurd h (by decide)
  have named := id.valid
  simp only [isVolumeName, Bool.and_eq_true, Bool.not_eq_true', List.contains_eq_mem,
    decide_eq_false_iff_not] at named
  have uuid : '#' ∉ id.uuid.chars := by
    intro h
    rcases Uuid.mem_hyphenated h with h | h
    · exact absurd h (by decide)
    · exact Uuid.not_mem_digits (by decide) _ _ h
  have some_chars : id.chars ≠ [] := by simp [chars]
  unfold parseChars
  rw [if_neg some_chars, chars, List.append_assoc, List.cons_append,
    List.splitOn_append_cons_self_of_not_mem safe,
    List.splitOn_append_cons_self_of_not_mem named.2, List.splitOn_eq_singleton uuid]
  simp only [named.1, id.valid, RunSpecId.ofSafeChars_safeChars, Uuid.parse?_chars,
    String.ofList_toList, Bool.false_eq_true, if_false, dite_true]

/-- The text of a volume's id is read back as that id. -/
theorem parse_text (id : VolumeId) : parse id.text = .ok id := by
  rw [parse, text, String.toList_ofList]
  exact id.parseChars_chars

end VolumeId

end Placement
