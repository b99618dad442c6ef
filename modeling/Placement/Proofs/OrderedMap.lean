/-
Maps made of lists of entries, and the values of a map.

The view is look-up throughout: `find?_ofList_eq_some_iff` says what the map of a list with one value
a key holds, and `ofList_values` rebuilds a map from its values where each value knows its key.
-/
import Placement.OrderedMap

namespace Placement.OrderedMap

variable {κ α : Type} [Ord κ] [Std.TransOrd κ] [Std.LawfulEqOrd κ]

omit [Std.TransOrd κ] in
theorem ne_of_before {a b : κ} (before : compare a b = .lt) : a ≠ b := by
  rintro rfl
  rw [compare_refl] at before
  cases before

/-! ## Values -/

theorem mem_values {m : OrderedMap κ α} {v : α} : v ∈ m.values ↔ ∃ k, m.find? k = some v := by
  simp only [values, List.mem_map, find?_eq_some_iff]
  constructor
  · rintro ⟨e, he, rfl⟩
    exact ⟨e.1, he⟩
  · rintro ⟨k, hk⟩
    exact ⟨(k, v), hk, rfl⟩

/-- Values that know their keys stand in the order of these. -/
theorem pairwise_values {m : OrderedMap κ α} {key : α → κ}
    (h : ∀ k v, m.find? k = some v → key v = k) :
    m.values.Pairwise fun a b => compare (key a) (key b) = .lt := by
  rw [values, List.pairwise_map]
  refine m.ascending.imp_of_mem fun {e e'} he he' before => ?_
  rw [h e.1 e.2 ((find?_eq_some_iff m _ _).2 he), h e'.1 e'.2 ((find?_eq_some_iff m _ _).2 he')]
  exact before

omit [Std.TransOrd κ] [Std.LawfulEqOrd κ] in
theorem values_filter (p : α → Bool) (m : OrderedMap κ α) : (m.filter p).values = m.values.filter p := by
  rw [values, values, filter, List.filter_map]
  rfl

/-- A map without values is empty. -/
theorem find?_of_values_eq_nil {m : OrderedMap κ α} (h : m.values = []) (k : κ) :
    m.find? k = none := by
  rw [Option.eq_none_iff_forall_ne_some]
  intro v hv
  have : v ∈ m.values := mem_values.2 ⟨k, hv⟩
  simp [h] at this

omit [Std.TransOrd κ] in
/-- The values that pass a test are those elsewhere, and the one under `k` if it does. -/
theorem countP_values [DecidableEq κ] (m : OrderedMap κ α) (k : κ) (p : α → Bool) :
    m.values.countP p =
      (m.erase k).values.countP p + if (m.find? k).any p then 1 else 0 := by
  obtain ⟨l, h⟩ := m
  simp only [values, erase, find?]
  induction l with
  | nil => rfl
  | cons a rest ih =>
    obtain ⟨hhead, htail⟩ := List.pairwise_cons.1 h
    by_cases hk : k = a.1
    · -- The keys after this one are others.
      have others : rest.filter (fun e => compare k e.1 != .eq) = rest := by
        refine List.filter_eq_self.2 fun e he => ?_
        have := hhead e he
        rw [← hk] at this
        simp [this]
      have here : compare k a.1 = .eq := Std.LawfulEqCmp.compare_eq_iff_eq.2 hk
      simp [here, others, List.countP_cons]
    · have there : compare k a.1 ≠ .eq := fun heq => hk (Std.LawfulEqCmp.eq_of_compare heq)
      have ih := ih htail
      have kept : (compare k a.1 != .eq) = true := bne_iff_ne.2 there
      have passed : (compare k a.1 == .eq) = false := beq_eq_false_iff_ne.2 there
      simp only [List.filter_cons, kept, if_true, List.map_cons, List.countP_cons,
        List.find?_cons, passed, ih]
      exact Nat.add_right_comm _ _ _

/-! ## The map of a list -/

variable [DecidableEq κ]

theorem find?_foldl_insert (l : List (κ × α)) (m : OrderedMap κ α) (k : κ) :
    (l.foldl (fun m e => m.insert e.1 e.2) m).find? k =
      ((l.reverse.find? fun e => e.1 = k).map (·.2)).or (m.find? k) := by
  induction l generalizing m with
  | nil => simp
  | cons e rest ih =>
    rw [List.foldl_cons, ih, find?_insert, List.reverse_cons, List.find?_append]
    by_cases h : e.1 = k
    · cases rest.reverse.find? fun e => e.1 = k <;> simp [h]
    · have h' : k ≠ e.1 := fun he => h he.symm
      cases rest.reverse.find? fun e => e.1 = k <;> simp [h, h']

/-- The last entry of a key is the one that is found. -/
theorem find?_ofList (l : List (κ × α)) (k : κ) :
    (ofList l).find? k = (l.reverse.find? fun e => e.1 = k).map (·.2) := by
  rw [ofList, find?_foldl_insert, find?_empty, Option.or_none]

theorem mem_of_find?_ofList {l : List (κ × α)} {k : κ} {v : α} (h : (ofList l).find? k = some v) :
    (k, v) ∈ l := by
  rw [find?_ofList, Option.map_eq_some_iff] at h
  obtain ⟨⟨k', v'⟩, he, rfl⟩ := h
  have hmem := List.mem_of_find?_eq_some he
  have hkey : k' = k := by simpa using List.find?_some he
  rw [← hkey]
  exact List.mem_reverse.1 hmem

theorem isSome_find?_ofList {l : List (κ × α)} {e : κ × α} (h : e ∈ l) :
    ((ofList l).find? e.1).isSome = true := by
  rw [find?_ofList, Option.isSome_map, List.find?_isSome]
  exact ⟨e, List.mem_reverse.2 h, by simp⟩

/-- Where a list has at most one value for a key, it is this one that is found. -/
theorem find?_ofList_of_forall {l : List (κ × α)} {k : κ} {x : Option α}
    (h : ∀ v, (k, v) ∈ l ↔ x = some v) : (ofList l).find? k = x := by
  cases x with
  | none =>
    rw [Option.eq_none_iff_forall_ne_some]
    intro v found
    cases (h v).1 (mem_of_find?_ofList found)
  | some v =>
    obtain ⟨v', found⟩ := Option.isSome_iff_exists.1 (isSome_find?_ofList ((h v).2 rfl))
    rw [found]
    exact ((h v').1 (mem_of_find?_ofList found)).symm

/-- The map of a list in which no key has two values holds the entries of the list. -/
theorem find?_ofList_eq_some_iff {l : List (κ × α)}
    (unique : ∀ e ∈ l, ∀ e' ∈ l, e.1 = e'.1 → e.2 = e'.2) (k : κ) (v : α) :
    (ofList l).find? k = some v ↔ (k, v) ∈ l := by
  constructor
  · exact mem_of_find?_ofList
  · intro h
    obtain ⟨v', hv'⟩ := Option.isSome_iff_exists.1 (isSome_find?_ofList h)
    have hv : v = v' := unique _ h _ (mem_of_find?_ofList hv') rfl
    rw [hv]
    exact hv'

theorem ofList_entries (m : OrderedMap κ α) : ofList m.entries = m := by
  apply ext_find?
  intro k
  rw [Option.ext_iff]
  intro v
  rw [find?_ofList_eq_some_iff, find?_eq_some_iff]
  intro e he e' he' hkey
  have h := (find?_eq_some_iff m e.1 e.2).2 he
  rw [hkey, (find?_eq_some_iff m e'.1 e'.2).2 he'] at h
  exact (Option.some.inj h).symm

/-- What is put over a map hides what stood there. -/
theorem find?_union (m other : OrderedMap κ α) (k : κ) :
    (m.union other).find? k = (other.find? k).or (m.find? k) := by
  rw [union, find?_foldl_insert, ← find?_ofList, ofList_entries]

/-- A map whose values know their keys is the map of its values. -/
theorem ofList_values {m : OrderedMap κ α} {key : α → κ}
    (h : ∀ k v, m.find? k = some v → key v = k) : ofList (m.values.map fun v => (key v, v)) = m := by
  have : m.values.map (fun v => (key v, v)) = m.entries := by
    rw [values, List.map_map]
    refine (List.map_congr_left ?_).trans m.entries.map_id
    intro e he
    have hkey := h e.1 e.2 ((find?_eq_some_iff m e.1 e.2).2 he)
    simp [Function.comp_apply, hkey]
  rw [this, ofList_entries]

end Placement.OrderedMap
