/-
Finite maps kept as entries in strictly ascending key order. The order is part of the type, so two
maps with the same look-ups are equal values (`ext_find?`), and listing a map lists it by key.

Main statements: `find?_insert`, `find?_erase` and `ext_find?`.
-/

namespace Placement

/-- A finite map whose entries stand in strictly ascending key order. -/
structure OrderedMap (κ α : Type) [Ord κ] where
  entries : List (κ × α)
  ascending : entries.Pairwise (fun a b => compare a.1 b.1 = .lt)
  deriving DecidableEq, Repr

namespace OrderedMap

variable {κ α β : Type} [Ord κ]

/-! ## Reading -/

/-- The map without entries. -/
def empty : OrderedMap κ α := ⟨[], List.Pairwise.nil⟩

instance : EmptyCollection (OrderedMap κ α) := ⟨empty⟩

instance : Inhabited (OrderedMap κ α) := ⟨empty⟩

def isEmpty (m : OrderedMap κ α) : Bool := m.entries.isEmpty

def size (m : OrderedMap κ α) : Nat := m.entries.length

/-- Keys, ascending. -/
def keys (m : OrderedMap κ α) : List κ := m.entries.map (·.1)

/-- Values in the order of their keys. -/
def values (m : OrderedMap κ α) : List α := m.entries.map (·.2)

/-- The value under key `k`. -/
def find? (m : OrderedMap κ α) (k : κ) : Option α :=
  (m.entries.find? (fun e => compare k e.1 == .eq)).map (·.2)

def contains (m : OrderedMap κ α) (k : κ) : Bool := (m.find? k).isSome

/-! ## Changing -/

/-- Puts `v` under `k` in a list of entries, at the place of `k` in the order. -/
def insertEntry (k : κ) (v : α) : List (κ × α) → List (κ × α)
  | [] => [(k, v)]
  | e :: rest =>
    match compare k e.1 with
    | .lt => (k, v) :: e :: rest
    | .eq => (k, v) :: rest
    | .gt => e :: insertEntry k v rest

theorem mem_insertEntry {k : κ} {v : α} {l : List (κ × α)} {e : κ × α}
    (h : e ∈ insertEntry k v l) : e = (k, v) ∨ e ∈ l := by
  induction l with
  | nil => simpa [insertEntry] using h
  | cons a rest ih =>
    simp only [insertEntry] at h
    split at h
    · simpa using h
    · simp only [List.mem_cons] at h ⊢
      exact h.imp_right Or.inr
    · simp only [List.mem_cons] at h ⊢
      rcases h with h | h
      · exact Or.inr (Or.inl h)
      · exact (ih h).imp_right Or.inr

theorem pairwise_insertEntry [Std.TransOrd κ] (k : κ) (v : α) {l : List (κ × α)}
    (h : l.Pairwise (fun a b => compare a.1 b.1 = .lt)) :
    (insertEntry k v l).Pairwise (fun a b => compare a.1 b.1 = .lt) := by
  induction l with
  | nil => simp [insertEntry]
  | cons a rest ih =>
    have ⟨hhead, htail⟩ := List.pairwise_cons.1 h
    simp only [insertEntry]
    split
    · next hlt =>
      refine List.pairwise_cons.2 ⟨fun b hb => ?_, h⟩
      rcases List.mem_cons.1 hb with rfl | hb
      · exact hlt
      · exact Std.TransCmp.lt_trans hlt (hhead b hb)
    · next heq =>
      exact List.pairwise_cons.2
        ⟨fun b hb => Std.TransCmp.lt_of_eq_of_lt heq (hhead b hb), htail⟩
    · next hgt =>
      refine List.pairwise_cons.2 ⟨fun b hb => ?_, ih htail⟩
      rcases mem_insertEntry hb with rfl | hb
      · exact Std.OrientedCmp.gt_iff_lt.1 hgt
      · exact hhead b hb

/-- The map with `v` under `k`, in place of what stood there. -/
def insert [Std.TransOrd κ] (m : OrderedMap κ α) (k : κ) (v : α) : OrderedMap κ α :=
  ⟨insertEntry k v m.entries, pairwise_insertEntry k v m.ascending⟩

/-- The map without an entry under `k`. -/
def erase (m : OrderedMap κ α) (k : κ) : OrderedMap κ α :=
  ⟨m.entries.filter (fun e => compare k e.1 != .eq), m.ascending.filter _⟩

/-- The entries whose value passes the test. -/
def filter (p : α → Bool) (m : OrderedMap κ α) : OrderedMap κ α :=
  ⟨m.entries.filter (fun e => p e.2), m.ascending.filter _⟩

/-- The map with every value replaced by its image. -/
def map (f : α → β) (m : OrderedMap κ α) : OrderedMap κ β :=
  ⟨m.entries.map (fun e => (e.1, f e.2)), by
    simpa [List.pairwise_map] using m.ascending⟩

/-- The map of a list of entries; of two entries under one key the later stands. -/
def ofList [Std.TransOrd κ] (l : List (κ × α)) : OrderedMap κ α :=
  l.foldl (fun m e => m.insert e.1 e.2) ∅

/-- The map `m` with the entries of `other` put over it. -/
def union [Std.TransOrd κ] (m other : OrderedMap κ α) : OrderedMap κ α :=
  other.entries.foldl (fun acc e => acc.insert e.1 e.2) m

/-! ## Look-ups after a change -/

theorem compare_refl [Std.LawfulEqOrd κ] (k : κ) : compare k k = .eq :=
  Std.LawfulEqCmp.compare_eq_iff_eq.2 rfl

@[simp] theorem find?_empty (k : κ) : (∅ : OrderedMap κ α).find? k = none := rfl

theorem find?_entries_insertEntry [Std.TransOrd κ] [Std.LawfulEqOrd κ] [DecidableEq κ]
    (k k' : κ) (v : α) (l : List (κ × α)) :
    (insertEntry k v l).find? (fun e => compare k' e.1 == .eq) =
      if k' = k then some (k, v) else l.find? (fun e => compare k' e.1 == .eq) := by
  induction l with
  | nil => by_cases h : k' = k <;> simp [insertEntry, h]
  | cons a rest ih =>
    simp only [insertEntry]
    split
    · by_cases h : k' = k <;> simp [h, List.find?_cons]
    · next heq =>
      have hk : k = a.1 := Std.LawfulEqCmp.eq_of_compare heq
      by_cases h : k' = k <;> simp_all
    · next hgt =>
      have hk : k ≠ a.1 := by
        intro e
        rw [e, compare_refl] at hgt
        exact absurd hgt (by decide)
      rw [List.find?_cons, List.find?_cons, ih]
      by_cases h : k' = k
      · subst h
        have : (compare k' a.1 == .eq) = false := by simpa using hk
        simp [this]
      · simp [h]

theorem find?_insert [Std.TransOrd κ] [Std.LawfulEqOrd κ] [DecidableEq κ]
    (m : OrderedMap κ α) (k k' : κ) (v : α) :
    (m.insert k v).find? k' = if k' = k then some v else m.find? k' := by
  unfold find? insert
  rw [find?_entries_insertEntry]
  by_cases h : k' = k <;> simp [h]

theorem find?_erase [Std.LawfulEqOrd κ] [DecidableEq κ] (m : OrderedMap κ α) (k k' : κ) :
    (m.erase k).find? k' = if k' = k then none else m.find? k' := by
  unfold find? erase
  rw [List.find?_filter]
  by_cases h : k' = k
  · subst h
    simp
  · rw [if_neg h]
    congr 2
    funext e
    by_cases he : k' = e.1
    · have hne : k ≠ e.1 := fun hk => h (he.trans hk.symm)
      simp [hne, he]
    · simp [he]

/-- An entry is found under its own key. -/
theorem find?_eq_some_iff [Std.TransOrd κ] [Std.LawfulEqOrd κ] (m : OrderedMap κ α) (k : κ) (v : α) :
    m.find? k = some v ↔ (k, v) ∈ m.entries := by
  obtain ⟨l, h⟩ := m
  simp only [find?]
  induction l with
  | nil => simp
  | cons a rest ih =>
    have ⟨hhead, htail⟩ := List.pairwise_cons.1 h
    rw [List.find?_cons]
    by_cases hk : k = a.1
    · subst hk
      simp only [Std.LawfulEqCmp.compare_eq_iff_eq.2, beq_self_eq_true, Option.map_some,
        Option.some.injEq, List.mem_cons]
      constructor
      · rintro rfl; exact Or.inl rfl
      · rintro (e | hmem)
        · exact (congrArg Prod.snd e).symm
        · have := hhead _ hmem
          rw [compare_refl] at this
          exact absurd this (by decide)
    · have hne : (compare k a.1 == .eq) = false := by simpa using hk
      simp only [hne, List.mem_cons]
      rw [ih htail]
      constructor
      · exact Or.inr
      · rintro (e | hmem)
        · exact absurd (congrArg Prod.fst e) hk
        · exact hmem

/-- Maps with the same look-ups are equal. -/
theorem ext_find? [Std.TransOrd κ] [Std.LawfulEqOrd κ] {m n : OrderedMap κ α}
    (h : ∀ k, m.find? k = n.find? k) : m = n := by
  have hmem : ∀ e, e ∈ m.entries ↔ e ∈ n.entries := fun e => by
    rw [← find?_eq_some_iff m e.1 e.2, ← find?_eq_some_iff n e.1 e.2, h]
  have irrefl : ∀ a : κ × α, compare a.1 a.1 ≠ .lt := fun a => by
    rw [compare_refl]; decide
  have asymm : ∀ a b : κ × α, compare a.1 b.1 = .lt → compare b.1 a.1 = .lt → a = b :=
    fun a b hab hba => absurd (Std.TransCmp.lt_trans hab hba) (irrefl a)
  have nodup : ∀ {l : List (κ × α)}, l.Pairwise (fun a b => compare a.1 b.1 = .lt) → l.Nodup :=
    fun hl => List.Pairwise.imp (fun {a b} hab (e : a = b) => irrefl b (by rwa [e] at hab)) hl
  obtain ⟨l, hl⟩ := m
  obtain ⟨l', hl'⟩ := n
  have perm : l.Perm l' := (List.perm_ext_iff_of_nodup (nodup hl) (nodup hl')).2 hmem
  have : l = l' := perm.eq_of_pairwise (fun a b _ _ => asymm a b) hl hl'
  subst this
  rfl

end OrderedMap

end Placement
