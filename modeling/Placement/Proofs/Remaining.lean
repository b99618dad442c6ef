/-
What remains of an offer loses what was used.

* `Resource.kindTotal_subtract`: taking one part from a list of resources lowers the amount of its
  kind by that part, up to the tolerance, or uses the kind up.
* `Offer.kindTotal_without`: so does taking parts one after another, the tolerance counted once for
  each part.
* `Offer.not_mem_volumesOf_without` and `Offer.not_mem_ports_without`: a volume that was used whole
  and a port that was used are not there any more.
-/
import Mathlib.Data.List.Forall2
import Placement.Proofs.Kind
import Placement.Proofs.PortRange
import Placement.Matching.Remaining

namespace Placement

namespace Resource

/-! ## One part -/

theorem nonneg_subtractAmount {rs : List (Resource Rat)} (h : ∀ r ∈ rs, 0 ≤ r.amount)
    (kind : Resource Rat) (missing : Rat) : ∀ r ∈ subtractAmount kind missing rs, 0 ≤ r.amount := by
  induction rs generalizing missing with
  | nil => simp [subtractAmount]
  | cons r rest ih =>
    have hrest : ∀ s ∈ rest, 0 ≤ s.amount := fun s hs => h s (List.mem_cons_of_mem r hs)
    unfold subtractAmount
    split
    · exact h
    · split
      · next amount _ hvalue =>
        intro s hs
        rcases List.mem_cons.1 hs with rfl | hs
        · have := Amount.least_le_left amount missing
          rw [amount_withScalar]
          linarith
        · exact ih hrest _ s hs
      · intro s hs
        rcases List.mem_cons.1 hs with rfl | hs
        · exact h s List.mem_cons_self
        · exact ih hrest _ s hs

/-- Taking an amount adds to no kind. -/
theorem kindTotal_subtractAmount_le {rs : List (Resource Rat)} (h : ∀ r ∈ rs, 0 ≤ r.amount)
    (kind : Resource Rat) (missing : Rat) (k : Resource Rat) :
    kindTotal k (subtractAmount kind missing rs) ≤ kindTotal k rs := by
  induction rs generalizing missing with
  | nil => exact le_refl 0
  | cons r rest ih =>
    have hrest : ∀ s ∈ rest, 0 ≤ s.amount := fun s hs => h s (List.mem_cons_of_mem r hs)
    unfold subtractAmount
    split
    · exact le_refl _
    · next short =>
      split
      · next amount _ hvalue =>
        have hr : r.amount = amount := amount_of_scalar hvalue
        have pos := h r List.mem_cons_self
        have tol := Amount.tolerance_pos
        have taken : 0 ≤ Amount.least amount missing := by
          unfold Amount.least
          split <;> linarith
        have := ih hrest (missing - Amount.least amount missing)
        rw [kindTotal_cons, kindTotal_cons, sameKind_withValue, amount_withScalar]
        split <;> linarith
      · have := ih hrest missing
        rw [kindTotal_cons, kindTotal_cons]
        linarith

/-- An amount is taken up to the tolerance, unless nothing of the kind is left. -/
theorem kindTotal_subtractAmount {rs : List (Resource Rat)} (h : ∀ r ∈ rs, 0 ≤ r.amount)
    (kind : Resource Rat) (missing : Rat) :
    kindTotal kind (subtractAmount kind missing rs) + missing ≤
        kindTotal kind rs + Amount.tolerance ∨
      kindTotal kind (subtractAmount kind missing rs) = 0 := by
  induction rs generalizing missing with
  | nil => exact .inr rfl
  | cons r rest ih =>
    have hrest : ∀ s ∈ rest, 0 ≤ s.amount := fun s hs => h s (List.mem_cons_of_mem r hs)
    have restNonneg := kindTotal_nonneg hrest kind
    have tol := Amount.tolerance_pos
    unfold subtractAmount
    split
    · next enough =>
      exact .inl (by linarith)
    · next short =>
      split
      · next amount hkind hvalue =>
        have hr : r.amount = amount := amount_of_scalar hvalue
        simp only [kindTotal_cons, sameKind_withValue, amount_withScalar, hkind, hr, if_true]
        unfold Amount.least
        split
        · rcases ih hrest (missing - amount) with taken | used
          · exact .inl (by linarith)
          · exact .inr (by rw [used]; linarith)
        · refine .inl ?_
          rcases ih hrest (missing - missing) with taken | used <;> linarith
      · next other =>
        have none_here : (if r.sameKind kind then r.amount else 0) = 0 := by
          split
          · next hkind =>
            cases hvalue : r.value with
            | scalar a => exact absurd hvalue (other a hkind)
            | ranges ranges => exact amount_of_ranges hvalue
          · rfl
        rw [kindTotal_cons, kindTotal_cons, none_here]
        rcases ih hrest missing with taken | used
        · exact .inl (by linarith)
        · exact .inr (by rw [used]; linarith)

/-- What is left of a resource: it is of the same kind, a scalar if that was one, and has no port
that it did not have. -/
structure LeftOf (r s : Resource Rat) : Prop where
  kind : s.sameKind r = true
  scalar : ∀ a, r.value = .scalar a → ∃ b, s.value = .scalar b
  ports : ∀ p ∈ PortRange.allPorts s.portRanges, p ∈ PortRange.allPorts r.portRanges

theorem LeftOf.refl (r : Resource Rat) : LeftOf r r :=
  ⟨sameKind_self r, fun a ha => ⟨a, ha⟩, fun _ h => h⟩

theorem LeftOf.trans {r s t : Resource Rat} (h : LeftOf r s) (h' : LeftOf s t) : LeftOf r t :=
  ⟨(sameKind_congr h'.kind r).trans h.kind,
    fun a ha => (h.scalar a ha).elim fun b hb => h'.scalar b hb,
    fun p hp => h.ports p (h'.ports p hp)⟩

theorem LeftOf.forall₂_trans {rs ss ts : List (Resource Rat)} :
    List.Forall₂ LeftOf rs ss → List.Forall₂ LeftOf ss ts → List.Forall₂ LeftOf rs ts
  | .nil, .nil => .nil
  | .cons h hs, .cons h' hs' => .cons (h.trans h') (forall₂_trans hs hs')

/-- In lists that are related one by one, an element on the right is related to one on the left. -/
theorem exists_of_forall₂ {β γ : Type} {R : β → γ → Prop} {bs : List β} {cs : List γ}
    (h : List.Forall₂ R bs cs) {c : γ} (hc : c ∈ cs) : ∃ b ∈ bs, R b c := by
  induction h with
  | nil => simp at hc
  | cons first _ ih =>
    rcases List.mem_cons.1 hc with rfl | hc
    · exact ⟨_, List.mem_cons_self, first⟩
    · obtain ⟨b, hb, related⟩ := ih hc
      exact ⟨b, List.mem_cons_of_mem _ hb, related⟩

theorem leftOf_subtractAmount (kind : Resource Rat) (missing : Rat) (rs : List (Resource Rat)) :
    List.Forall₂ LeftOf rs (subtractAmount kind missing rs) := by
  induction rs generalizing missing with
  | nil => exact .nil
  | cons r rest ih =>
    unfold subtractAmount
    split
    · exact List.forall₂_same.2 fun s _ => LeftOf.refl s
    · split
      · exact .cons ⟨by simp, fun _ _ => ⟨_, rfl⟩, by simp [PortRange.allPorts]⟩ (ih _)
      · exact .cons (.refl r) (ih _)

theorem leftOf_subtractPorts (kind : Resource Rat) (used : List PortRange)
    (rs : List (Resource Rat)) : List.Forall₂ LeftOf rs (subtractPorts kind used rs) := by
  rw [subtractPorts, List.forall₂_map_right_iff, List.forall₂_same]
  intro r _
  split
  · next ranges hkind hvalue =>
    refine ⟨by simp, ?_, ?_⟩
    · intro a ha
      rw [hvalue] at ha
      cases ha
    · intro p hp
      rw [portRanges_withRanges, PortRange.mem_allPorts_ofPorts] at hp
      rw [portRanges_of_ranges hvalue]
      exact (List.mem_filter.1 hp).1
  · exact .refl r

/-- Taking a part leaves of each resource something of its kind. -/
theorem leftOf_subtract (rs : List (Resource Rat)) (used : Resource Rat) :
    List.Forall₂ LeftOf rs (subtract rs used) := by
  unfold subtract
  split
  · exact leftOf_subtractAmount used _ rs
  · exact leftOf_subtractPorts used _ rs

/-- Taking ports leaves all amounts as they are. -/
theorem kindTotal_subtractPorts (kind : Resource Rat) (used : List PortRange)
    (rs : List (Resource Rat)) (k : Resource Rat) :
    kindTotal k (subtractPorts kind used rs) = kindTotal k rs := by
  induction rs with
  | nil => rfl
  | cons r rest ih =>
    rw [subtractPorts, List.map_cons, ← subtractPorts, kindTotal_cons, kindTotal_cons, ih]
    split
    · next ranges _ hvalue =>
      have hr : r.amount = 0 := amount_of_ranges hvalue
      rw [sameKind_withValue, amount_withRanges, hr]
    · rfl

theorem amount_subtractPorts {kind : Resource Rat} {used : List PortRange}
    {rs : List (Resource Rat)} {s : Resource Rat} (hs : s ∈ subtractPorts kind used rs) :
    ∃ r ∈ rs, s.amount = r.amount := by
  obtain ⟨r, hr, rfl⟩ := List.mem_map.1 hs
  refine ⟨r, hr, ?_⟩
  split
  · next ranges _ hvalue => rw [amount_withRanges, amount_of_ranges hvalue]
  · rfl

section

variable {rs : List (Resource Rat)}

theorem nonneg_subtract (h : ∀ r ∈ rs, 0 ≤ r.amount) (used : Resource Rat) :
    ∀ r ∈ subtract rs used, 0 ≤ r.amount := by
  unfold subtract
  split
  · exact nonneg_subtractAmount h used _
  · intro s hs
    obtain ⟨r, hr, hamount⟩ := amount_subtractPorts hs
    rw [hamount]
    exact h r hr

theorem kindTotal_subtract_le (h : ∀ r ∈ rs, 0 ≤ r.amount) (used k : Resource Rat) :
    kindTotal k (subtract rs used) ≤ kindTotal k rs := by
  unfold subtract
  split
  · exact kindTotal_subtractAmount_le h used _ k
  · rw [kindTotal_subtractPorts]

/-- A part is taken up to the tolerance, unless nothing of its kind is left. -/
theorem kindTotal_subtract (h : ∀ r ∈ rs, 0 ≤ r.amount) (used : Resource Rat) :
    kindTotal used (subtract rs used) + used.amount ≤ kindTotal used rs + Amount.tolerance ∨
      kindTotal used (subtract rs used) = 0 := by
  unfold subtract
  split
  · next amount hvalue =>
    have hused : used.amount = amount := amount_of_scalar hvalue
    rw [hused]
    exact kindTotal_subtractAmount h used amount
  · next ranges hvalue =>
    have hused : used.amount = 0 := amount_of_ranges hvalue
    have tol := Amount.tolerance_pos
    rw [kindTotal_subtractPorts, hused]
    exact .inl (by linarith)

/-- A port that is taken is in no resource of its kind any more. -/
theorem not_mem_ports_subtract {used s : Resource Rat} (hs : s ∈ subtract rs used)
    (kind : s.sameKind used = true) {p : Port} (hp : p ∈ PortRange.allPorts used.portRanges) :
    p ∉ PortRange.allPorts s.portRanges := by
  unfold subtract at hs
  split at hs
  · next amount hvalue =>
    exact absurd hp (not_mem_allPorts (portRanges_of_scalar hvalue) p)
  · next ranges hvalue =>
    have held : PortRange.anyContains ranges p = true := by
      rw [portRanges_of_ranges hvalue] at hp
      exact PortRange.mem_allPorts.1 hp
    obtain ⟨r, hr, rfl⟩ := List.mem_map.1 hs
    have kind_r : r.sameKind used = true := by
      revert kind
      split <;> exact id
    split
    · rw [portRanges_withRanges, PortRange.mem_allPorts_ofPorts]
      intro hmem
      have gone := (List.mem_filter.1 hmem).2
      rw [held] at gone
      cases gone
    · next other =>
      cases hvalue' : r.value with
      | scalar a => exact not_mem_allPorts (portRanges_of_scalar hvalue') p
      | ranges ranges' => exact (other ranges' kind_r hvalue').elim

end

/-! ## Several parts, one after another -/

section

variable {rs : List (Resource Rat)}

theorem leftOf_foldl (rs used : List (Resource Rat)) :
    List.Forall₂ LeftOf rs (used.foldl subtract rs) := by
  induction used generalizing rs with
  | nil => exact List.forall₂_same.2 fun r _ => .refl r
  | cons u rest ih =>
    rw [List.foldl_cons]
    exact LeftOf.forall₂_trans (leftOf_subtract rs u) (ih (subtract rs u))

theorem nonneg_foldl (h : ∀ r ∈ rs, 0 ≤ r.amount) (used : List (Resource Rat)) :
    ∀ r ∈ used.foldl subtract rs, 0 ≤ r.amount := by
  induction used generalizing rs with
  | nil => exact h
  | cons u rest ih => exact ih (nonneg_subtract h u)

theorem kindTotal_foldl_le (h : ∀ r ∈ rs, 0 ≤ r.amount) (used : List (Resource Rat))
    (k : Resource Rat) : kindTotal k (used.foldl subtract rs) ≤ kindTotal k rs := by
  induction used generalizing rs with
  | nil => exact le_refl _
  | cons u rest ih =>
    exact le_trans (ih (nonneg_subtract h u)) (kindTotal_subtract_le h u k)

/-- Parts are taken up to the tolerance for each of them, unless nothing of their kind is left. -/
theorem kindTotal_foldl (h : ∀ r ∈ rs, 0 ≤ r.amount) (used : List (Resource Rat))
    (k : Resource Rat) :
    kindTotal k (used.foldl subtract rs) + kindTotal k used ≤
        kindTotal k rs + kindCount k used * Amount.tolerance ∨
      kindTotal k (used.foldl subtract rs) = 0 := by
  induction used generalizing rs with
  | nil => exact .inl (by simp [kindCount])
  | cons u rest ih =>
    have h' := nonneg_subtract h u
    rw [List.foldl_cons, kindTotal_cons, kindCount_cons]
    rcases ih h' with taken | gone
    · by_cases hk : u.sameKind k = true
      · rw [if_pos hk, if_pos hk]
        rcases kindTotal_subtract h u with first | gone
        · rw [kindTotal_congr hk, kindTotal_congr hk] at first
          refine .inl ?_
          push_cast
          linarith
        · -- Nothing of the kind is left after the first part, so neither is at the end.
          rw [kindTotal_congr hk] at gone
          have upper := kindTotal_foldl_le h' rest k
          have lower := kindTotal_nonneg (nonneg_foldl h' rest) k
          exact .inr (by linarith)
      · rw [if_neg hk, if_neg hk]
        have first := kindTotal_subtract_le h u k
        refine .inl ?_
        push_cast
        linarith
    · exact .inr gone

/-- A kind of which a part takes all is used up, up to the tolerance. -/
theorem kindTotal_foldl_of_whole (h : ∀ r ∈ rs, 0 ≤ r.amount) {used : List (Resource Rat)}
    {u : Resource Rat} (hu : u ∈ used) (whole : kindTotal u rs ≤ u.amount) :
    kindTotal u (used.foldl subtract rs) ≤ Amount.tolerance := by
  induction used generalizing rs with
  | nil => simp at hu
  | cons v rest ih =>
    have h' := nonneg_subtract h v
    have le := kindTotal_subtract_le h v u
    rcases List.mem_cons.1 hu with rfl | hu
    · have upper := kindTotal_foldl_le h' rest u
      have tol := Amount.tolerance_pos
      rw [List.foldl_cons]
      rcases kindTotal_subtract h u with taken | gone <;> linarith
    · exact ih h' hu (le_trans le whole)

/-- A port that is taken is in no resource of its kind at the end. -/
theorem not_mem_ports_foldl {used : List (Resource Rat)} {u s : Resource Rat} (hu : u ∈ used)
    (hs : s ∈ used.foldl subtract rs) (kind : s.sameKind u = true) {p : Port}
    (hp : p ∈ PortRange.allPorts u.portRanges) : p ∉ PortRange.allPorts s.portRanges := by
  induction used generalizing rs with
  | nil => simp at hu
  | cons v rest ih =>
    rw [List.foldl_cons] at hs
    rcases List.mem_cons.1 hu with rfl | hu
    · intro hmem
      obtain ⟨r, hr, left⟩ := exists_of_forall₂ (leftOf_foldl (subtract rs u) rest) hs
      refine not_mem_ports_subtract hr ?_ hp (left.ports p hmem)
      rw [← sameKind_congr left.kind, kind]
    · exact ih hu hs

end

/-- Disks are left with the volumes they had, in the same order. -/
theorem volumesOf_leftOf {rs ss : List (Resource Rat)} (h : List.Forall₂ LeftOf rs ss) :
    volumesOf ss = volumesOf rs := by
  induction h with
  | nil => rfl
  | @cons r s rest rest' first _ ih =>
    have name := name_congr first.kind
    have persistence := persistence_congr first.kind
    simp only [volumesOf, List.filter_cons, name] at ih ⊢
    split
    · simp only [List.filterMap_cons, persistence, ih]
    · exact ih

section

variable {rs : List (Resource Rat)} {v : VolumeId}

theorem volumesOf_cons {α : Type} (r : Resource α) (rs : List (Resource α)) :
    volumesOf (r :: rs) = volumesOf [r] ++ volumesOf rs := @volumesOf_append α [r] rs

/-- A volume that a list has once is on one disk. -/
theorem eq_of_carriesVolume (distinct : (volumesOf rs).Nodup) {r s : Resource Rat} (hr : r ∈ rs)
    (hs : s ∈ rs) (hrname : r.name = .disk) (hsname : s.name = .disk)
    (hrv : r.carriesVolume v = true) (hsv : s.carriesVolume v = true) : r = s := by
  induction rs with
  | nil => simp at hr
  | cons t rest ih =>
    rw [volumesOf_cons, List.nodup_append] at distinct
    obtain ⟨-, drest, disjoint⟩ := distinct
    have head : ∀ r, r = t → r.name = .disk → r.carriesVolume v = true → v ∈ volumesOf [t] := by
      rintro r rfl hname hv
      exact mem_volumesOf.2 ⟨r, List.mem_singleton_self r, hname, hv⟩
    have tail : ∀ r ∈ rest, r.name = .disk → r.carriesVolume v = true → v ∈ volumesOf rest :=
      fun r hr hname hv => mem_volumesOf.2 ⟨r, hr, hname, hv⟩
    rcases List.mem_cons.1 hr with hr | hr <;> rcases List.mem_cons.1 hs with hs | hs
    · rw [hr, hs]
    · exact absurd rfl (disjoint v (head r hr hrname hrv) v (tail s hs hsname hsv))
    · exact absurd rfl (disjoint v (head s hs hsname hsv) v (tail r hr hrname hrv))
    · exact ih drest hr hs

/-- The disk of such a volume is alone of its kind. -/
theorem kindTotal_of_carriesVolume (distinct : (volumesOf rs).Nodup) {r : Resource Rat} (hr : r ∈ rs)
    (hname : r.name = .disk) (hv : r.carriesVolume v = true) : kindTotal r rs = r.amount := by
  induction rs with
  | nil => simp at hr
  | cons t rest ih =>
    have whole := distinct
    rw [volumesOf_cons, List.nodup_append] at distinct
    obtain ⟨-, drest, disjoint⟩ := distinct
    have same_disk : ∀ s : Resource Rat, s.sameKind r = true → s.name = .disk ∧ s.carriesVolume v = true :=
      fun s hs => ⟨(name_congr hs).trans hname, (carriesVolume_congr hs v).trans hv⟩
    rw [kindTotal_cons]
    by_cases kind : t.sameKind r = true
    · obtain ⟨tname, tv⟩ := same_disk t kind
      have none_else : rest.filter (·.sameKind r) = [] := by
        refine List.filter_eq_nil_iff.2 ?_
        intro s hs hkind
        obtain ⟨sname, sv⟩ := same_disk s hkind
        have here : v ∈ volumesOf [t] :=
          mem_volumesOf.2 ⟨t, List.mem_singleton_self t, tname, tv⟩
        exact disjoint v here v (mem_volumesOf.2 ⟨s, hs, sname, sv⟩) rfl
      have heq := eq_of_carriesVolume whole hr List.mem_cons_self hname tname hv tv
      rw [if_pos kind, kindTotal, none_else, heq]
      exact add_zero _
    · rcases List.mem_cons.1 hr with rfl | hr
      · exact absurd (sameKind_self r) kind
      · rw [if_neg kind, ih drest hr, zero_add]

end

end Resource

/-! ## Offers -/

namespace Offer

open Resource

variable {o : Offer Rat}

theorem mem_without {used : List (Resource Rat)} {s : Resource Rat} :
    s ∈ (o.without used).resources ↔ s ∈ used.foldl subtract o.resources ∧ s.isLeft = true :=
  List.mem_filter

theorem nonneg_without (h : ∀ r ∈ o.resources, 0 ≤ r.amount) (used : List (Resource Rat)) :
    ∀ r ∈ (o.without used).resources, 0 ≤ r.amount :=
  fun r hr => nonneg_foldl h used r (mem_without.1 hr).1

/-- What remains is left of the offer. -/
theorem exists_leftOf_without {used : List (Resource Rat)} {s : Resource Rat}
    (hs : s ∈ (o.without used).resources) : ∃ r ∈ o.resources, LeftOf r s :=
  exists_of_forall₂ (leftOf_foldl o.resources used) (mem_without.1 hs).1

/-- No volume comes from nowhere. -/
theorem volumesOf_without_sublist (o : Offer Rat) (used : List (Resource Rat)) :
    (volumesOf (o.without used).resources).Sublist (volumesOf o.resources) := by
  rw [← volumesOf_leftOf (leftOf_foldl o.resources used)]
  exact (List.filter_sublist.filter _).filterMap _

/-- What was used and what remains of a kind is no more than was offered, up to the tolerance for each
part, as long as no more was used than that. -/
theorem kindTotal_without (h : ∀ r ∈ o.resources, 0 ≤ r.amount) {used : List (Resource Rat)}
    {k : Resource Rat} (affordable : kindTotal k used ≤
      kindTotal k o.resources + kindCount k used * Amount.tolerance) :
    kindTotal k used + kindTotal k (o.without used).resources ≤
      kindTotal k o.resources + kindCount k used * Amount.tolerance := by
  have le := kindTotal_filter_le (nonneg_foldl h used) isLeft k
  have lower := kindTotal_nonneg (nonneg_foldl h used) k
  have heq : (o.without used).resources = (used.foldl subtract o.resources).filter isLeft := rfl
  rw [← heq] at le
  rcases kindTotal_foldl h used k with taken | gone <;> linarith

/-- A volume whose disk was used whole does not remain. -/
theorem not_mem_volumesOf_without (h : ∀ r ∈ o.resources, 0 ≤ r.amount)
    (distinct : (volumesOf o.resources).Nodup) {used : List (Resource Rat)} {v : VolumeId}
    {r : Resource Rat} (hr : r ∈ o.resources) (hname : r.name = .disk)
    (hv : r.carriesVolume v = true) (whole : r ∈ used) (held : 0 < r.amount) :
    v ∉ volumesOf (o.without used).resources := by
  intro hmem
  obtain ⟨s, hs, sname, sv⟩ := mem_volumesOf.1 hmem
  obtain ⟨hfold, left⟩ := mem_without.1 hs
  obtain ⟨r', hr', leftOf⟩ := exists_leftOf_without hs
  have heq : r' = r := eq_of_carriesVolume distinct hr' hr
    ((name_congr leftOf.kind).symm.trans sname) hname
    ((carriesVolume_congr leftOf.kind v).symm.trans sv) hv
  have total := kindTotal_foldl_of_whole h whole
    (le_of_eq (kindTotal_of_carriesVolume distinct hr hname hv))
  have kind : s.sameKind r = true := heq ▸ leftOf.kind
  have amount := amount_le_kindTotal (nonneg_foldl h used) hfold
  rw [kindTotal_congr kind] at amount
  have scalar : ∃ a, r.value = .scalar a := by
    cases hvalue : r.value with
    | scalar a => exact ⟨a, rfl⟩
    | ranges ranges =>
      rw [Resource.amount, hvalue] at held
      exact absurd held (lt_irrefl _)
  obtain ⟨a, ha⟩ := scalar
  obtain ⟨b, hb⟩ := leftOf.scalar a (heq ▸ ha)
  have more : Amount.tolerance < b := by simpa [isLeft, hb] using left
  have : s.amount = b := amount_of_scalar hb
  linarith

/-- A port that was used does not remain, unless port resources of different kinds have it. -/
theorem not_mem_ports_without {used : List (Resource Rat)} {u r : Resource Rat} (hu : u ∈ used)
    (kind : u.sameKind r = true) {port : Port} (hport : port ∈ PortRange.allPorts u.portRanges)
    (alone : ∀ s ∈ o.resources, s.name = .ports → port ∈ PortRange.allPorts s.portRanges →
      s.sameKind r = true) {s : Resource Rat} (hs : s ∈ (o.without used).resources)
    (hname : s.name = .ports) : port ∉ PortRange.allPorts s.portRanges := by
  intro hmem
  obtain ⟨r', hr', left⟩ := exists_leftOf_without hs
  have same := alone r' hr' ((name_congr left.kind).symm.trans hname) (left.ports port hmem)
  have kind' : s.sameKind u = true := by
    rw [sameKind_congr left.kind, sameKind_comm, sameKind_congr kind, sameKind_comm]
    exact same
  exact not_mem_ports_foldl hu (mem_without.1 hs).1 kind' hport hmem

end Offer

end Placement
