/-
How much of a scalar resource there is, and what can be had of it.

`Resource.amountOf` is what a list of resources has under a test, and `Pool.stock` what is left of the
chunks that pass one. Two statements about a row of requirements belong together:

* `Matching.supply_of_takeScalars`: where all are met, the parts taken for them supply each of them, up
  to the tolerance.
* `Matching.takeScalars_of_stock`: where the reserved chunks have each of them in stock, up to the
  tolerance, all are met, and from reserved chunks alone.
-/
import Mathlib.Algebra.Order.BigOperators.Group.List
import Placement.Proofs.Pool

namespace Placement

namespace Resource

/-! ## Amounts under a test -/

/-- What the resources that pass a test have together. -/
def amountOf (test : Resource Rat → Bool) (rs : List (Resource Rat)) : Rat :=
  ((rs.filter test).map amount).sum

/-- Plain requirements of the name can be taken from the resource. -/
def serves (name : ResourceName) (r : Resource Rat) : Bool := r.name == name && Pool.servesScalar r

theorem name_of_serves {name : ResourceName} {r : Resource Rat} (h : r.serves name = true) :
    r.name = name := beq_iff_eq.1 (Bool.and_eq_true_iff.1 h).1

variable {test test' : Resource Rat → Bool} {rs ss : List (Resource Rat)}

@[simp] theorem amountOf_nil (test : Resource Rat → Bool) : amountOf test [] = 0 := rfl

theorem amountOf_cons (test : Resource Rat → Bool) (r : Resource Rat) (rs : List (Resource Rat)) :
    amountOf test (r :: rs) = (if test r then r.amount else 0) + amountOf test rs := by
  by_cases h : test r = true
  · simp [amountOf, h]
  · simp [amountOf, h]

theorem amountOf_append : amountOf test (rs ++ ss) = amountOf test rs + amountOf test ss := by
  simp [amountOf]

theorem amountOf_perm (h : rs.Perm ss) : amountOf test rs = amountOf test ss :=
  ((h.filter _).map _).sum_eq

theorem amountOf_congr (h : ∀ r ∈ rs, test r = test' r) : amountOf test rs = amountOf test' rs := by
  rw [amountOf, List.filter_congr h, amountOf]

theorem amountOf_nonneg (h : ∀ r ∈ rs, 0 ≤ r.amount) : 0 ≤ amountOf test rs := by
  refine List.sum_nonneg ?_
  intro a ha
  obtain ⟨r, hr, rfl⟩ := List.mem_map.1 ha
  exact h r (List.mem_filter.1 hr).1

theorem amountOf_eq_zero (h : ∀ r ∈ rs, test r = true → r.amount = 0) : amountOf test rs = 0 := by
  refine List.sum_eq_zero ?_
  intro a ha
  obtain ⟨r, hr, rfl⟩ := List.mem_map.1 ha
  exact h r (List.mem_filter.1 hr).1 (List.mem_filter.1 hr).2

/-- What is done to all resources alike is not seen where neither the test nor amounts depend on it. -/
theorem amountOf_map {f : Resource Rat → Resource Rat} (passes : ∀ r, test (f r) = test r)
    (same : ∀ r, (f r).amount = r.amount) : amountOf test (rs.map f) = amountOf test rs := by
  induction rs with
  | nil => rfl
  | cons r rest ih => rw [List.map_cons, amountOf_cons, amountOf_cons, passes, same, ih]

end Resource

namespace Pool

open Resource

/-! ## Stock -/

/-- What is left of the chunks that pass a test. -/
def stock (test : Resource Rat → Bool) (p : Pool Rat) : Rat :=
  ((p.filter fun c => test c.resource).map Chunk.remaining).sum

theorem stock_cons (test : Resource Rat → Bool) (c : Chunk Rat) (p : Pool Rat) :
    stock test (c :: p) = (if test c.resource then c.remaining else 0) + stock test p := by
  by_cases h : test c.resource = true
  · simp [stock, h]
  · simp [stock, h]

/-- At first all is in stock. -/
theorem stock_ofResources (test : Resource Rat → Bool) (rs : List (Resource Rat)) :
    stock test (ofResources rs) = amountOf test rs := by
  induction rs with
  | nil => rfl
  | cons r rest ih => rw [ofResources, List.map_cons, ← ofResources, stock_cons, amountOf_cons, ih]

theorem stock_congr {test : Resource Rat → Bool} {p q : Pool Rat}
    (h : (p.filter fun c => test c.resource) = q.filter fun c => test c.resource) :
    stock test p = stock test q := by
  rw [stock, h, stock]

theorem available_eq (serves : Bool → Resource Rat → Bool) (p : Pool Rat) :
    p.available serves = stock (serves true) p + stock (serves false) p := by
  have total : ∀ xs : List Rat, Amount.total xs = xs.sum := fun xs => List.sum_eq_foldl.symm
  rw [available, total, candidates, List.map_append, List.sum_append]
  rfl

/-! ## Draining -/

section

variable {test other : Resource Rat → Bool} {missing : Rat}

/-- What is within the tolerance is not looked for. -/
theorem drain_of_le (h : missing ≤ Amount.tolerance) (p : Pool Rat) :
    p.drain test missing = (missing, [], p) := by
  cases p with
  | nil => rfl
  | cons c rest => rw [drain, if_pos h]

theorem drain_taken (test : Resource Rat → Bool) (missing : Rat) (p : Pool Rat) :
    (p.drain test missing).1 + ((p.drain test missing).2.1.map Resource.amount).sum = missing := by
  induction p generalizing missing with
  | nil => exact add_zero missing
  | cons c rest ih =>
    unfold drain
    split
    · exact add_zero missing
    · simp only
      split
      · have := ih (missing - Amount.least c.remaining missing)
        simp only [List.map_cons, List.sum_cons, amount_withScalar]
        linarith
      · exact ih missing

/-- Unless no more than the tolerance is missing afterwards, all that is in stock has been taken. -/
theorem drain_left (test : Resource Rat → Bool) (missing : Rat) (p : Pool Rat) :
    (p.drain test missing).1 ≤ Amount.tolerance ∨
      (Amount.tolerance < missing ∧ (p.drain test missing).1 ≤ missing - stock test p) := by
  have tol := Amount.tolerance_pos
  induction p generalizing missing with
  | nil =>
    rcases le_or_gt missing Amount.tolerance with small | large
    · exact .inl small
    · exact .inr ⟨large, by simp [drain, stock]⟩
  | cons c rest ih =>
    unfold drain
    split
    · next small => exact .inl small
    · next large =>
      simp only
      rw [stock_cons]
      split
      · next takes =>
        rw [if_pos (Bool.and_eq_true_iff.1 takes).1]
        refine (ih (missing - Amount.least c.remaining missing)).imp_right ?_
        rintro ⟨more, left⟩
        refine ⟨not_le.1 large, left.trans ?_⟩
        unfold Amount.least at more ⊢
        split
        · linarith
        · -- A chunk that has all that is missing leaves nothing to be looked for.
          next h =>
          rw [if_neg h] at more
          linarith
      · next leaves =>
        refine (ih missing).imp_right ?_
        rintro ⟨more, left⟩
        refine ⟨more, left.trans ?_⟩
        split
        · next passes =>
          have empty : c.remaining ≤ 0 := by
            simp only [passes, Bool.true_and, Bool.not_eq_true', Bool.not_eq_false,
              decide_eq_true_eq] at leaves
            unfold Amount.least at leaves
            split at leaves
            · exact leaves
            · linarith
          linarith
        · linarith

/-- Chunks that pass another test are left alone. -/
theorem filter_drain (apart : ∀ r, test r = true → other r = false) (missing : Rat) (p : Pool Rat) :
    ((p.drain test missing).2.2.filter fun c => other c.resource) =
      p.filter fun c => other c.resource := by
  induction p generalizing missing with
  | nil => rfl
  | cons c rest ih =>
    unfold drain
    split
    · rfl
    · simp only
      split
      · next takes =>
        have passes := apart c.resource (Bool.and_eq_true_iff.1 takes).1
        rw [List.filter_cons_of_neg (by simp [passes]), List.filter_cons_of_neg (by simp [passes]), ih]
      · rw [List.filter_cons, ih, List.filter_cons]

end

/-! ## One requirement -/

/-- Plain amounts of the name are taken from the resource, as one that is reserved or as one that is
not. -/
def usable (s : Selector) (name : ResourceName) (reserved : Bool) (r : Resource Rat) : Bool :=
  eligible s name reserved r && servesScalar r

theorem usable_iff {s : Selector} {name : ResourceName} {reserved : Bool} {r : Resource Rat} :
    usable s name reserved r = true ↔
      r.serves name = true ∧ s.accepts r = true ∧ r.isReserved = reserved := by
  simp only [usable, eligible, serves, Bool.and_eq_true, beq_iff_eq]
  tauto

theorem usable_apart (s : Selector) (name : ResourceName) (r : Resource Rat)
    (h : usable s name true r = true) : usable s name false r = false := by
  rw [Bool.eq_false_iff]
  intro h'
  cases (usable_iff.1 h).2.2.symm.trans (usable_iff.1 h').2.2

section

variable {s : Selector} {name : ResourceName} {amount : Rat} {p p' : Pool Rat}

theorem takeScalar?_eq : p.takeScalar? s name amount =
    if stock (usable s name true) p + stock (usable s name false) p + Amount.tolerance < amount then
      none
    else
      let first := p.drain (usable s name true) amount
      let second := first.2.2.drain (usable s name false) first.1
      some (first.2.1 ++ second.2.1, second.2.2) := by
  rw [← available_eq]
  rfl

/-- The parts that are taken for a requirement make it up, up to the tolerance. -/
theorem supply_of_takeScalar? {fs : List (Resource Rat)}
    (h : p.takeScalar? s name amount = some (fs, p')) :
    amount ≤ amountOf (serves name) fs + Amount.tolerance ∧
      PartsOf p (serves name · = true) fs := by
  rw [takeScalar?_eq] at h
  split at h
  · cases h
  · next enough =>
    obtain ⟨rfl, -⟩ := Prod.mk.inj (Option.some.inj h)
    obtain ⟨pays, parts⟩ := pays_drain (usable s name true) amount p
    have taken := drain_taken (usable s name true) amount p
    have left := drain_left (usable s name true) amount p
    have others := stock_congr (filter_drain (usable_apart s name) amount p)
    generalize p.drain (usable s name true) amount = first at pays parts taken left others ⊢
    obtain ⟨-, parts'⟩ := pays_drain (usable s name false) first.1 first.2.2
    have taken' := drain_taken (usable s name false) first.1 first.2.2
    have left' := drain_left (usable s name false) first.1 first.2.2
    generalize first.2.2.drain (usable s name false) first.1 = second at parts' taken' left' ⊢
    have serve : PartsOf p (serves name · = true) (first.2.1 ++ second.2.1) :=
      (parts.mono fun r hr => (usable_iff.1 hr).1).append
        ((parts'.frame pays.frame).mono fun r hr => (usable_iff.1 hr).1)
    refine ⟨?_, serve⟩
    have all : (first.2.1 ++ second.2.1).filter (serves name) = first.2.1 ++ second.2.1 := by
      rw [List.filter_eq_self]
      intro f hf
      obtain ⟨-, c, -, hserves, hslice⟩ := serve f hf
      rw [hslice]
      exact hserves
    rw [others] at left'
    rw [amountOf, all, List.map_append, List.sum_append]
    rcases left' with small' | ⟨more', left'⟩
    · linarith
    · rcases left with small | ⟨-, left⟩ <;> linarith

/-- Chunks that serve another name are left alone. -/
theorem stock_of_takeScalar? {other : ResourceName} {test : Resource Rat → Bool}
    {fs : List (Resource Rat)} (h : p.takeScalar? s name amount = some (fs, p'))
    (unlike : other ≠ name) (others : ∀ r, test r = true → r.serves other = true) :
    stock test p' = stock test p := by
  rw [takeScalar?_eq] at h
  split at h
  · cases h
  · obtain ⟨-, rfl⟩ := Prod.mk.inj (Option.some.inj h)
    have apart : ∀ reserved r, usable s name reserved r = true → test r = false := by
      intro reserved r hr
      rw [Bool.eq_false_iff]
      intro passes
      exact unlike ((name_of_serves (others r passes)).symm.trans
        (name_of_serves (usable_iff.1 hr).1))
    exact stock_congr ((filter_drain (apart false) _ _).trans (filter_drain (apart true) _ _))

/-- What the reserved chunks have in stock is taken from these alone. -/
theorem takeScalar?_of_stock (enough : amount ≤ stock (usable s name true) p + Amount.tolerance)
    (others : 0 ≤ stock (usable s name false) p) :
    ∃ fs p', p.takeScalar? s name amount = some (fs, p') ∧ p'.frame = p.frame ∧
      PartsOf p (usable s name true · = true) fs := by
  obtain ⟨pays, parts⟩ := pays_drain (usable s name true) amount p
  have small : (p.drain (usable s name true) amount).1 ≤ Amount.tolerance := by
    rcases drain_left (usable s name true) amount p with small | ⟨-, left⟩
    · exact small
    · linarith
  refine ⟨_, _, ?_, pays.frame, parts⟩
  rw [takeScalar?_eq, if_neg (by linarith)]
  simp only [drain_of_le small, List.append_nil]

end

end Pool

namespace Matching

open Pool Resource

/-! ## All requirements -/

variable {s : Selector} {required : Requirements Rat} {names : List ResourceName}
  {reasons : List MismatchReason} {p p' : Pool Rat}

theorem addReason_ne_nil (reasons : List MismatchReason) (r : MismatchReason) :
    addReason reasons r ≠ [] := by
  unfold addReason
  split
  · next h =>
    rintro rfl
    cases h
  · simp

/-- A reason stays. -/
theorem reasons_of_takeScalars (h : (takeScalars s required reasons names p).2.1 = []) :
    reasons = [] := by
  induction names generalizing reasons p with
  | nil => exact h
  | cons name rest ih =>
    unfold takeScalars at h
    split at h
    · exact ih h
    · split at h
      · exact ih h
      · exact absurd (ih h) (addReason_ne_nil _ _)

/-- Requirements that are all met are supplied by the parts that are taken, and no part is taken for
anything else. -/
theorem supply_of_takeScalars (h : (takeScalars s required reasons names p).2.1 = []) :
    (∀ name ∈ names, Amount.tolerance < required.of name → required.of name ≤
        amountOf (serves name) (takeScalars s required reasons names p).1 + Amount.tolerance) ∧
      PartsOf p (fun r => ∃ name ∈ names, Amount.tolerance < required.of name ∧
        r.serves name = true) (takeScalars s required reasons names p).1 := by
  induction names generalizing reasons p with
  | nil => exact ⟨by simp, partsOf_nil p _⟩
  | cons name rest ih =>
    have further : ∀ r : Resource Rat, (∃ other ∈ rest, Amount.tolerance < required.of other ∧
        r.serves other = true) → ∃ other ∈ name :: rest, Amount.tolerance < required.of other ∧
          r.serves other = true :=
      fun r ⟨other, hother, hr⟩ => ⟨other, List.mem_cons_of_mem name hother, hr⟩
    by_cases small : required.of name ≤ Amount.tolerance
    · simp only [takeScalars, if_pos small] at h ⊢
      obtain ⟨supplied, parts⟩ := ih h
      refine ⟨?_, parts.mono further⟩
      intro other hother large
      rcases List.mem_cons.1 hother with rfl | hother
      · exact absurd large (not_lt.2 small)
      · exact supplied other hother large
    · cases taken : p.takeScalar? s name (required.of name) with
      | none =>
        simp only [takeScalars, if_neg small, taken] at h
        exact absurd (reasons_of_takeScalars h) (addReason_ne_nil _ _)
      | some result =>
        obtain ⟨first, mid⟩ := result
        simp only [takeScalars, if_neg small, taken] at h ⊢
        obtain ⟨pays, -⟩ := pays_takeScalar? taken
        obtain ⟨supplied, parts⟩ := supply_of_takeScalar? taken
        obtain ⟨supplied', parts'⟩ := ih h
        refine ⟨?_, (parts.mono fun r hr => ⟨name, List.mem_cons_self, not_le.1 small, hr⟩).append
          ((parts'.frame pays.frame).mono further)⟩
        intro other hother large
        have here : 0 ≤ amountOf (serves other) first :=
          amountOf_nonneg fun f hf => le_of_lt (parts f hf).1
        have later : 0 ≤ amountOf (serves other) (takeScalars s required reasons rest mid).1 :=
          amountOf_nonneg fun f hf => le_of_lt (parts' f hf).1
        rw [amountOf_append]
        rcases List.mem_cons.1 hother with rfl | hother
        · linarith
        · linarith [supplied' other hother large]

/-- What the reserved chunks have in stock for each requirement is taken from these alone. -/
theorem takeScalars_of_stock (distinct : names.Nodup)
    (enough : ∀ name ∈ names, Amount.tolerance < required.of name →
      required.of name ≤ stock (usable s name true) p + Amount.tolerance ∧
        0 ≤ stock (usable s name false) p) :
    ∃ parts p', takeScalars s required reasons names p = (parts, reasons, p') ∧
      p'.frame = p.frame ∧
      PartsOf p (fun r => r.Bare ∧ s.accepts r = true ∧ r.isReserved = true) parts := by
  induction names generalizing p with
  | nil => exact ⟨[], p, rfl, rfl, partsOf_nil p _⟩
  | cons name rest ih =>
    obtain ⟨new, distinct⟩ := List.nodup_cons.1 distinct
    by_cases small : required.of name ≤ Amount.tolerance
    · simp only [takeScalars, if_pos small]
      exact ih distinct fun other hother => enough other (List.mem_cons_of_mem name hother)
    · obtain ⟨reserved, others⟩ := enough name List.mem_cons_self (not_le.1 small)
      obtain ⟨first, mid, taken, frame, parts⟩ := takeScalar?_of_stock reserved others
      have kept : ∀ other ∈ rest, ∀ reserved, stock (usable s other reserved) mid =
          stock (usable s other reserved) p := by
        intro other hother reserved
        refine stock_of_takeScalar? taken ?_ fun r hr => (usable_iff.1 hr).1
        exact fun same => new (same ▸ hother)
      have enough' : ∀ other ∈ rest, Amount.tolerance < required.of other →
          required.of other ≤ stock (usable s other true) mid + Amount.tolerance ∧
            0 ≤ stock (usable s other false) mid := by
        intro other hother large
        rw [kept other hother, kept other hother]
        exact enough other (List.mem_cons_of_mem name hother) large
      obtain ⟨more, p', rest_taken, frame', parts'⟩ := ih distinct enough'
      refine ⟨first ++ more, p', ?_, frame'.trans frame, ?_⟩
      · simp only [takeScalars, if_neg small, taken, rest_taken]
      · refine (parts.mono ?_).append (parts'.frame frame)
        intro r hr
        obtain ⟨hserves, accepts, reserved⟩ := usable_iff.1 hr
        exact ⟨bare_of_servesScalar (Bool.and_eq_true_iff.1 hserves).2, accepts, reserved⟩

end Matching

end Placement
