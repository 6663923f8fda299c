import Mathlib
import AlgebraicModel.Proofs.Expression.Slotwise
import AlgebraicModel.Proofs.Expression.Validity

/-!
# Valid expressions are closed under the algebra

The check of an expression looks at every record of a variable in it, while sums and products keep
one record of several with one identity, and the records may differ in their bounds. Validity would
not be kept if a merge made up a record of its own. None does: whatever an operation stores was
stored in an operand before, so that a result has nothing in it to turn away.

## Main definitions

* `Expression.Yields a b e`: `e` is a result of one operation on `a`, or on `a` and `b`
* `Expression.Built start e`: `e` is a result of any sequence of operations

## Main results

* `Expression.Yields.bases`: one operation stores no records but those of its operands
* `Expression.Built.bases`, `Built.check`: records and validity after any sequence of them
-/

namespace AlgebraicModel

/-! ## Derivatives -/

/-- Lowering an exponent keeps the record of every factor. -/
theorem Factor.bases_lower (id : VariableId) (fs : List Factor) :
    (lower id fs).map (·.base) = fs.map (·.base) := by
  induction fs with
  | nil => rfl
  | cons f fs ih =>
    rw [lower]
    split
    · rfl
    · rw [List.map_cons, List.map_cons, ih]

variable {α : Type} [Scalar α]

theorem Monomial.bases_derivative (m : Monomial α) (id : VariableId) :
    (m.derivative id).bases ⊆ m.bases := by
  unfold derivative
  split
  · exact List.nil_subset _
  · apply List.Subset.trans (bases_normalize _ _)
    rw [Factor.bases_lower]
    exact List.Subset.refl _

theorem Polynomial.bases_derivative (p : Polynomial α) (id : VariableId) :
    (p.derivative id).bases ⊆ p.bases := by
  intro v hv
  obtain ⟨s, hs, hv⟩ := List.mem_flatMap.mp (bases_ofTerms _ hv)
  obtain ⟨t, ht, rfl⟩ := List.mem_map.mp hs
  exact mem_bases_iff.mpr ⟨t, ht, Monomial.bases_derivative t id hv⟩

namespace Expression

variable {a b e : Expression α} {start : Expression α → Prop}

theorem bases_derivative (e : Expression α) (id : VariableId) :
    (e.derivative id).bases ⊆ e.bases := by
  intro v hv
  cases e with
  | const xs => cases hv
  | var vs => cases hv
  | mono ms =>
    obtain ⟨m, hm, hv⟩ := mem_bases_mono_iff.mp hv
    rw [Slots.toList_map] at hm
    obtain ⟨n, hn, rfl⟩ := List.mem_map.mp hm
    exact mem_bases_mono_iff.mpr ⟨n, hn, n.bases_derivative id hv⟩
  | poly ps =>
    obtain ⟨p, hp, hv⟩ := mem_bases_poly_iff.mp hv
    rw [Slots.toList_map] at hp
    obtain ⟨q, hq, rfl⟩ := List.mem_map.mp hp
    exact mem_bases_poly_iff.mpr ⟨q, hq, q.bases_derivative id hv⟩

/-! ## Powers and inner products -/

/-- Every further factor brings the records of the base again. -/
theorem bases_mulRepeated {product : Expression α} {n : ℕ} (hproduct : product.bases ⊆ a.bases)
    (h : mulRepeated a product n = .ok e) : e.bases ⊆ a.bases := by
  induction n generalizing product with
  | zero =>
    obtain rfl := Except.ok.inj h
    exact hproduct
  | succ n ih =>
    obtain ⟨next, hnext, hrest⟩ := bind_eq_ok_iff.mp h
    apply ih _ hrest
    apply List.Subset.trans (bases_mul hnext)
    exact List.append_subset.mpr ⟨hproduct, List.Subset.refl _⟩

theorem bases_power {n : ℕ} (h : a.power n = .ok e) : e.bases ⊆ a.bases := by
  simp only [power] at h
  split at h
  · simp [bind, Except.bind] at h
  · obtain ⟨-, -, hproduct⟩ := bind_eq_ok_iff.mp h
    exact bases_mulRepeated (List.nil_subset _) hproduct

theorem bases_dot (h : (a.dot (.expression b)).result = .ok e) :
    e.bases ⊆ a.bases ++ b.bases := by
  obtain ⟨c, hc, -, hresult⟩ := dot_eq_ok_iff.mp h
  obtain ⟨-, -, rfl⟩ := checkedOperand_expression_iff.mp hc
  split at hresult
  · subst hresult
    exact List.nil_subset _
  · obtain ⟨ts, hts, rfl⟩ := hresult
    intro v hv
    obtain ⟨p, hp, hv⟩ := mem_bases_poly_iff.mp hv
    obtain rfl := List.mem_singleton.mp hp
    exact bases_dotTerms hts (Polynomial.bases_ofTerms ts hv)

/-! ## One operation -/

/-- `e` is a result of one operation on `a`, or on `a` and `b`. -/
inductive Yields (a b : Expression α) : Expression α → Prop
  | plus {e : Expression α} (h : (a.plus (.expression b)).result = .ok e) : Yields a b e
  | minus {e : Expression α} (h : (a.minus (.expression b)).result = .ok e) : Yields a b e
  | multiply {e : Expression α} (h : (a.multiply (.expression b)).result = .ok e) : Yields a b e
  | dot {e : Expression α} (h : (a.dot (.expression b)).result = .ok e) : Yields a b e
  | power {e : Expression α} (n : ℕ) (h : a.power n = .ok e) : Yields a b e
  | negate : Yields a b a.negate
  | transpose {e : Expression α} (h : a.transpose = .ok e) : Yields a b e
  | slot {e : Expression α} (i : ℕ) (h : a.slot i = .ok e) : Yields a b e
  | derivative (v : Variable) : Yields a b (a.derivative v.id)

/-- **An operation stores no records of variables but those of its operands.** -/
theorem Yields.bases (h : a.Yields b e) : e.bases ⊆ a.bases ++ b.bases := by
  cases h with
  | plus h =>
    obtain ⟨-, hsum⟩ := plus_expression_iff.mp h
    exact bases_add hsum
  | minus h =>
    obtain ⟨-, hsum⟩ := minus_expression_iff.mp h
    apply List.Subset.trans (bases_add hsum)
    apply List.append_subset.mpr
    exact ⟨List.subset_append_left _ _,
      List.subset_append_of_subset_right _ (bases_negate b)⟩
  | multiply h =>
    obtain ⟨c, hc, -, hproduct⟩ := multiply_eq_ok_iff.mp h
    obtain ⟨-, -, rfl⟩ := checkedOperand_expression_iff.mp hc
    exact bases_mul hproduct
  | dot h => exact bases_dot h
  | power n h => exact List.subset_append_of_subset_left _ (bases_power h)
  | negate => exact List.subset_append_of_subset_left _ (bases_negate a)
  | transpose h =>
    unfold Expression.transpose at h
    split at h
    · obtain rfl := Except.ok.inj h
      exact List.subset_append_left _ _
    · cases h
  | slot i h => exact List.subset_append_of_subset_left _ (bases_slot h)
  | derivative v => exact List.subset_append_of_subset_left _ (bases_derivative a v.id)

/-- The result of an operation on valid operands is valid. -/
theorem Yields.check (h : a.Yields b e) (ha : a.check = .ok ()) (hb : b.check = .ok ()) :
    e.check = .ok () := by
  apply check_eq_ok_iff.mpr
  intro v hv
  rcases List.mem_append.mp (h.bases hv) with hv | hv
  · exact check_eq_ok_iff.mp ha v hv
  · exact check_eq_ok_iff.mp hb v hv

/-- The identities that are listed for the result of an operation are listed for an operand. -/
theorem Yields.ids_vars (h : a.Yields b e) :
    e.vars.map (·.id) ⊆ (a.vars ++ b.vars).map (·.id) := by
  intro id hid
  obtain ⟨v, hv, rfl⟩ := List.mem_map.mp hid
  rcases List.mem_append.mp (h.bases (Variable.distinct_subset hv)) with hv | hv
  · obtain ⟨u, hu, huv⟩ := Variable.exists_mem_distinct hv
    exact List.mem_map.mpr ⟨u, List.mem_append_left _ hu, huv⟩
  · obtain ⟨u, hu, huv⟩ := Variable.exists_mem_distinct hv
    exact List.mem_map.mpr ⟨u, List.mem_append_right _ hu, huv⟩

/-! ## Any sequence of operations -/

/-- What can be built from the expressions with a property, by any sequence of operations. -/
inductive Built (start : Expression α → Prop) : Expression α → Prop
  | given {a : Expression α} (h : start a) : Built start a
  | result {a b e : Expression α} (ha : Built start a) (hb : Built start b) (h : a.Yields b e) :
      Built start e

/-- **However an expression was built, each record in it was given.** -/
theorem Built.bases (h : Built start e) : ∀ v ∈ e.bases, ∃ a, start a ∧ v ∈ a.bases := by
  induction h with
  | @given a ha =>
    intro v hv
    exact ⟨a, ha, hv⟩
  | result _ _ hyields iha ihb =>
    intro v hv
    rcases List.mem_append.mp (hyields.bases hv) with hv | hv
    · exact iha v hv
    · exact ihb v hv

theorem Built.check (h : Built start e) (hstart : ∀ a, start a → a.check = .ok ()) :
    e.check = .ok () := by
  induction h with
  | given ha => exact hstart _ ha
  | result _ _ hyields iha ihb => exact hyields.check iha ihb

end Expression

end AlgebraicModel
