import Mathlib
import AlgebraicModel.Proofs.Expression.Nonlinear

/-!
# Where the variables of a result come from

Arithmetic makes no records of variables: each one that occurs in a result occurs in an operand.
Of several records with one identity a product keeps the first, and what cancels takes its records
with it, so that a result may have fewer of them, and never others.

## Main definitions

* `Polynomial.bases`: the record of every factor, term by term

## Main results

* `Monomial.bases_times?`, `Polynomial.bases_ofTerms`: the records of products and collected terms
* `Expression.bases_negate`, `bases_add`, `bases_mul`, `bases_dotTerms`: the records of results
-/

namespace AlgebraicModel

/-- Two inclusions side by side. -/
private theorem append_subset_append {us us' vs vs' : List Variable} (hu : us ⊆ us')
    (hv : vs ⊆ vs') : us ++ vs ⊆ us' ++ vs' :=
  List.append_subset.mpr
    ⟨List.subset_append_of_subset_left _ hu, List.subset_append_of_subset_right _ hv⟩

/-! ## Factors -/

namespace Factor

/-- A factor that joins a power leaves the record of that power in place. -/
theorem bases_insert (f : Factor) (fs : List Factor) :
    (f.insert fs).map (·.base) ⊆ f.base :: fs.map (·.base) := by
  induction fs with
  | nil => exact List.Subset.refl _
  | cons g gs ih =>
    rw [insert]
    split
    · exact List.subset_cons_self _ _
    · intro v hv
      rcases List.mem_cons.mp hv with rfl | hv
      · simp
      · rcases List.mem_cons.mp (ih hv) with rfl | hv
        · simp
        · simp [hv]

theorem bases_merge (fs : List Factor) : (merge fs).map (·.base) ⊆ fs.map (·.base) := by
  refine List.foldlRecOn
    (motive := fun merged : List Factor => merged.map (·.base) ⊆ fs.map (·.base)) fs _ ?_ ?_
  · exact List.nil_subset _
  · intro merged hmerged f hf
    exact List.Subset.trans (bases_insert f merged)
      (List.cons_subset.mpr ⟨List.mem_map_of_mem hf, hmerged⟩)

end Factor

/-! ## Monomials -/

namespace Monomial

variable {α : Type}

/-- A monomial added to a sum brings no other records than its own. -/
theorem bases_insert [Add α] (m : Monomial α) (ts : List (Monomial α)) :
    (m.insert ts).flatMap (·.bases) ⊆ m.bases ++ ts.flatMap (·.bases) := by
  rcases m.insert_cases ts with ⟨us, t, vs, rfl, -, heq⟩ | ⟨-, heq⟩
  · have hbases (c : α) : (⟨c, t.factors⟩ : Monomial α).bases = t.bases := rfl
    rw [heq, List.flatMap_append, List.flatMap_cons, hbases, ← List.flatMap_cons,
      ← List.flatMap_append]
    exact List.subset_append_right _ _
  · intro v hv
    rw [heq, List.flatMap_append, List.flatMap_singleton] at hv
    exact List.mem_append.mpr (List.mem_append.mp hv).symm

variable [Scalar α] {m n r : Monomial α}

theorem bases_normalize (c : α) (fs : List Factor) :
    (normalize c fs).bases ⊆ fs.map (·.base) := by
  unfold normalize
  split
  · exact List.nil_subset _
  · exact (List.filter_sublist.map _).subset

theorem bases_scale (m : Monomial α) (c : α) : (m.scale c).bases ⊆ m.bases :=
  bases_normalize _ _

theorem bases_times? (h : m.times? n = some r) : r.bases ⊆ m.bases ++ n.bases := by
  simp only [times?, ofFactors?] at h
  split at h
  · obtain rfl := Option.some.inj h
    have hmerge := Factor.bases_merge (m.factors ++ n.factors)
    rw [List.map_append] at hmerge
    exact List.Subset.trans (bases_normalize _ _) hmerge
  · cases h

end Monomial

/-! ## Polynomials -/

namespace Polynomial

variable {α : Type}

/-- The record of every factor, term by term. -/
def bases (p : Polynomial α) : List Variable :=
  p.terms.flatMap (·.bases)

theorem mem_bases_iff {p : Polynomial α} {v : Variable} :
    v ∈ p.bases ↔ ∃ t ∈ p.terms, v ∈ t.bases :=
  List.mem_flatMap

variable [Scalar α] {p q r : Polynomial α}

/-- Collecting like terms brings no records that the terms do not have. -/
theorem bases_ofTerms (ts : List (Monomial α)) : (ofTerms ts).bases ⊆ ts.flatMap (·.bases) := by
  have hcollected : (ts.foldl (fun collected t => t.insert collected) []).flatMap (·.bases) ⊆
      ts.flatMap (·.bases) := by
    refine List.foldlRecOn (motive := fun collected : List (Monomial α) =>
      collected.flatMap (·.bases) ⊆ ts.flatMap (·.bases)) ts _ ?_ ?_
    · exact List.nil_subset _
    · intro collected hcollected t ht
      have hown : t.bases ⊆ ts.flatMap (·.bases) :=
        fun v hv => List.mem_flatMap.mpr ⟨t, ht, hv⟩
      exact List.Subset.trans (Monomial.bases_insert t collected)
        (List.append_subset.mpr ⟨hown, hcollected⟩)
  intro v hv
  obtain ⟨t, ht, hv⟩ := mem_bases_iff.mp hv
  exact hcollected (List.mem_flatMap.mpr ⟨t, (List.mem_filter.mp ht).1, hv⟩)

theorem bases_add (p q : Polynomial α) : (p.add q).bases ⊆ p.bases ++ q.bases := by
  have h := bases_ofTerms (p.terms ++ q.terms)
  rwa [List.flatMap_append] at h

theorem bases_scale (p : Polynomial α) (c : α) : (p.scale c).bases ⊆ p.bases := by
  intro v hv
  obtain ⟨s, hs, hv⟩ := List.mem_flatMap.mp (bases_ofTerms _ hv)
  obtain ⟨t, ht, rfl⟩ := List.mem_map.mp hs
  exact mem_bases_iff.mpr ⟨t, ht, Monomial.bases_scale t c hv⟩

theorem bases_times? (h : p.times? q = some r) : r.bases ⊆ p.bases ++ q.bases := by
  obtain ⟨products, hproducts, heq⟩ := Option.bind_eq_some_iff.mp h
  obtain rfl := Option.some.inj heq
  intro v hv
  obtain ⟨t, ht, hv⟩ := List.mem_flatMap.mp (bases_ofTerms _ hv)
  obtain ⟨row, hrow, ht⟩ := List.mem_flatten.mp ht
  obtain ⟨s, hs, hrow⟩ := exists_of_forall₂ (mapM_eq_some_iff.mp hproducts) hrow
  obtain ⟨u, hu, ht⟩ := exists_of_forall₂ (mapM_eq_some_iff.mp hrow) ht
  rcases List.mem_append.mp (Monomial.bases_times? ht hv) with hv | hv
  · exact List.mem_append_left _ (mem_bases_iff.mpr ⟨s, hs, hv⟩)
  · exact List.mem_append_right _ (mem_bases_iff.mpr ⟨u, hu, hv⟩)

end Polynomial

/-! ## Expressions -/

namespace Expression

variable {α : Type} [Scalar α] {a b e : Expression α}

omit [Scalar α] in
theorem mem_bases_mono_iff {ms : Slots (Monomial α)} {v : Variable} :
    v ∈ (mono ms).bases ↔ ∃ m ∈ ms.toList, v ∈ m.bases :=
  List.mem_flatMap

omit [Scalar α] in
theorem mem_bases_poly_iff {ps : Slots (Polynomial α)} {v : Variable} :
    v ∈ (poly ps).bases ↔ ∃ p ∈ ps.toList, v ∈ p.bases :=
  List.mem_flatMap

/-- Slots read as polynomials have no records that the expression does not have. -/
theorem bases_of_mem_polynomials {p : Polynomial α} (hp : p ∈ e.polynomials) :
    p.bases ⊆ e.bases := by
  intro v hv
  obtain ⟨t, ht, hv⟩ := Polynomial.mem_bases_iff.mp hv
  exact mem_bases_of_mem_terms (mem_terms_iff.mpr ⟨p, hp, ht⟩) hv

theorem bases_of_mem_monomials? {ms : List (Monomial α)} (h : e.monomials? = some ms)
    {m : Monomial α} (hm : m ∈ ms) : m.bases ⊆ e.bases := by
  cases e with
  | const xs =>
    obtain rfl := Option.some.inj h
    obtain ⟨x, -, rfl⟩ := List.mem_map.mp hm
    exact List.nil_subset _
  | var vs =>
    obtain rfl := Option.some.inj h
    obtain ⟨v, hv, rfl⟩ := List.mem_map.mp hm
    exact List.cons_subset.mpr ⟨hv, List.nil_subset _⟩
  | mono ms' =>
    obtain rfl := Option.some.inj h
    exact fun v hv => mem_bases_mono_iff.mpr ⟨m, hm, hv⟩
  | poly ps => cases h

/-! ### Sums -/

theorem bases_negate (e : Expression α) : e.negate.bases ⊆ e.bases := by
  cases e with
  | const xs => exact List.nil_subset _
  | var vs =>
    intro u hu
    obtain ⟨m, hm, hu⟩ := mem_bases_mono_iff.mp hu
    rw [Slots.toList_map] at hm
    obtain ⟨v, hv, rfl⟩ := List.mem_map.mp hm
    obtain rfl : u = v := by
      simpa [Monomial.bases, Monomial.ofVariable] using Monomial.bases_scale _ _ hu
    exact hv
  | mono ms =>
    intro v hv
    obtain ⟨m, hm, hv⟩ := mem_bases_mono_iff.mp hv
    rw [Slots.toList_map] at hm
    obtain ⟨n, hn, rfl⟩ := List.mem_map.mp hm
    exact mem_bases_mono_iff.mpr ⟨n, hn, Monomial.bases_scale n _ hv⟩
  | poly ps =>
    intro v hv
    obtain ⟨p, hp, hv⟩ := mem_bases_poly_iff.mp hv
    rw [Slots.toList_map] at hp
    obtain ⟨q, hq, rfl⟩ := List.mem_map.mp hp
    exact mem_bases_poly_iff.mpr ⟨q, hq, Polynomial.bases_scale q _ hv⟩

theorem IsSum.bases (h : IsSum a b e) : e.bases ⊆ a.bases ++ b.bases := by
  intro v hv
  cases h with
  | numbers => cases hv
  | @like m n hm =>
    subst hm
    obtain ⟨r, hr, hv⟩ := mem_bases_mono_iff.mp hv
    obtain rfl := List.mem_singleton.mp hr
    refine List.mem_append_left _ (mem_bases_mono_iff.mpr ⟨m, by simp, ?_⟩)
    exact Monomial.bases_normalize _ _ hv
  | polynomials h =>
    obtain ⟨r, hr, hv⟩ := mem_bases_poly_iff.mp hv
    rw [Slots.toList_ofList] at hr
    obtain ⟨p, hp, q, hq, rfl⟩ := exists_of_mem_broadcast? h hr
    exact append_subset_append (bases_of_mem_polynomials hp) (bases_of_mem_polynomials hq)
      (Polynomial.bases_add p q hv)

/-- **A sum has no records of variables but those of its operands.** -/
theorem bases_add (h : a.add b = .ok e) : e.bases ⊆ a.bases ++ b.bases := by
  rcases isSum_of_add h with h | h
  · exact h.bases
  · exact fun v hv => List.mem_append.mpr (List.mem_append.mp (h.bases hv)).symm

/-! ### Products -/

theorem IsProduct.bases (h : IsProduct a b e) : e.bases ⊆ a.bases ++ b.bases := by
  intro v hv
  cases h with
  | numbers => cases hv
  | monomials ha hb h =>
    obtain ⟨r, hr, hv⟩ := mem_bases_mono_iff.mp hv
    rw [Slots.toList_ofList] at hr
    obtain ⟨m, hm, n, hn, hproduct⟩ := exists_of_mem_broadcast? h (List.mem_map_of_mem hr)
    exact append_subset_append (bases_of_mem_monomials? ha hm) (bases_of_mem_monomials? hb hn)
      (Monomial.bases_times? hproduct hv)
  | polynomials h =>
    obtain ⟨r, hr, hv⟩ := mem_bases_poly_iff.mp hv
    rw [Slots.toList_ofList] at hr
    obtain ⟨p, hp, q, hq, hproduct⟩ := exists_of_mem_broadcast? h (List.mem_map_of_mem hr)
    exact append_subset_append (bases_of_mem_polynomials hp) (bases_of_mem_polynomials hq)
      (Polynomial.bases_times? hproduct hv)

/-- **A product has no records of variables but those of its operands.** -/
theorem bases_mul (h : a.mul b = .ok e) : e.bases ⊆ a.bases ++ b.bases := by
  rcases isProduct_of_mul h with h | h
  · exact h.bases
  · exact fun v hv => List.mem_append.mpr (List.mem_append.mp (h.bases hv)).symm

omit [Scalar α] in
theorem bases_slot {i : ℕ} (h : a.slot i = .ok e) : e.bases ⊆ a.bases := by
  unfold slot at h
  split at h
  · next s hs =>
    obtain rfl := Except.ok.inj h
    intro v hv
    cases a <;> obtain ⟨s', hs', rfl⟩ := Option.map_eq_some_iff.mp hs <;>
      obtain ⟨x, hx, rfl⟩ := mem_of_at?_eq_some hs'
    case const => simp [bases] at hv
    case var =>
      obtain rfl := List.mem_singleton.mp hv
      exact hx
    case mono =>
      obtain ⟨m, hm, hvm⟩ := mem_bases_mono_iff.mp hv
      obtain rfl := List.mem_singleton.mp hm
      exact mem_bases_mono_iff.mpr ⟨m, hx, hvm⟩
    case poly =>
      obtain ⟨p, hp, hvp⟩ := mem_bases_poly_iff.mp hv
      obtain rfl := List.mem_singleton.mp hp
      exact mem_bases_poly_iff.mpr ⟨p, hx, hvp⟩
  · cases h

theorem bases_dotTerms {ts : List (Monomial α)} (h : a.dotTerms b = .ok ts) :
    ts.flatMap (·.bases) ⊆ a.bases ++ b.bases := by
  obtain ⟨rows, hrows, heq⟩ := bind_eq_ok_iff.mp h
  obtain rfl := Except.ok.inj heq
  intro v hv
  obtain ⟨t, ht, hv⟩ := List.mem_flatMap.mp hv
  obtain ⟨row, hrow, ht⟩ := List.mem_flatten.mp ht
  obtain ⟨i, -, hi⟩ := exists_of_forall₂ (mapM_eq_ok_iff.mp hrows) hrow
  obtain ⟨x, hx, hi⟩ := bind_eq_ok_iff.mp hi
  obtain ⟨y, hy, hi⟩ := bind_eq_ok_iff.mp hi
  obtain ⟨product, hproduct, heq⟩ := bind_eq_ok_iff.mp hi
  obtain rfl := Except.ok.inj heq
  have hv : v ∈ product.bases := mem_bases_of_mem_terms ht hv
  exact append_subset_append (bases_slot hx) (bases_slot hy) (bases_mul hproduct hv)

end Expression

end AlgebraicModel
