import Mathlib
import AlgebraicModel.Polynomial
import AlgebraicModel.Proofs.Except.Traversal

/-!
# Normal forms of monomials and polynomials

A monomial in normal form has every variable once, no zero exponents, a degree within bounds, and
no factors if its coefficient is zero. A polynomial in normal form has its terms in normal form, no
two of them alike, and none with coefficient zero. Every operation on monomials and polynomials
keeps the normal forms, whatever the arithmetic of the coefficients.

## Main definitions

* `Factor.IsNormal`, `Monomial.IsNormal`, `Polynomial.IsNormal`: the normal forms

## Main results

* `Monomial.isNormal_ofFactors?`, `isNormal_scale`, `isNormal_times?`, `isNormal_derivative`
* `Polynomial.isNormal_ofTerms`: collecting like terms gives a normal form
-/

namespace AlgebraicModel

/-! ## Products of powers -/

namespace Factor

/-- Every variable once, no zero exponents, and a degree within bounds. -/
structure IsNormal (fs : List Factor) : Prop where
  distinct : (fs.map (·.base.id)).Nodup
  positive : ∀ f ∈ fs, f.exponent ≠ 0
  bounded : degree fs ≤ maxDegree

@[simp] theorem degree_nil : degree [] = 0 := rfl

@[simp] theorem degree_cons (f : Factor) (fs : List Factor) :
    degree (f :: fs) = f.exponent + degree fs := rfl

theorem isNormal_nil : IsNormal [] := ⟨by simp, by simp, by simp⟩

/-- A factor joins the power of its variable, or comes last. -/
theorem ids_insert (f : Factor) (fs : List Factor) :
    (f.insert fs).map (·.base.id) =
      if f.base.id ∈ fs.map (·.base.id) then fs.map (·.base.id)
      else fs.map (·.base.id) ++ [f.base.id] := by
  induction fs with
  | nil => simp [insert]
  | cons g gs ih =>
    by_cases hg : g.base.id = f.base.id
    · simp [insert, hg]
    · have hne : f.base.id ≠ g.base.id := fun h => hg h.symm
      rw [insert, if_neg hg, List.map_cons, ih, List.map_cons]
      by_cases hmem : f.base.id ∈ gs.map (·.base.id)
      · simp [hmem]
      · rw [if_neg hmem, if_neg (by simpa [hne] using hmem)]
        rfl

theorem degree_insert (f : Factor) (fs : List Factor) :
    degree (f.insert fs) = f.exponent + degree fs := by
  induction fs with
  | nil => simp [insert]
  | cons g gs ih =>
    by_cases hg : g.base.id = f.base.id
    · simp only [insert, hg, if_true, degree_cons]
      omega
    · simp only [insert, hg, if_false, degree_cons, ih]
      omega

theorem nodup_insert (f : Factor) {fs : List Factor} (h : (fs.map (·.base.id)).Nodup) :
    ((f.insert fs).map (·.base.id)).Nodup := by
  rw [ids_insert]
  split
  · exact h
  · next hmem => exact List.nodup_append.mpr ⟨h, by simp, by
      intro a ha b hb
      obtain rfl := List.mem_singleton.mp hb
      exact fun hab => hmem (hab ▸ ha)⟩

theorem nodup_merge (fs : List Factor) : ((merge fs).map (·.base.id)).Nodup :=
  List.foldlRecOn (motive := fun merged : List Factor => (merged.map (·.base.id)).Nodup) fs _
    (by simp) fun _ hmerged f _ => nodup_insert f hmerged

theorem degree_merge (fs : List Factor) : degree (merge fs) = degree fs := by
  -- Merging moves exponents from the factors still to come into those merged so far.
  have hfold (fs : List Factor) : ∀ merged : List Factor,
      degree (fs.foldl (fun merged f => f.insert merged) merged) = degree merged + degree fs := by
    induction fs with
    | nil => simp
    | cons f fs ih =>
      intro merged
      rw [List.foldl_cons, ih, degree_insert, degree_cons]
      omega
  simpa [merge] using hfold fs []

theorem degree_sublist {fs gs : List Factor} (h : fs.Sublist gs) : degree fs ≤ degree gs := by
  induction h with
  | slnil => rfl
  | cons f _ ih => exact ih.trans (Nat.le_add_left _ _)
  | cons_cons f _ ih => exact Nat.add_le_add_left ih _

/-- Leaving out zero exponents. -/
theorem isNormal_filter {fs : List Factor} (hdistinct : (fs.map (·.base.id)).Nodup)
    (hbounded : degree fs ≤ maxDegree) : IsNormal (fs.filter (·.exponent ≠ 0)) where
  distinct := hdistinct.sublist (List.filter_sublist.map _)
  positive f hf := by simpa using (List.mem_filter.mp hf).2
  bounded := (degree_sublist List.filter_sublist).trans hbounded

theorem ids_lower (id : VariableId) (fs : List Factor) :
    (lower id fs).map (·.base.id) = fs.map (·.base.id) := by
  induction fs with
  | nil => rfl
  | cons f fs ih => by_cases hf : f.base.id = id <;> simp [lower, hf, ih]

theorem degree_lower (id : VariableId) (fs : List Factor) : degree (lower id fs) ≤ degree fs := by
  induction fs with
  | nil => simp [lower]
  | cons f fs ih =>
    by_cases hf : f.base.id = id
    · simp [lower, hf]
    · simpa [lower, hf] using ih

end Factor

/-! ## Monomials -/

namespace Monomial

variable {α : Type} [Scalar α] {m n : Monomial α}

structure IsNormal (m : Monomial α) : Prop where
  factors : Factor.IsNormal m.factors
  /-- A zero has no variables. -/
  collapsed : (m.coefficient == 0) = true → m.factors = []

theorem isNormal_const (c : α) : (const c).IsNormal := ⟨Factor.isNormal_nil, fun _ => rfl⟩

theorem isNormal_ofVariable (h : ((1 : α) == 0) = false) (v : Variable) :
    (ofVariable v : Monomial α).IsNormal where
  factors :=
    ⟨by simp [ofVariable], by simp [ofVariable], by simp [ofVariable, Factor.degree, maxDegree]⟩
  collapsed h' := by simp [ofVariable, h] at h'

theorem isNormal_normalize (c : α) {fs : List Factor} (hdistinct : (fs.map (·.base.id)).Nodup)
    (hbounded : Factor.degree fs ≤ maxDegree) : (normalize c fs).IsNormal := by
  unfold normalize
  split
  · exact isNormal_const 0
  · next hc => exact ⟨Factor.isNormal_filter hdistinct hbounded, fun h => (hc h).elim⟩

theorem isNormal_ofFactors? {c : α} {fs : List Factor} (h : ofFactors? c fs = some m) :
    m.IsNormal := by
  simp only [ofFactors?] at h
  split at h
  · next hdegree =>
    obtain rfl := Option.some.inj h
    exact isNormal_normalize c (Factor.nodup_merge fs) hdegree
  · simp at h

theorem isNormal_times? (h : m.times? n = some r) : r.IsNormal :=
  isNormal_ofFactors? h

theorem isNormal_scale (h : m.IsNormal) (c : α) : (m.scale c).IsNormal :=
  isNormal_normalize _ h.factors.distinct h.factors.bounded

theorem isNormal_derivative (h : m.IsNormal) (id : VariableId) : (m.derivative id).IsNormal := by
  unfold derivative
  split
  · exact isNormal_const 0
  · refine isNormal_normalize _ ?_ ((Factor.degree_lower id _).trans h.factors.bounded)
    rw [Factor.ids_lower]
    exact h.factors.distinct

end Monomial

/-! ## Like terms -/

namespace Monomial

variable {α : Type} {s t m : Monomial α}

theorem isLike_iff : s.isLike t = true ↔ s.powers.Perm t.powers :=
  List.isPerm_iff

theorem isLike_congr_left (h : s.factors = t.factors) : s.isLike m = t.isLike m := by
  simp [isLike, powers, h]

theorem isLike_congr_right (h : s.factors = t.factors) : m.isLike s = m.isLike t := by
  simp [isLike, powers, h]

/-- The terms of a sum after one more monomial: one of them has a new coefficient, or the monomial
comes last and is like none of them. -/
theorem insert_cases [Add α] (m : Monomial α) (ts : List (Monomial α)) :
    (∃ us t vs, ts = us ++ t :: vs ∧ t.isLike m ∧
      m.insert ts = us ++ { t with coefficient := t.coefficient + m.coefficient } :: vs) ∨
    (∀ t ∈ ts, ¬ t.isLike m) ∧ m.insert ts = ts ++ [m] := by
  induction ts with
  | nil => exact .inr ⟨by simp, rfl⟩
  | cons t ts ih =>
    by_cases ht : t.isLike m
    · exact .inl ⟨[], t, ts, rfl, ht, by simp [insert, ht]⟩
    · rcases ih with ⟨us, u, vs, rfl, hu, heq⟩ | ⟨hnone, heq⟩
      · exact .inl ⟨t :: us, u, vs, rfl, hu, by simp [insert, ht, heq]⟩
      · refine .inr ⟨?_, by simp [insert, ht, heq]⟩
        simpa [ht] using hnone

end Monomial

/-! ## Polynomials -/

namespace Polynomial

variable {α : Type} [Scalar α] {p q : Polynomial α}

structure IsNormal (p : Polynomial α) : Prop where
  terms : ∀ t ∈ p.terms, t.IsNormal
  unlike : p.terms.Pairwise fun s t => ¬ s.isLike t
  nonzero : ∀ t ∈ p.terms, (t.coefficient == 0) = false

/-- The like terms collected so far. Their coefficients may be zero until all are collected. -/
structure IsCollected (ts : List (Monomial α)) : Prop where
  factors : ∀ t ∈ ts, Factor.IsNormal t.factors
  unlike : ts.Pairwise fun s t => ¬ s.isLike t

theorem isCollected_insert {m : Monomial α} (hm : Factor.IsNormal m.factors)
    {ts : List (Monomial α)} (h : IsCollected ts) : IsCollected (m.insert ts) := by
  rcases m.insert_cases ts with ⟨us, t, vs, rfl, -, heq⟩ | ⟨hnone, heq⟩
  · have hlike (c : α) (s : Monomial α) : s.isLike ⟨c, t.factors⟩ = s.isLike t :=
      Monomial.isLike_congr_right rfl
    have hlike' (c : α) (s : Monomial α) : (⟨c, t.factors⟩ : Monomial α).isLike s = t.isLike s :=
      Monomial.isLike_congr_left rfl
    rw [heq]
    refine ⟨fun s hs => ?_, ?_⟩
    · rcases List.mem_append.mp hs with hs | hs
      · exact h.factors s (List.mem_append_left _ hs)
      · rcases List.mem_cons.mp hs with rfl | hs
        · exact h.factors t (by simp)
        · exact h.factors s (by simp [hs])
    · simpa only [List.pairwise_append, List.pairwise_cons, List.mem_cons, forall_eq_or_imp, hlike,
        hlike'] using h.unlike
  · rw [heq]
    refine ⟨fun s hs => ?_, List.pairwise_append.mpr ⟨h.unlike, by simp, by simpa using hnone⟩⟩
    rcases List.mem_append.mp hs with hs | hs
    · exact h.factors s hs
    · obtain rfl := List.mem_singleton.mp hs
      exact hm

/-- Collecting like terms gives a normal form. -/
theorem isNormal_ofTerms {ts : List (Monomial α)} (h : ∀ t ∈ ts, Factor.IsNormal t.factors) :
    (ofTerms ts).IsNormal := by
  have hcollected : IsCollected (ts.foldl (fun collected t => t.insert collected) []) :=
    List.foldlRecOn (motive := IsCollected) ts _ ⟨by simp, by simp⟩
      fun _ hcollected t ht => isCollected_insert (h t ht) hcollected
  -- Terms without a coefficient are dropped once all like terms are collected.
  refine ⟨fun t ht => ?_, hcollected.unlike.sublist List.filter_sublist, fun t ht => ?_⟩
  · obtain ⟨hmem, hne⟩ := List.mem_filter.mp ht
    exact ⟨hcollected.factors t hmem, fun hzero => by simp [bne, hzero] at hne⟩
  · simpa [bne] using (List.mem_filter.mp ht).2

theorem isNormal_ofMonomial {m : Monomial α} (h : m.IsNormal) : (ofMonomial m).IsNormal :=
  isNormal_ofTerms (by simpa using h.factors)

theorem isNormal_add (hp : p.IsNormal) (hq : q.IsNormal) : (p.add q).IsNormal :=
  isNormal_ofTerms fun t ht => (List.mem_append.mp ht).elim
    (fun ht => (hp.terms t ht).factors) fun ht => (hq.terms t ht).factors

theorem isNormal_scale (hp : p.IsNormal) (c : α) : (p.scale c).IsNormal := by
  refine isNormal_ofTerms fun t ht => ?_
  obtain ⟨s, hs, rfl⟩ := List.mem_map.mp ht
  exact (Monomial.isNormal_scale (hp.terms s hs) c).factors

theorem isNormal_derivative (hp : p.IsNormal) (id : VariableId) : (p.derivative id).IsNormal := by
  refine isNormal_ofTerms fun t ht => ?_
  obtain ⟨s, hs, rfl⟩ := List.mem_map.mp ht
  exact (Monomial.isNormal_derivative (hp.terms s hs) id).factors

theorem isNormal_times? {r : Polynomial α} (h : p.times? q = some r) : r.IsNormal := by
  obtain ⟨products, hproducts, heq⟩ := Option.bind_eq_some_iff.mp h
  obtain rfl := Option.some.inj heq
  refine isNormal_ofTerms fun t ht => ?_
  obtain ⟨row, hrow, ht⟩ := List.mem_flatten.mp ht
  obtain ⟨s, -, hs⟩ := exists_of_forall₂ (mapM_eq_some_iff.mp hproducts) hrow
  obtain ⟨u, -, hu⟩ := exists_of_forall₂ (mapM_eq_some_iff.mp hs) ht
  exact (Monomial.isNormal_times? hu).factors

end Polynomial

end AlgebraicModel
