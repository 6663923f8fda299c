import Mathlib
import AlgebraicModel.Proofs.Expression.Canonical
import AlgebraicModel.Proofs.Expression.Degree
import AlgebraicModel.Proofs.Expression.MergedFactors

/-!
# The order of factors

A product joins the factors of its operands in the order in which they stand, and each variable
stays where it occurs first. Exchanging the operands therefore leaves the coefficient and the powers
as they are and moves factors. A variable and a monomial are exchanged without moving any just where
the variable is the first of the monomial already.

## Main definitions

* `Monomial.IsLedBy`: the first factor is a power of a variable

## Main results

* `Factor.merge_cons_eq_insert_iff`: where a power is joined from the left as from the right
* `Factor.exponents_merge`: merging keeps the exponent of every variable
* `Monomial.times?_ofVariable_comm_iff`, `content_times?_comm`: products that are exchanged, exactly
  and up to the order of their factors
-/

namespace AlgebraicModel

/-! ## Products of powers -/

namespace Factor

/-- Powers of different variables are merged as they are. -/
theorem foldl_insert_of_nodup {merged fs : List Factor}
    (h : ((merged ++ fs).map (·.base.id)).Nodup) :
    fs.foldl (fun merged f => f.insert merged) merged = merged ++ fs := by
  rw [foldl_insert_eq_grouping]
  exact Grouping.foldl_insert_of_nodup h

theorem merge_of_nodup {fs : List Factor} (h : (fs.map (·.base.id)).Nodup) : merge fs = fs :=
  foldl_insert_of_nodup (by simpa using h)

theorem exists_insert_cons (f g : Factor) (gs : List Factor) :
    ∃ n hs, f.insert (g :: gs) = ⟨g.base, n⟩ :: hs := by
  rw [insert]
  split
  · exact ⟨_, _, rfl⟩
  · exact ⟨_, _, rfl⟩

/-- The first record of a product stays the first. -/
theorem exists_merge_cons (f : Factor) (fs : List Factor) :
    ∃ n gs, merge (f :: fs) = ⟨f.base, n⟩ :: gs := by
  have hfold (fs : List Factor) : ∀ n gs,
      ∃ k hs, fs.foldl (fun merged f => f.insert merged) (⟨f.base, n⟩ :: gs) =
        ⟨f.base, k⟩ :: hs := by
    induction fs with
    | nil => exact fun n gs => ⟨n, gs, rfl⟩
    | cons f' fs ih =>
      intro n gs
      obtain ⟨k, hs, heq⟩ := exists_insert_cons f' ⟨f.base, n⟩ gs
      rw [List.foldl_cons, heq]
      exact ih k hs
  exact hfold fs f.exponent []

/-- **A power is joined from the left as from the right** if it joins the first factor, record and
all, or if there is none. -/
theorem merge_cons_eq_insert_iff {v : Variable} (n : ℕ) {fs : List Factor}
    (h : (fs.map (·.base.id)).Nodup) :
    merge (⟨v, n⟩ :: fs) = insert ⟨v, n⟩ fs ↔ ∀ f ∈ fs.head?, f.base = v := by
  cases fs with
  | nil => simp [merge, insert]
  | cons g gs =>
    simp only [List.head?_cons, Option.mem_some_iff, forall_eq']
    constructor
    · intro heq
      obtain ⟨k, hs, hleft⟩ := exists_merge_cons ⟨v, n⟩ (g :: gs)
      obtain ⟨k', hs', hright⟩ := exists_insert_cons ⟨v, n⟩ g gs
      rw [hleft, hright] at heq
      exact (congrArg Factor.base (List.cons.inj heq).1).symm
    · rintro rfl
      have hleft : merge (⟨g.base, n⟩ :: g :: gs) = ⟨g.base, n + g.exponent⟩ :: gs := by
        have hjoin : g.insert [⟨g.base, n⟩] = [⟨g.base, n + g.exponent⟩] := if_pos rfl
        rw [merge, List.foldl_cons, List.foldl_cons]
        change gs.foldl _ (g.insert [⟨g.base, n⟩]) = _
        rw [hjoin]
        exact foldl_insert_of_nodup h
      rw [hleft, insert, if_pos rfl, Nat.add_comm]

theorem positive_insert {f : Factor} {fs : List Factor} (hf : f.exponent ≠ 0)
    (hfs : ∀ g ∈ fs, g.exponent ≠ 0) : ∀ g ∈ f.insert fs, g.exponent ≠ 0 := by
  induction fs with
  | nil => simpa [insert] using hf
  | cons g gs ih =>
    rw [List.forall_mem_cons] at hfs
    rw [insert]
    split
    · exact List.forall_mem_cons.mpr ⟨by simp [hf], hfs.2⟩
    · exact List.forall_mem_cons.mpr ⟨hfs.1, ih hfs.2⟩

theorem positive_merge {fs : List Factor} (h : ∀ f ∈ fs, f.exponent ≠ 0) :
    ∀ f ∈ merge fs, f.exponent ≠ 0 :=
  List.foldlRecOn (motive := fun merged : List Factor => ∀ f ∈ merged, f.exponent ≠ 0) fs _
    (by simp) fun _ hmerged f hf => positive_insert (h f hf) hmerged

/-! ### Exponents -/

theorem exponents_append (fs gs : List Factor) :
    exponents (fs ++ gs) = exponents fs + exponents gs := by
  simp [exponents]

theorem exponents_filter (fs : List Factor) :
    exponents (fs.filter (·.exponent ≠ 0)) = exponents fs := by
  induction fs with
  | nil => rfl
  | cons f fs ih =>
    by_cases hf : f.exponent = 0
    · simp_all
    · simp_all

theorem exponents_insert (f : Factor) (fs : List Factor) :
    exponents (f.insert fs) = Finsupp.single f.base.id f.exponent + exponents fs := by
  induction fs with
  | nil => rw [insert, exponents_cons]
  | cons g gs ih =>
    rw [insert]
    split
    · next hid =>
      rw [exponents_cons, exponents_cons, hid, Finsupp.single_add]
      abel
    · rw [exponents_cons, exponents_cons, ih]
      abel

theorem exponents_merge (fs : List Factor) : exponents (merge fs) = exponents fs := by
  -- Exponents are moved from the powers still to come into those merged so far.
  have hmerged : ∀ gs : List Factor, exponents (fs.foldl (fun merged f => f.insert merged) gs) =
      exponents gs + exponents fs := by
    induction fs with
    | nil => simp
    | cons f fs ih =>
      intro gs
      rw [List.foldl_cons, ih, exponents_insert, exponents_cons]
      abel
  rw [merge, hmerged, exponents_nil, zero_add]

end Factor

/-! ## Monomials -/

namespace Monomial

variable {α : Type} [Scalar α] {m n : Monomial α}

/-- The first factor, if there is one, is a power of that very record of a variable. -/
def IsLedBy (m : Monomial α) (v : Variable) : Prop :=
  ∀ f ∈ m.factors.head?, f.base = v

theorem normalize_of_ne {c : α} {fs : List Factor} (hc : (c == 0) = false)
    (hfs : ∀ f ∈ fs, f.exponent ≠ 0) : normalize c fs = ⟨c, fs⟩ := by
  have hkept : fs.filter (·.exponent ≠ 0) = fs :=
    List.filter_eq_self.mpr fun f hf => by simpa using hfs f hf
  rw [normalize, if_neg (by simp [hc]), hkept]

/-- **A variable and a monomial can be exchanged** if the variable leads the monomial, or if their
product is too large on both sides. -/
theorem times?_ofVariable_comm_iff (hone : ∀ c : α, 1 * c = c) (hcomm : ∀ c d : α, c * d = d * c)
    {v : Variable} (hm : m.IsNormal) :
    (ofVariable v).times? m = m.times? (ofVariable v) ↔
      maxDegree < 1 + m.degree ∨ m.IsLedBy v := by
  have hleft : (ofVariable v).times? m = ofFactors? m.coefficient (⟨v, 1⟩ :: m.factors) :=
    congrArg (ofFactors? · _) (hone _)
  have hright : m.times? (ofVariable v) = ofFactors? m.coefficient (m.factors ++ [⟨v, 1⟩]) :=
    congrArg (ofFactors? · _) ((hcomm _ _).trans (hone _))
  have hdegree : Factor.degree (m.factors ++ [⟨v, 1⟩]) = 1 + m.degree := by
    rw [Factor.degree_append, Nat.add_comm]
    rfl
  have hpositive : ∀ f ∈ (⟨v, 1⟩ :: m.factors : List Factor), f.exponent ≠ 0 :=
    List.forall_mem_cons.mpr ⟨Nat.one_ne_zero, hm.factors.positive⟩
  rw [hleft, hright, ofFactors?, ofFactors?, Factor.degree_merge, Factor.degree_merge, hdegree,
    Factor.degree_cons]
  dsimp only
  change (if 1 + m.degree ≤ maxDegree then _ else _) = (if _ then _ else _) ↔ _
  by_cases hle : 1 + m.degree ≤ maxDegree
  · rw [if_pos hle, if_pos hle, or_iff_right (not_lt.mpr hle), Option.some.injEq,
      Factor.merge_concat, Factor.merge_of_nodup hm.factors.distinct, IsLedBy,
      ← Factor.merge_cons_eq_insert_iff 1 hm.factors.distinct]
    cases hzero : m.coefficient == 0 with
    | true =>
      rw [hm.collapsed hzero]
      exact iff_of_true rfl rfl
    | false =>
      rw [normalize_of_ne hzero (Factor.positive_merge hpositive), normalize_of_ne hzero
        (Factor.positive_insert Nat.one_ne_zero hm.factors.positive)]
      simp
  · rw [if_neg hle, if_neg hle]
    exact iff_of_true rfl (.inl (not_le.mp hle))

/-- Products with equal exponents have the same content once they are merged. -/
theorem content_ofFactors?_eq {c : α} {fs gs : List Factor}
    (h : Factor.exponents fs = Factor.exponents gs) :
    (ofFactors? c fs).map content = (ofFactors? c gs).map content := by
  have hdegree : Factor.degree (Factor.merge fs) = Factor.degree (Factor.merge gs) := by
    rw [← Factor.degree_exponents, ← Factor.degree_exponents, Factor.exponents_merge,
      Factor.exponents_merge, h]
  rw [ofFactors?, ofFactors?, hdegree]
  split
  · next hbounded =>
    rw [normalize, normalize]
    split
    · rfl
    · have hpowers := (Factor.exponents_eq_iff
        (Factor.isNormal_filter (Factor.nodup_merge fs) (hdegree ▸ hbounded))
        (Factor.isNormal_filter (Factor.nodup_merge gs) hbounded)).mp (by
          rw [Factor.exponents_filter, Factor.exponents_filter, Factor.exponents_merge,
            Factor.exponents_merge, h])
      exact congrArg some (Prod.ext rfl (Multiset.coe_eq_coe.mpr hpowers))
  · rfl

/-- **Factors of a product can be exchanged** up to their order. -/
theorem content_times?_comm (hcomm : ∀ c d : α, c * d = d * c) (m n : Monomial α) :
    (m.times? n).map content = (n.times? m).map content := by
  rw [times?, times?, hcomm]
  apply content_ofFactors?_eq
  rw [Factor.exponents_append, Factor.exponents_append, add_comm]

end Monomial

end AlgebraicModel
