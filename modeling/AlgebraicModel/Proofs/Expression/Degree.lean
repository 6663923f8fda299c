import Mathlib
import AlgebraicModel.Proofs.Expression.Nonlinear
import AlgebraicModel.Proofs.Expression.Slotwise

/-!
# Degrees and overflow

The degree of a product is checked term by term, before like terms are collected and whatever the
coefficients are. In normal form this is a statement about whole degrees: the terms of greatest
degree on both sides make up the pair that overflows first. A product of expressions therefore fails
where the degrees of two slots that are paired add up to more than `maxDegree`, and nowhere else.

## Main definitions

* `Expression.degrees`: the degree of every slot
* `Expression.Overflows a b`: two paired slots have degrees whose sum is too large

## Main results

* `Monomial.times?_eq_none_iff`, `Polynomial.times?_eq_none_iff`: when there is no product
* `Expression.degrees_polynomials`: degrees do not depend on the family of a normal form
* `Expression.mul_eq_error_iff`, `dotTerms_eq_error_iff`: the only error of a product
-/

namespace AlgebraicModel

variable {α : Type}

/-! ## Monomials -/

theorem Factor.degree_append (fs gs : List Factor) :
    degree (fs ++ gs) = degree fs + degree gs := by
  induction fs with
  | nil => simp
  | cons f fs ih => rw [List.cons_append, degree_cons, degree_cons, ih, add_assoc]

/-- The degree is that of all factors, also where they are dropped with a zero coefficient. -/
theorem Monomial.times?_eq_none_iff [Scalar α] {m n : Monomial α} :
    m.times? n = none ↔ maxDegree < m.degree + n.degree := by
  simp only [times?, ofFactors?]
  rw [Factor.degree_merge, Factor.degree_append, ite_eq_right_iff, ← not_le]
  simp [degree]

/-! ## Polynomials -/

namespace Polynomial

theorem degree_le_of_mem {p : Polynomial α} {t : Monomial α} (ht : t ∈ p.terms) :
    t.degree ≤ p.degree :=
  not_lt.mp fun h => absurd (lt_degree_iff.mpr ⟨t, ht, h⟩) (lt_irrefl _)

/-- A positive degree is the degree of a term. -/
theorem exists_degree_eq {p : Polynomial α} (h : 0 < p.degree) :
    ∃ t ∈ p.terms, t.degree = p.degree := by
  obtain ⟨t, ht, hlt⟩ := lt_degree_iff.mp (Nat.sub_lt h Nat.one_pos)
  exact ⟨t, ht, le_antisymm (degree_le_of_mem ht) (Nat.le_of_pred_lt hlt)⟩

variable [Scalar α] {p q : Polynomial α} {m : Monomial α}

theorem degree_le_maxDegree (hp : p.IsNormal) : p.degree ≤ maxDegree := by
  by_contra hlt
  obtain ⟨t, ht, hdegree⟩ := lt_degree_iff.mp (not_le.mp hlt)
  exact absurd (hp.terms t ht).factors.bounded (not_le.mpr hdegree)

theorem degree_ofMonomial (hm : m.IsNormal) : (ofMonomial m).degree = m.degree := by
  refine le_antisymm (not_lt.mp fun hlt => ?_) ?_
  · obtain ⟨t, ht, hdegree⟩ := lt_degree_iff.mp hlt
    rw [eq_of_mem_ofMonomial ht] at hdegree
    exact lt_irrefl _ hdegree
  · rcases Nat.eq_zero_or_pos m.degree with hzero | hpos
    · exact hzero ▸ Nat.zero_le _
    · exact degree_le_of_mem (mem_ofMonomial hm hpos)

/-- **Polynomials have no product if their degrees add up to too much**, although degrees are only
compared term by term. -/
theorem times?_eq_none_iff (hp : p.IsNormal) (hq : q.IsNormal) :
    p.times? q = none ↔ maxDegree < p.degree + q.degree := by
  have hterms : p.times? q = none ↔
      ∃ s ∈ p.terms, ∃ t ∈ q.terms, maxDegree < s.degree + t.degree := by
    have hproducts : p.times? q = none ↔
        (p.terms.mapM fun s => q.terms.mapM fun t => s.times? t) = none := by
      rw [times?]
      cases p.terms.mapM fun s => q.terms.mapM fun t => s.times? t <;> simp
    simp only [hproducts, mapM_eq_none_iff, Monomial.times?_eq_none_iff]
  rw [hterms]
  constructor
  · rintro ⟨s, hs, t, ht, hlt⟩
    exact hlt.trans_le (Nat.add_le_add (degree_le_of_mem hs) (degree_le_of_mem ht))
  · intro hlt
    have hpbound := degree_le_maxDegree hp
    have hqbound := degree_le_maxDegree hq
    obtain ⟨s, hs, hsdegree⟩ := exists_degree_eq (p := p) (by omega)
    obtain ⟨t, ht, htdegree⟩ := exists_degree_eq (p := q) (by omega)
    exact ⟨s, hs, t, ht, by rwa [hsdegree, htdegree]⟩

end Polynomial

/-! ## Expressions -/

namespace Expression

/-- The degree of every slot. -/
def degrees : Expression α → List ℕ
  | const xs => xs.toList.map fun _ => 0
  | var vs => vs.toList.map fun _ => 1
  | mono ms => ms.toList.map (·.degree)
  | poly ps => ps.toList.map (·.degree)

@[simp] theorem length_degrees (e : Expression α) : e.degrees.length = e.length := by
  cases e <;> simp [degrees, length, Slots.length]

theorem degree_eq_foldr (e : Expression α) : e.degree = e.degrees.foldr max 0 := by
  cases e with
  | const xs =>
    rw [degree, degrees]
    induction xs.toList with
    | nil => rfl
    | cons x xs ih => simpa using ih
  | var vs =>
    rw [degree, degrees]
    induction vs.toList with
    | nil => rfl
    | cons v vs ih => cases vs <;> simp_all
  | mono ms => rfl
  | poly ps => rfl

/-! ### Slots -/

theorem slot_eq_ok_iff {e x : Expression α} {i : ℕ} : e.slot i = .ok x ↔ e.slot? i = some x := by
  unfold slot
  cases e.slot? i <;> simp

/-- A slot by itself has the degree that it has in its place. -/
theorem map_degree_slot? (e : Expression α) (i : ℕ) :
    (e.slot? i).map (·.degree) = e.degrees[i]? := by
  cases e <;> simp only [slot?, Slots.at?, degrees, Option.map_map, List.getElem?_map]
  case const | var => rfl
  case mono | poly =>
    congr 1
    funext x
    simp [degree]

theorem exists_slot_iff {e : Expression α} {i : ℕ} : (∃ x, e.slot i = .ok x) ↔ i < e.length := by
  have hslot := congrArg Option.isSome (map_degree_slot? e i)
  rw [Option.isSome_map] at hslot
  simp only [slot_eq_ok_iff, ← Option.isSome_iff_exists, hslot]
  simp

theorem isVector_slot {e x : Expression α} {i : ℕ} (h : e.slot i = .ok x) : x.isVector = false := by
  have h := slot_eq_ok_iff.mp h
  cases e <;> obtain ⟨s, hs, rfl⟩ := Option.map_eq_some_iff.mp h <;>
    obtain ⟨y, -, rfl⟩ := mem_of_at?_eq_some hs <;> rfl

theorem degrees_of_scalar {e : Expression α} (h : e.isVector = false) : e.degrees = [e.degree] := by
  obtain ⟨n, hn⟩ := List.length_eq_one_iff.mp (e.length_degrees.trans (length_of_scalar h))
  rw [degree_eq_foldr, hn]
  simp

/-! ### Overflow -/

/-- Two slots that are paired have degrees whose sum is too large. -/
def Overflows (a b : Expression α) : Prop :=
  ∃ i x y, a.slot (operandSlot a.length i) = .ok x ∧ b.slot (operandSlot b.length i) = .ok y ∧
    maxDegree < x.degree + y.degree

theorem overflows_iff {a b : Expression α} :
    a.Overflows b ↔ ∃ i m n, a.degrees[operandSlot a.length i]? = some m ∧
      b.degrees[operandSlot b.length i]? = some n ∧ maxDegree < m + n := by
  simp only [Overflows, slot_eq_ok_iff, ← map_degree_slot?, Option.map_eq_some_iff]
  constructor
  · rintro ⟨i, x, y, hx, hy, hlt⟩
    exact ⟨i, x.degree, y.degree, ⟨x, hx, rfl⟩, ⟨y, hy, rfl⟩, hlt⟩
  · rintro ⟨i, m, n, ⟨x, hx, rfl⟩, ⟨y, hy, rfl⟩, hlt⟩
    exact ⟨i, x, y, hx, hy, hlt⟩

theorem overflows_of_scalar {a b : Expression α} (ha : a.isVector = false)
    (hb : b.isVector = false) : a.Overflows b ↔ maxDegree < a.degree + b.degree := by
  rw [overflows_iff, degrees_of_scalar ha, degrees_of_scalar hb, length_of_scalar ha,
    length_of_scalar hb]
  simp [operandSlot]

theorem overflows_comm {a b : Expression α} : a.Overflows b ↔ b.Overflows a := by
  have hswap {a b : Expression α} : a.Overflows b → b.Overflows a := by
    rintro ⟨i, x, y, hx, hy, hlt⟩
    exact ⟨i, y, x, hy, hx, by rwa [add_comm]⟩
  exact ⟨hswap, hswap⟩

/-! ### Slots read in a higher family -/

variable [Scalar α] {a b e : Expression α}

theorem degrees_monomials? {ms : List (Monomial α)} (h : e.monomials? = some ms) :
    ms.map (·.degree) = e.degrees := by
  cases e <;> simp only [monomials?, Option.some.injEq, reduceCtorEq] at h <;> subst h
  case const => simp [degrees, Monomial.degree, Monomial.const, Function.comp_def]
  case var => simp [degrees, Monomial.degree, Monomial.ofVariable, Function.comp_def]
  case mono => rfl

theorem degrees_polynomials (hone : ((1 : α) == 0) = false) (he : e.IsNormal) :
    e.polynomials.map (·.degree) = e.degrees := by
  cases hms : e.monomials? with
  | none =>
    cases e <;> simp only [monomials?, reduceCtorEq] at hms
    rfl
  | some ms =>
    rw [polynomials_eq_map hms, ← degrees_monomials? hms, List.map_map]
    exact List.map_congr_left fun m hm =>
      Polynomial.degree_ofMonomial (isNormal_monomials? hone he hms m hm)

theorem degree_le_maxDegree (hone : ((1 : α) == 0) = false) (he : e.IsNormal) :
    e.degree ≤ maxDegree := by
  rw [degree_eq_foldr, ← degrees_polynomials hone he]
  by_contra hlt
  obtain ⟨n, hn, hlt⟩ := lt_foldr_max_iff.mp (not_le.mp hlt)
  obtain ⟨p, hp, rfl⟩ := List.mem_map.mp hn
  exact absurd (Polynomial.degree_le_maxDegree (isNormal_polynomials hone he p hp)) (not_le.mpr hlt)

/-! ### Products -/

omit [Scalar α] in
theorem products_eq_error_iff {β : Type} {xs : List (Option β)} {cause : Error α} :
    products xs = .error cause ↔ none ∈ xs ∧ cause = .degreeOverflow := by
  have hnone : xs.mapM id = none ↔ none ∈ xs := by simp [mapM_eq_none_iff]
  rw [← hnone]
  unfold products
  cases xs.mapM id <;> simp [eq_comm]

section Pairs

variable {β : Type} {times? : β → β → Option β} {degree : β → ℕ} {xs ys : List β}

omit [Scalar α] in
theorem length_of_map_eq_degrees (h : xs.map degree = e.degrees) : xs.length = e.length := by
  rw [← length_degrees, ← h, List.length_map]

omit [Scalar α] in
/-- A product of two paired slots is missing if the degrees of two of them are too large. -/
theorem none_mem_iff_overflows (hxs : xs.map degree = a.degrees) (hys : ys.map degree = b.degrees)
    (htimes : ∀ x ∈ xs, ∀ y ∈ ys, times? x y = none ↔ maxDegree < degree x + degree y)
    {pairs : List (Option β)} (hpairs : broadcast? times? xs ys = some pairs) :
    none ∈ pairs ↔ a.Overflows b := by
  rw [mem_broadcast?_iff hpairs, overflows_iff, ← hxs, ← hys, length_of_map_eq_degrees hxs,
    length_of_map_eq_degrees hys]
  simp only [List.getElem?_map, Option.map_eq_some_iff]
  constructor
  · rintro ⟨i, x, y, hx, hy, h⟩
    have hlt := (htimes x (List.mem_of_getElem? hx) y (List.mem_of_getElem? hy)).mp h
    exact ⟨i, degree x, degree y, ⟨x, hx, rfl⟩, ⟨y, hy, rfl⟩, hlt⟩
  · rintro ⟨i, m, n, ⟨x, hx, rfl⟩, ⟨y, hy, rfl⟩, hlt⟩
    exact ⟨i, x, y, hx, hy,
      (htimes x (List.mem_of_getElem? hx) y (List.mem_of_getElem? hy)).mpr hlt⟩

omit [Scalar α] in
/-- Slots that can be paired have products unless the degrees of two of them are too large. -/
theorem zipProducts_eq_error_iff {mismatch cause : Error α} {result : List β → Expression α}
    (hxs : xs.map degree = a.degrees) (hys : ys.map degree = b.degrees)
    (htimes : ∀ x ∈ xs, ∀ y ∈ ys, times? x y = none ↔ maxDegree < degree x + degree y)
    (hshape : a.length = b.length ∨ a.length = 1 ∨ b.length = 1) :
    (do
      let results ← products (← zipSlots times? xs ys mismatch)
      return result results) = .error cause ↔ a.Overflows b ∧ cause = .degreeOverflow := by
  rw [← length_of_map_eq_degrees hxs, ← length_of_map_eq_degrees hys] at hshape
  obtain ⟨pairs, hpairs⟩ := Option.isSome_iff_exists.mp (isSome_broadcast?_iff.mpr hshape)
  rw [zipSlots_eq_ok_iff.mpr hpairs, ok_bind, ← none_mem_iff_overflows hxs hys htimes hpairs,
    ← products_eq_error_iff]
  exact map_eq_error_iff

end Pairs

omit [Scalar α] in
/-- Numbers have no degree, so their products are never too large. -/
theorem not_overflows_const (xs ys : Slots α) : ¬ (const xs).Overflows (const ys) := by
  rw [overflows_iff]
  rintro ⟨i, m, n, hm, hn, hlt⟩
  obtain ⟨-, -, rfl⟩ := List.mem_map.mp (List.mem_of_getElem? hm)
  obtain ⟨-, -, rfl⟩ := List.mem_map.mp (List.mem_of_getElem? hn)
  exact absurd hlt (Nat.not_lt_zero _)

theorem mulToHigher_eq_error_iff (hone : ((1 : α) == 0) = false) (ha : a.IsNormal)
    (hb : b.IsNormal) (hshape : a.length = 1 ∨ b.length = 1) {cause : Error α} :
    mulToHigher a b = .error cause ↔ a.Overflows b ∧ cause = .degreeOverflow := by
  unfold mulToHigher
  split
  · next xs ys =>
    obtain ⟨results, hresults⟩ := exists_zipSlots (f := (· * ·)) (.inr hshape) _
    rw [if_pos (by simpa using hshape), hresults]
    simp [not_overflows_const, pure, Except.pure]
  · split
    · next ms ns hms hns =>
      exact zipProducts_eq_error_iff (degrees_monomials? hms) (degrees_monomials? hns)
        (fun _ _ _ _ => Monomial.times?_eq_none_iff) (.inr hshape)
    · exact zipProducts_eq_error_iff (degrees_polynomials hone ha) (degrees_polynomials hone hb)
        (fun p hp q hq => Polynomial.times?_eq_none_iff (isNormal_polynomials hone ha p hp)
          (isNormal_polynomials hone hb q hq)) (.inr hshape)

/-- **A product of operands that fit fails where the degrees of paired slots are too large**, and
with no other error. -/
theorem mul_eq_error_iff (hone : ((1 : α) == 0) = false) (ha : a.IsNormal) (hb : b.IsNormal)
    (hshape : a.length = 1 ∨ b.length = 1) {cause : Error α} :
    a.mul b = .error cause ↔ a.Overflows b ∧ cause = .degreeOverflow := by
  unfold mul
  split
  · rw [overflows_comm]
    exact mulToHigher_eq_error_iff hone hb ha hshape.symm
  · exact mulToHigher_eq_error_iff hone ha hb hshape

/-! ### Inner products -/

/-- The terms that the slots of one place bring to an inner product. -/
def slotTerms (a b : Expression α) (i : ℕ) : Except (Error α) (List (Monomial α)) := do
  let product ← (← a.slot i).mul (← b.slot i)
  return product.polynomials.flatMap (·.terms)

theorem dotTerms_eq_map (a b : Expression α) :
    a.dotTerms b = List.flatten <$> (List.range a.length).mapM (a.slotTerms b) := rfl

theorem slotTerms_eq_error_iff (hone : ((1 : α) == 0) = false) (ha : a.IsNormal) (hb : b.IsNormal)
    {i : ℕ} (hi : i < a.length) (hi' : i < b.length) {cause : Error α} :
    a.slotTerms b i = .error cause ↔
      (∃ x y, a.slot i = .ok x ∧ b.slot i = .ok y ∧ maxDegree < x.degree + y.degree) ∧
        cause = .degreeOverflow := by
  obtain ⟨x, hx⟩ := exists_slot_iff.mpr hi
  obtain ⟨y, hy⟩ := exists_slot_iff.mpr hi'
  have hxscalar := isVector_slot hx
  have hyscalar := isVector_slot hy
  have hmul : x.mul y = .error cause ↔ x.Overflows y ∧ cause = .degreeOverflow :=
    mul_eq_error_iff hone (isNormal_slot ha hx) (isNormal_slot hb hy)
      (.inl (length_of_scalar hxscalar))
  have hterms : a.slotTerms b i = (fun e => e.polynomials.flatMap (·.terms)) <$> x.mul y := by
    rw [slotTerms, hx, hy]
    rfl
  rw [hterms, map_eq_error_iff, hmul, overflows_of_scalar hxscalar hyscalar]
  simp [hx, hy]

/-- **The terms of an inner product fail with the degrees of paired slots**, and with no other
error. -/
theorem dotTerms_eq_error_iff (hone : ((1 : α) == 0) = false) (ha : a.IsNormal) (hb : b.IsNormal)
    (hlength : a.length = b.length) {cause : Error α} :
    a.dotTerms b = .error cause ↔ a.Overflows b ∧ cause = .degreeOverflow := by
  rw [dotTerms_eq_map, map_eq_error_iff, mapM_eq_error_iff fun i hi _ =>
    slotTerms_eq_error_iff hone ha hb (List.mem_range.mp hi) (hlength ▸ List.mem_range.mp hi)]
  refine and_congr_left fun _ => ?_
  constructor
  · rintro ⟨i, hi, x, y, hx, hy, hlt⟩
    rw [List.mem_range] at hi
    refine ⟨i, x, y, ?_, ?_, hlt⟩
    · rwa [operandSlot_of_lt hi]
    · rwa [operandSlot_of_lt (hlength ▸ hi)]
  · rintro ⟨i, x, y, hx, hy, hlt⟩
    rw [← hlength] at hy
    exact ⟨_, List.mem_range.mpr (exists_slot_iff.mp ⟨x, hx⟩), x, y, hx, hy, hlt⟩

end Expression

end AlgebraicModel
