import Mathlib
import AlgebraicModel.Proofs.Expression.Sum

/-!
# What products mean

Powers of one variable that are joined multiply, and so do the slots of a product, whichever of the
three ways of multiplying is taken; the terms that make up an inner product add up to it.
A factor may occur twice and a coefficient may be zero: none of this needs a normal form.

## Main results

* `Factor.denote_merge`, `Monomial.denote_times?`, `Polynomial.denote_times?`
* `Expression.denote_mul`: the product of two expressions
* `Expression.sum_dotTerms`: the terms of an inner product
-/

namespace AlgebraicModel

variable {ρ : Valuation}

/-! ## Monomials -/

namespace Factor

@[simp] theorem denote_nil : denote [] ρ = 1 := rfl

@[simp] theorem denote_cons (f : Factor) (fs : List Factor) :
    denote (f :: fs) ρ = ρ f.base.id ^ f.exponent * denote fs ρ := by
  simp [denote]

theorem denote_append (fs gs : List Factor) :
    denote (fs ++ gs) ρ = denote fs ρ * denote gs ρ := by
  simp [denote]

/-- A power multiplied onto a product, whether or not it joins a factor. -/
theorem denote_insert (f : Factor) (fs : List Factor) :
    denote (f.insert fs) ρ = ρ f.base.id ^ f.exponent * denote fs ρ := by
  induction fs with
  | nil => rw [insert, denote_cons]
  | cons g gs ih =>
    rw [insert]
    split
    · next hid =>
      rw [denote_cons, denote_cons, hid, pow_add]
      ring
    · rw [denote_cons, denote_cons, ih]
      ring

theorem denote_merge (fs : List Factor) : denote (merge fs) ρ = denote fs ρ := by
  -- The product merged so far and the powers still to come hold what they held before a power.
  have hmerged : ∀ gs : List Factor,
      denote (fs.foldl (fun merged f => f.insert merged) gs) ρ = denote gs ρ * denote fs ρ := by
    induction fs with
    | nil => simp
    | cons f fs ih =>
      intro gs
      rw [List.foldl_cons, ih, denote_insert, denote_cons]
      ring
  rw [merge, hmerged, denote_nil, one_mul]

end Factor

theorem Monomial.denote_times? {m n r : Monomial ℚ} (h : m.times? n = some r) :
    r.denote ρ = m.denote ρ * n.denote ρ := by
  simp only [times?, ofFactors?] at h
  split at h
  · obtain rfl := Option.some.inj h
    rw [denote_normalize, Factor.denote_merge, Factor.denote_append, denote, denote]
    ring
  · cases h

/-! ## Polynomials -/

/-- A monomial times every term of a sum. -/
theorem Monomial.sum_denote_times? {m : Monomial ℚ} {ts row : List (Monomial ℚ)}
    (h : List.Forall₂ (fun t r => m.times? t = some r) ts row) :
    (row.map (·.denote ρ)).sum = m.denote ρ * (ts.map (·.denote ρ)).sum := by
  induction h with
  | nil => simp
  | cons hr _ ih => rw [List.map_cons, List.map_cons, List.sum_cons, List.sum_cons, ih,
      denote_times? hr, mul_add]

/-- Every term of a sum times every term of another, a row of products for each of the first. -/
theorem Polynomial.sum_denote_rows {ss ts : List (Monomial ℚ)} {rows : List (List (Monomial ℚ))}
    (h : List.Forall₂ (fun s row => (ts.mapM fun t => s.times? t) = some row) ss rows) :
    (rows.flatten.map (·.denote ρ)).sum =
      (ss.map (·.denote ρ)).sum * (ts.map (·.denote ρ)).sum := by
  induction h with
  | nil => simp
  | cons hrow _ ih =>
    rw [List.flatten_cons, List.map_append, List.sum_append, ih,
      Monomial.sum_denote_times? (mapM_eq_some_iff.mp hrow), List.map_cons, List.sum_cons, add_mul]

/-- **Polynomials are multiplied term by term.** -/
theorem Polynomial.denote_times? {p q r : Polynomial ℚ} (h : p.times? q = some r) :
    r.denote ρ = p.denote ρ * q.denote ρ := by
  obtain ⟨rows, hrows, heq⟩ := Option.bind_eq_some_iff.mp h
  obtain rfl := Option.some.inj heq
  rw [denote_ofTerms, sum_denote_rows (mapM_eq_some_iff.mp hrows), denote, denote]

/-! ## Expressions -/

namespace Expression

variable {a b e : Expression ℚ}

/-- Where every pair of slots has a product, the value of the product is that of its factors. -/
theorem broadcast?_of_products {β : Type} {times? : β → β → Option β} {value : β → ℚ}
    (hvalue : ∀ x y z, times? x y = some z → value z = value x * value y)
    {xs ys results : List β} (h : broadcast? times? xs ys = some (results.map some)) :
    broadcast? (· * ·) (xs.map value) (ys.map value) = some (results.map value) := by
  -- Pair the slots first: what is done with the pairs is then done pair by pair.
  have hvalues := broadcast?_map (f := Prod.mk) (g := (· * ·)) (u := value) (v := value)
    (w := fun p => value p.1 * value p.2) (fun _ _ => rfl) xs ys
  rw [broadcast?_eq_map] at h
  obtain ⟨pairs, hpairs, hresults⟩ := Option.map_eq_some_iff.mp h
  rw [← List.forall₂_eq_eq_eq, List.forall₂_map_left_iff, List.forall₂_map_right_iff] at hresults
  rw [hvalues, hpairs, Option.map_some, Option.some.injEq, ← List.forall₂_eq_eq_eq,
    List.forall₂_map_left_iff, List.forall₂_map_right_iff]
  exact hresults.imp fun p z hp => (hvalue _ _ _ hp).symm

theorem IsProduct.denote (h : IsProduct a b e) :
    broadcast? (· * ·) (a.denote ρ) (b.denote ρ) = some (e.denote ρ) := by
  cases h with
  | numbers ha hb h =>
    subst ha hb
    simpa [Expression.denote] using h
  | monomials ha hb h =>
    rw [← denote_monomials? ha, ← denote_monomials? hb, Expression.denote, Slots.toList_ofList]
    exact broadcast?_of_products (fun _ _ _ => Monomial.denote_times?) h
  | polynomials h =>
    rw [← denote_polynomials, ← denote_polynomials, Expression.denote, Slots.toList_ofList]
    exact broadcast?_of_products (fun _ _ _ => Polynomial.denote_times?) h

/-- **The product has in every slot the product of the slots**, and a slot of length one is
repeated. -/
theorem denote_mul (h : a.mul b = .ok e) :
    broadcast? (· * ·) (a.denote ρ) (b.denote ρ) = some (e.denote ρ) := by
  rcases isProduct_of_mul h with h | h
  · exact h.denote
  · rw [broadcast?_comm fun x y => mul_comm x y]
    exact h.denote

/-! ### Inner products -/

theorem denote_slot {i : ℕ} (h : a.slot i = .ok e) :
    ∃ x, (a.denote ρ)[i]? = some x ∧ e.denote ρ = [x] := by
  unfold slot at h
  split at h
  · next s hs =>
    obtain rfl := Except.ok.inj h
    cases a <;> obtain ⟨s', hs', rfl⟩ := Option.map_eq_some_iff.mp hs <;>
      obtain ⟨y, hy, rfl⟩ := Option.map_eq_some_iff.mp hs'
    all_goals simp [denote, hy]
  · cases h

/-- The terms of an expression add up to the sum of its slots. -/
theorem sum_denote_terms (e : Expression ℚ) :
    ((e.polynomials.flatMap (·.terms)).map (·.denote ρ)).sum = (e.denote ρ).sum := by
  rw [← denote_polynomials]
  induction e.polynomials with
  | nil => rfl
  | cons p ps ih =>
    rw [List.flatMap_cons, List.map_append, List.sum_append, List.map_cons, List.sum_cons, ih]
    rfl

/-- The terms that two slots bring to an inner product add up to the product of their values. -/
theorem sum_slotProduct {i : ℕ} {row : List (Monomial ℚ)}
    (h : (do
      let product ← (← a.slot i).mul (← b.slot i)
      return product.polynomials.flatMap (·.terms)) = (.ok row : Except (Error ℚ) _)) :
    ∃ x y, (a.denote ρ)[i]? = some x ∧ (b.denote ρ)[i]? = some y ∧
      (row.map (·.denote ρ)).sum = x * y := by
  obtain ⟨s, hs, h⟩ := bind_eq_ok_iff.mp h
  obtain ⟨t, ht, h⟩ := bind_eq_ok_iff.mp h
  obtain ⟨product, hproduct, heq⟩ := bind_eq_ok_iff.mp h
  obtain rfl := Except.ok.inj heq
  obtain ⟨x, hx, hsx⟩ := denote_slot (ρ := ρ) hs
  obtain ⟨y, hy, hty⟩ := denote_slot (ρ := ρ) ht
  have hdenote : [x * y] = product.denote ρ := by
    have hslots := denote_mul (ρ := ρ) hproduct
    rw [hsx, hty] at hslots
    exact Option.some.inj hslots
  refine ⟨x, y, hx, hy, ?_⟩
  rw [sum_denote_terms, ← hdenote, List.sum_singleton]

/-- **The terms of an inner product add up to the sum of the products of the slots.** -/
theorem sum_dotTerms {ts : List (Monomial ℚ)} (hlength : a.length = b.length)
    (h : a.dotTerms b = .ok ts) :
    (ts.map (·.denote ρ)).sum = inner (a.denote ρ) (b.denote ρ) := by
  obtain ⟨rows, hrows, heq⟩ := bind_eq_ok_iff.mp h
  obtain rfl := Except.ok.inj heq
  have hforall := mapM_eq_ok_iff.mp hrows
  have hsums : rows.map (fun row => (row.map (·.denote ρ)).sum) =
      (a.denote ρ).zipWith (· * ·) (b.denote ρ) := by
    refine List.ext_getElem ?_ fun i hi hi' => ?_
    · have hcount := hforall.length_eq
      rw [List.length_range] at hcount
      simp [← hcount, ← hlength]
    · rw [List.length_map] at hi
      have hrow := hforall.get (by simpa [hforall.length_eq] using hi) hi
      simp only [List.get_eq_getElem, List.getElem_range] at hrow
      obtain ⟨x, y, hx, hy, hsum⟩ := sum_slotProduct (ρ := ρ) hrow
      rw [List.getElem_map, hsum, List.getElem_zipWith]
      rw [List.getElem?_eq_some_iff] at hx hy
      obtain ⟨-, rfl⟩ := hx
      obtain ⟨-, rfl⟩ := hy
      rfl
  rw [inner, ← hsums, List.map_flatten, List.sum_flatten, List.map_map]
  rfl

end Expression

end AlgebraicModel
