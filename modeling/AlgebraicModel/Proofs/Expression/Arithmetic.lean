import Mathlib
import AlgebraicModel.Expression.Arithmetic
import AlgebraicModel.Proofs.Log.Answer
import AlgebraicModel.Proofs.Slots

/-!
# What a sum and a product can be

Which way of computing is taken depends on the families of the operands, and on whether two
monomials are alike. The ways are listed here once, each with all that it does; what holds of every
sum or of every product is then shown way by way.

## Main definitions

* `Expression.IsSum`, `IsProduct`: the ways of adding and multiplying, with their results

## Main results

* `Expression.isSum_of_add`, `isProduct_of_mul`: there are no other ways
* `Expression.plus_eq_ok_iff`, `minus_eq_ok_iff`, `multiply_eq_ok_iff`, `dot_eq_ok_iff`: when a
  checked operation answers, and what
-/

namespace AlgebraicModel.Expression

/-! ## Slots -/

section Slots

variable {α β γ : Type}

theorem zipSlots_eq_ok_iff {f : β → β → γ} {xs ys : List β} {mismatch : Error α} {zs : List γ} :
    zipSlots f xs ys mismatch = .ok zs ↔ broadcast? f xs ys = some zs := by
  unfold zipSlots
  cases broadcast? f xs ys <;> simp

/-- Slots are combined if they can be paired. -/
theorem exists_zipSlots {f : β → β → γ} {xs ys : List β}
    (h : xs.length = ys.length ∨ xs.length = 1 ∨ ys.length = 1) (mismatch : Error α) :
    ∃ zs, zipSlots f xs ys mismatch = .ok zs := by
  obtain ⟨zs, hzs⟩ := Option.isSome_iff_exists.mp (isSome_broadcast?_iff.mpr h)
  exact ⟨zs, zipSlots_eq_ok_iff.mpr hzs⟩

/-- Products are the results if none of them is missing. -/
theorem products_eq_ok_iff {xs : List (Option β)} {ys : List β} :
    products (α := α) xs = .ok ys ↔ xs = ys.map some := by
  have hmapM (zs : List β) : xs.mapM id = some zs ↔ xs = zs.map some := by
    rw [mapM_eq_some_iff, ← List.forall₂_eq_eq_eq, List.forall₂_map_right_iff]
    exact Iff.rfl
  rw [← hmapM]
  unfold products
  cases xs.mapM id <;> simp

theorem mem_of_at?_eq_some {s s' : Slots β} {index : ℕ} (h : s.at? index = some s') :
    ∃ x ∈ s.toList, s' = .scalar x := by
  obtain ⟨x, hx, heq⟩ := Option.map_eq_some_iff.mp h
  exact ⟨x, List.mem_of_getElem? hx, heq.symm⟩

end Slots

variable {α : Type} [Scalar α] {a b e : Expression α}

/-! ## Sums -/

/-- The ways of adding an operand of no higher family, with their results: numbers, two like scalar
monomials, and anything else as polynomials. -/
inductive IsSum (a b : Expression α) : Expression α → Prop
  | numbers {xs ys : Slots α} {sums : List α} (ha : a = const xs) (hb : b = const ys)
      (h : broadcast? (· + ·) xs.toList ys.toList = some sums) :
      IsSum a b (const (.ofList (a.isVector || b.isVector) sums))
  | like {m n : Monomial α} (ha : a = mono (.scalar m)) (hb : b.isVector = false)
      (hn : b.monomials? = some [n]) (hlike : m.isLike n) :
      IsSum a b (mono (.scalar (.normalize (m.coefficient + n.coefficient) m.factors)))
  | polynomials {sums : List (Polynomial α)}
      (h : broadcast? Polynomial.add a.polynomials b.polynomials = some sums) :
      IsSum a b (poly (.ofList (a.isVector || b.isVector) sums))

theorem isSum_of_addPolynomials (h : addPolynomials a b = .ok e) : IsSum a b e := by
  obtain ⟨sums, hsums, heq⟩ := bind_eq_ok_iff.mp h
  obtain rfl := Except.ok.inj heq
  exact .polynomials (zipSlots_eq_ok_iff.mp hsums)

theorem isSum_of_addToHigher (h : addToHigher a b = .ok e) : IsSum a b e := by
  unfold addToHigher at h
  split at h
  · split at h
    · obtain ⟨sums, hsums, heq⟩ := bind_eq_ok_iff.mp h
      obtain rfl := Except.ok.inj heq
      exact .numbers rfl rfl (zipSlots_eq_ok_iff.mp hsums)
    · cases h
  · split at h
    · next hscalar hn =>
      split at h
      · next hlike =>
        obtain rfl := Except.ok.inj h
        exact .like rfl (by simpa [isScalar] using hscalar) hn hlike
      · exact isSum_of_addPolynomials h
    · exact isSum_of_addPolynomials h
  · exact isSum_of_addPolynomials h

/-- **There are no other ways of adding**, and the operand of the higher family comes first. -/
theorem isSum_of_add (h : a.add b = .ok e) : IsSum a b e ∨ IsSum b a e := by
  unfold add at h
  split at h
  · exact .inr (isSum_of_addToHigher h)
  · exact .inl (isSum_of_addToHigher h)

/-! ## Products -/

/-- The ways of multiplying by an operand whose products are made of nothing higher, with their
results: numbers, monomials and polynomials. -/
inductive IsProduct (a b : Expression α) : Expression α → Prop
  | numbers {xs ys : Slots α} {results : List α} (ha : a = const xs) (hb : b = const ys)
      (h : broadcast? (· * ·) xs.toList ys.toList = some results) :
      IsProduct a b (const (.ofList (a.isVector || b.isVector) results))
  | monomials {ms ns results : List (Monomial α)} (ha : a.monomials? = some ms)
      (hb : b.monomials? = some ns)
      (h : broadcast? Monomial.times? ms ns = some (results.map some)) :
      IsProduct a b (mono (.ofList (a.isVector || b.isVector) results))
  | polynomials {results : List (Polynomial α)}
      (h : broadcast? Polynomial.times? a.polynomials b.polynomials = some (results.map some)) :
      IsProduct a b (poly (.ofList (a.isVector || b.isVector) results))

theorem isProduct_of_mulToHigher (h : mulToHigher a b = .ok e) : IsProduct a b e := by
  unfold mulToHigher at h
  split at h
  · split at h
    · obtain ⟨results, hresults, heq⟩ := bind_eq_ok_iff.mp h
      obtain rfl := Except.ok.inj heq
      exact .numbers rfl rfl (zipSlots_eq_ok_iff.mp hresults)
    · cases h
  · split at h
    · next ms ns hms hns =>
      obtain ⟨pairs, hpairs, hrest⟩ := bind_eq_ok_iff.mp h
      obtain ⟨results, hresults, heq⟩ := bind_eq_ok_iff.mp hrest
      obtain rfl := Except.ok.inj heq
      obtain rfl := products_eq_ok_iff.mp hresults
      exact .monomials hms hns (zipSlots_eq_ok_iff.mp hpairs)
    · obtain ⟨pairs, hpairs, hrest⟩ := bind_eq_ok_iff.mp h
      obtain ⟨results, hresults, heq⟩ := bind_eq_ok_iff.mp hrest
      obtain rfl := Except.ok.inj heq
      obtain rfl := products_eq_ok_iff.mp hresults
      exact .polynomials (zipSlots_eq_ok_iff.mp hpairs)

/-- **There are no other ways of multiplying**, and the operand with the higher products comes
first. -/
theorem isProduct_of_mul (h : a.mul b = .ok e) : IsProduct a b e ∨ IsProduct b a e := by
  unfold mul at h
  split at h
  · exact .inr (isProduct_of_mulToHigher h)
  · exact .inl (isProduct_of_mulToHigher h)

/-! ## Checked operations -/

/-- What a checked operand is read as, and that both operands are valid. -/
theorem checkedOperand_eq_ok_iff {b' : Operand α} :
    a.checkedOperand b' = .ok b ↔
      a.check = .ok () ∧ b'.toExpression = .ok b ∧ b.check = .ok () := by
  unfold checkedOperand
  constructor
  · intro h
    obtain ⟨⟨⟩, ha, h⟩ := bind_eq_ok_iff.mp h
    obtain ⟨c, hc, h⟩ := bind_eq_ok_iff.mp h
    obtain ⟨⟨⟩, hcheck, heq⟩ := bind_eq_ok_iff.mp h
    obtain rfl := Except.ok.inj heq
    exact ⟨ha, hc, hcheck⟩
  · rintro ⟨ha, hb', hb⟩
    simp [ha, hb', hb]

theorem plus_eq_ok_iff {b' : Operand α} :
    (a.plus b').result = .ok e ↔ ∃ b, a.checkedOperand b' = .ok b ∧
      (checkSum .plus a b).result = .ok () ∧ a.add b = .ok e := by
  simp [plus, bind_eq_ok_iff, Unique.exists_iff]

theorem minus_eq_ok_iff {b' : Operand α} :
    (a.minus b').result = .ok e ↔ ∃ b, a.checkedOperand b' = .ok b ∧
      (checkSum .minus a b).result = .ok () ∧ a.add b.negate = .ok e := by
  simp [minus, bind_eq_ok_iff, Unique.exists_iff]

theorem multiply_eq_ok_iff {b' : Operand α} :
    (a.multiply b').result = .ok e ↔ ∃ b, a.checkedOperand b' = .ok b ∧
      (checkProduct a b).result = .ok () ∧ a.mul b = .ok e := by
  simp [multiply, bind_eq_ok_iff, Unique.exists_iff]

/-- A product of numbers is a number, any other a polynomial. -/
theorem dot_eq_ok_iff {b' : Operand α} :
    (a.dot b').result = .ok e ↔ ∃ b, a.checkedOperand b' = .ok b ∧ a.length = b.length ∧
      match a, b with
      | const xs, const ys => e = const (.scalar (AlgebraicModel.dot xs.toList ys.toList))
      | a, b => ∃ ts, a.dotTerms b = .ok ts ∧ e = poly (.scalar (.ofTerms ts)) := by
  simp only [dot, Logged.result_bind, Logged.result_lift, bind_eq_ok_iff]
  refine exists_congr fun b => and_congr_right fun _ => ?_
  by_cases hlength : a.length = b.length
  · simp only [hlength, ne_eq, not_true_eq_false, if_false, true_and]
    cases a <;> cases b <;> simp [map_eq_ok_iff, eq_comm (b := e)]
  · simp [hlength]

end AlgebraicModel.Expression
