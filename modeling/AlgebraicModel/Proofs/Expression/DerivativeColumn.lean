import Mathlib
import AlgebraicModel.Proofs.Expression.AffineForm
import AlgebraicModel.Proofs.Expression.MissingValue
import AlgebraicModel.Proofs.Expression.SlotTerms

/-!
# The derivatives of an affine expression

Where coefficients can be read off an expression, its derivatives are constants, and each of them is
a column of coefficients. The two are computed in different ways: a coefficient is added to an entry
of a row that starts at zero, while a derivative lowers exponents, collects the constants that are
left, drops their sum if it is zero, and adds up what remains. Additions are made in the same order
in both, so that no sum has to be reassociated: that zeros and ones are neutral is all that is asked
of the arithmetic, and doubles have it. They have two zeros, and where a derivative is zero it may
be the other one.

## Main definitions

* `SameNumber x y`: `x` is `y`, or both are zeros
* `UnitLaws α`: the laws of zeros and of one

## Main results

* `NeutralZeros.add_congr`: sums of same numbers are the same
* `Monomial.entry_addCoefficient`: a term adds its derivative to the entry of its column
* `Polynomial.entry_coefficients`: so do the terms of a sum, one after the other
* `Polynomial.evaluate_ofTerms_of_constants`: collected constants have their sum as value
* `Expression.exists_values_derivative`: the derivative in any arithmetic with these laws
* `Expression.derivative_matches_column`: the derivative of an expression in doubles
-/

namespace AlgebraicModel

variable {α : Type} [Scalar α]

/-! ## Numbers up to the choice of a zero -/

/-- The same number, where zeros count as one. -/
def SameNumber (x y : α) : Prop :=
  x = y ∨ (x == 0) = true ∧ (y == 0) = true

/-- Zeros and ones are neutral, and sums start at a zero. -/
structure UnitLaws (α : Type) [Scalar α] : Prop extends NeutralZeros α where
  sumStart : ((Scalar.sumStart : α) == 0) = true
  mul_one : ∀ c : α, c * Scalar.ofInt 1 = c

theorem Double.unitLaws : UnitLaws Float where
  toNeutralZeros := neutralZeros
  sumStart := rfl
  mul_one c := (Double.mul_comm c 1).trans (Double.one_mul c)

namespace SameNumber

variable {x y z x' y' : α}

theorem refl (x : α) : SameNumber x x := .inl rfl

theorem symm (h : SameNumber x y) : SameNumber y x := by
  rcases h with rfl | ⟨hx, hy⟩
  · exact refl x
  · exact .inr ⟨hy, hx⟩

theorem trans (hxy : SameNumber x y) (hyz : SameNumber y z) : SameNumber x z := by
  rcases hxy with rfl | ⟨hx, hy⟩
  · exact hyz
  · rcases hyz with rfl | ⟨-, hz⟩
    · exact .inr ⟨hx, hy⟩
    · exact .inr ⟨hx, hz⟩

end SameNumber

/-! ### Sums -/

namespace NeutralZeros

variable {x y z x' y' : α} (laws : NeutralZeros α)
include laws

theorem zero_add (hz : (z == 0) = true) (x : α) : SameNumber (z + x) x := by
  cases hx : x == 0 with
  | true => exact .inr ⟨laws.add_zeros hz hx, hx⟩
  | false => exact .inl (laws.add_left hz hx)

theorem add_zero (hz : (z == 0) = true) (x : α) : SameNumber (x + z) x := by
  cases hx : x == 0 with
  | true => exact .inr ⟨laws.add_zeros hx hz, hx⟩
  | false => exact .inl (laws.add_right hz hx)

/-- **Sums of same numbers are the same**: which zero is added does not show. -/
theorem add_congr (hx : SameNumber x x') (hy : SameNumber y y') :
    SameNumber (x + y) (x' + y') := by
  rcases hx with rfl | ⟨hx, hx'⟩
  · rcases hy with rfl | ⟨hy, hy'⟩
    · exact .refl _
    · exact (laws.add_zero hy x).trans (laws.add_zero hy' x).symm
  · apply SameNumber.trans (laws.zero_add hx y)
    apply SameNumber.trans hy
    exact (laws.zero_add hx' y').symm

/-- The same numbers, added one after the other to the same number. -/
theorem foldl_add_congr (h : SameNumber x y) (cs : List α) :
    SameNumber (cs.foldl (· + ·) x) (cs.foldl (· + ·) y) := by
  induction cs generalizing x y with
  | nil => exact h
  | cons c cs ih =>
    apply ih
    exact laws.add_congr h (.refl c)

end NeutralZeros

/-! ## The derivative of a term -/

/-- A row starts with a zero in every column. -/
theorem ColumnOrder.getElem?_zeros {order : ColumnOrder} {id : VariableId} {j : ℕ}
    (hj : order.column? id = some j) : (List.replicate order.width (0 : α))[j]? = some 0 :=
  List.getElem?_replicate_of_lt (lt_width_of_column? hj)

namespace Monomial

variable {m : Monomial α} {order : ColumnOrder} {id : VariableId} {j : ℕ} {row row' : List α}

theorem derivative_of_notMem (h : ∀ f ∈ m.factors, f.base.id ≠ id) :
    m.derivative id = const 0 := by
  have hnone : m.factors.find? (·.base.id = id) = none :=
    List.find?_eq_none.mpr fun f hf => by simpa using h f hf
  rw [derivative, hnone]

/-- The derivative of a multiple of a variable is its coefficient, or the zero of the constants. -/
theorem derivative_of_single (laws : UnitLaws α) {v : Variable} (hm : m.factors = [⟨v, 1⟩]) :
    (m.derivative v.id).factors = [] ∧
      SameNumber (m.derivative v.id).coefficient m.coefficient := by
  have hderivative : m.derivative v.id = normalize m.coefficient [⟨v, 0⟩] := by
    simp [derivative, hm, Factor.lower, laws.mul_one]
  rw [hderivative, normalize]
  split
  · next hzero => exact ⟨rfl, .inr ⟨laws.zero, hzero⟩⟩
  · exact ⟨rfl, .refl _⟩

/-- **A term adds its derivative to the entry of its column**, and its derivative is a constant. -/
theorem entry_addCoefficient (laws : UnitLaws α) (hj : order.column? id = some j) {r : α}
    (hr : row[j]? = some r) (h : m.addCoefficient order row = .ok row') :
    (m.derivative id).factors = [] ∧ ∃ r', row'[j]? = some r' ∧
      SameNumber r' (r + (m.derivative id).coefficient) := by
  rcases addCoefficient_eq_ok_iff.mp h with ⟨hm, rfl⟩ | ⟨v, col, hm, hcol, rfl⟩
  · rw [derivative_of_notMem (by simp [hm])]
    exact ⟨rfl, r, hr, (laws.add_zero laws.zero r).symm⟩
  · by_cases hv : v.id = id
    · subst hv
      obtain rfl : col = j := Option.some.inj (hcol.symm.trans hj)
      obtain ⟨hfactors, hcoefficient⟩ := derivative_of_single laws hm
      refine ⟨hfactors, r + m.coefficient, by simp [hr], ?_⟩
      exact laws.add_congr (.refl r) hcoefficient.symm
    · have hne : col ≠ j := by
        rintro rfl
        exact hv (ColumnOrder.eq_of_column? hcol hj)
      rw [derivative_of_notMem (by simpa [hm] using hv)]
      refine ⟨rfl, r, by simp [hne, hr], ?_⟩
      exact (laws.add_zero laws.zero r).symm

/-- The value of a constant does not depend on an assignment. -/
theorem evaluate_of_factors_eq_nil (hm : m.factors = []) (σ : Assignment α) :
    m.evaluate σ = .ok m.coefficient := by
  rw [evaluate, hm]
  rfl

end Monomial

/-! ## The derivative of a sum -/

namespace Polynomial

variable {p : Polynomial α} {order : ColumnOrder} {id : VariableId} {j : ℕ} {row : List α}

/-- Term by term, the entry of a column is the sum of the derivatives, in the same order. -/
theorem entry_foldlM (laws : UnitLaws α) (hj : order.column? id = some j) {ts : List (Monomial α)}
    {row₀ : List α} {r₀ : α} (hr₀ : row₀[j]? = some r₀)
    (h : ts.foldlM (fun row t => t.addCoefficient order row) row₀ = .ok row) :
    (∀ t ∈ ts, (t.derivative id).factors = []) ∧ ∃ r, row[j]? = some r ∧
      SameNumber r ((ts.map fun t => (t.derivative id).coefficient).foldl (· + ·) r₀) := by
  induction ts generalizing row₀ r₀ with
  | nil =>
    obtain rfl := Except.ok.inj h
    exact ⟨by simp, r₀, hr₀, .refl r₀⟩
  | cons t ts ih =>
    rw [List.foldlM_cons] at h
    obtain ⟨row₁, hrow₁, hrest⟩ := bind_eq_ok_iff.mp h
    obtain ⟨hterm, r₁, hr₁, hsame⟩ := Monomial.entry_addCoefficient laws hj hr₀ hrow₁
    obtain ⟨hterms, r, hr, hfold⟩ := ih hr₁ hrest
    refine ⟨List.forall_mem_cons.mpr ⟨hterm, hterms⟩, r, hr, hfold.trans ?_⟩
    exact laws.foldl_add_congr hsame _

/-- Constants are alike, and collected in one of them. -/
theorem foldl_insert_constants {ts : List (Monomial α)} (hts : ∀ t ∈ ts, t.factors = []) (c : α) :
    ts.foldl (fun collected t => t.insert collected) [Monomial.const c] =
      [Monomial.const ((ts.map (·.coefficient)).foldl (· + ·) c)] := by
  induction ts generalizing c with
  | nil => rfl
  | cons t ts ih =>
    obtain ⟨ht, hts⟩ := List.forall_mem_cons.mp hts
    have hlike : (Monomial.const c).isLike t := by
      simp [Monomial.isLike_iff, Monomial.powers, Monomial.const, ht]
    have hinsert : t.insert [Monomial.const c] = [Monomial.const (c + t.coefficient)] := by
      rw [Monomial.insert, if_pos hlike]
      rfl
    rw [List.foldl_cons, hinsert, ih hts]
    rfl

/-- A single constant has itself as value, also where it is zero and dropped. -/
theorem evaluate_collected_constant (laws : UnitLaws α) (c : α) : ∃ x,
    (∀ σ, (⟨[Monomial.const c].filter (·.coefficient != 0)⟩ : Polynomial α).evaluate σ = .ok x) ∧
      SameNumber x c := by
  cases hc : c == 0 with
  | true =>
    have hdropped : [Monomial.const c].filter (·.coefficient != 0) = [] := by
      simp [Monomial.const, bne, hc]
    rw [hdropped]
    exact ⟨Scalar.sumStart, fun σ => rfl, .inr ⟨laws.sumStart, hc⟩⟩
  | false =>
    have hkept : [Monomial.const c].filter (·.coefficient != 0) = [Monomial.const c] := by
      simp [Monomial.const, bne, hc]
    rw [hkept]
    exact ⟨Scalar.sumStart + c, fun σ => rfl,
      laws.zero_add laws.sumStart c⟩

/-- **Collected constants have their sum as value**, at every assignment. -/
theorem evaluate_ofTerms_of_constants (laws : UnitLaws α) {ts : List (Monomial α)}
    (hts : ∀ t ∈ ts, t.factors = []) : ∃ x, (∀ σ, (ofTerms ts).evaluate σ = .ok x) ∧
      SameNumber x ((ts.map (·.coefficient)).foldl (· + ·) 0) := by
  cases ts with
  | nil => exact ⟨Scalar.sumStart, fun σ => rfl, .inr ⟨laws.sumStart, laws.zero⟩⟩
  | cons t ts =>
    obtain ⟨ht, hts⟩ := List.forall_mem_cons.mp hts
    have hfirst : t.insert [] = [Monomial.const t.coefficient] := by
      rw [Monomial.insert, Monomial.const, ← ht]
    obtain ⟨x, hx, hsame⟩ := evaluate_collected_constant laws
      ((ts.map (·.coefficient)).foldl (· + ·) t.coefficient)
    refine ⟨x, ?_, hsame.trans ?_⟩
    · intro σ
      rw [ofTerms, List.foldl_cons, hfirst, foldl_insert_constants hts]
      exact hx σ
    · -- The entry starts at zero, the collected constant at the first term.
      apply laws.foldl_add_congr
      exact (laws.zero_add laws.zero _).symm

/-- A polynomial with coefficients has the entry of their row as derivative. -/
theorem evaluate_derivative (laws : UnitLaws α) (hj : order.column? id = some j)
    (h : p.coefficients order = .ok row) : ∃ x,
      (∀ σ, (p.derivative id).evaluate σ = .ok x) ∧ ∃ r, row[j]? = some r ∧ SameNumber x r := by
  obtain ⟨hconstant, r, hr, hsum⟩ := entry_foldlM laws hj (ColumnOrder.getElem?_zeros hj) h
  have hconstants : ∀ t ∈ p.terms.map (·.derivative id), t.factors = [] := by
    intro t ht
    obtain ⟨s, hs, rfl⟩ := List.mem_map.mp ht
    exact hconstant s hs
  obtain ⟨x, hx, hsame⟩ := evaluate_ofTerms_of_constants laws hconstants
  rw [List.map_map] at hsame
  exact ⟨x, hx, r, hr, hsame.trans hsum.symm⟩

end Polynomial

/-! ## The derivative of an expression -/

/-- The row of a variable has a one in its column and zeros elsewhere. -/
theorem Variable.entry_coefficients {v : Variable} {order : ColumnOrder} {id : VariableId} {j : ℕ}
    {row : List α} (hj : order.column? id = some j)
    (h : v.coefficients order = (.ok row : Except (Expression.Error α) _)) :
    row[j]? = some (if v.id = id then 1 else 0) := by
  obtain ⟨col, hcol, heq⟩ := bind_eq_ok_iff.mp h
  obtain rfl := Except.ok.inj heq
  have hcol := ColumnOrder.column_eq_ok_iff.mp hcol
  have hlt := ColumnOrder.lt_width_of_column? hj
  rw [Matrix.unitRow, List.getElem?_set]
  by_cases hv : v.id = id
  · obtain rfl : col = j := Option.some.inj (hcol.symm.trans (hv ▸ hj))
    simp [hv, hlt]
  · have hne : col ≠ j := by
      rintro rfl
      exact hv (ColumnOrder.eq_of_column? hcol hj)
    simp [hv, hne, hlt]

/-- A monomial in normal form with coefficients has the entry of their row as derivative. -/
theorem Monomial.evaluate_derivative (laws : UnitLaws α) {m : Monomial α} (hm : m.IsNormal)
    {order : ColumnOrder} {id : VariableId} {j : ℕ} {row : List α}
    (hj : order.column? id = some j) (h : (Polynomial.ofMonomial m).coefficients order = .ok row) :
    ∃ x, (∀ σ, (m.derivative id).evaluate σ = .ok x) ∧ ∃ r, row[j]? = some r ∧
      SameNumber x r := by
  cases hzero : m.coefficient == 0 with
  | true =>
    rw [Polynomial.ofMonomial_of_zero hzero] at h
    obtain rfl := Except.ok.inj h
    rw [derivative_of_notMem (by simp [hm.collapsed hzero])]
    exact ⟨0, evaluate_of_factors_eq_nil rfl, 0, ColumnOrder.getElem?_zeros hj, .refl 0⟩
  | false =>
    rw [Polynomial.ofMonomial_of_ne hzero, Polynomial.coefficients, List.foldlM_cons] at h
    obtain ⟨row', hrow', heq⟩ := bind_eq_ok_iff.mp h
    obtain rfl := Except.ok.inj heq
    obtain ⟨hconstant, r, hr, hsame⟩ :=
      entry_addCoefficient laws hj (ColumnOrder.getElem?_zeros hj) hrow'
    refine ⟨_, evaluate_of_factors_eq_nil hconstant, r, hr, ?_⟩
    exact (hsame.trans (laws.zero_add laws.zero _)).symm

namespace Expression

variable {e : Expression α} {order : ColumnOrder} {id : VariableId} {j : ℕ} {a : Matrix α}

omit [Scalar α] in
/-- Slots with rows, each of which has a value that its row tells, have values that the rows
tell. -/
theorem exists_values_of_slots {β ε ι : Type} {slots : List β} {f : β → Except ε (List α)}
    {rows : List (List α)} {value : ι → β → Except VariableId α} {tells : α → List α → Prop}
    (h : slots.map f = rows.map .ok) (hslot : ∀ s ∈ slots, ∀ row, f s = .ok row →
      ∃ x, (∀ σ, value σ s = .ok x) ∧ tells x row) :
    ∃ xs, (∀ σ, slots.mapM (value σ) = .ok xs) ∧ List.Forall₂ tells xs rows := by
  induction slots generalizing rows with
  | nil =>
    obtain rfl : rows = [] := by simpa using h.symm
    exact ⟨[], fun σ => rfl, .nil⟩
  | cons s slots ih =>
    obtain _ | ⟨row, rows⟩ := rows
    · simp at h
    · obtain ⟨hs, hrest⟩ := List.cons.inj h
      obtain ⟨x, hx, htells⟩ := hslot s (by simp) row hs
      obtain ⟨xs, hxs, hrows⟩ := ih hrest fun t ht => hslot t (by simp [ht])
      refine ⟨x :: xs, fun σ => ?_, .cons htells hrows⟩
      rw [List.mapM_cons, hx, hxs]
      rfl

/-- **In any arithmetic with these laws**, the values of a derivative are a column of coefficients,
slot by slot. -/
theorem exists_values_derivative (laws : UnitLaws α) (he : e.IsNormal)
    (hj : order.column? id = some j) (h : e.coefficients order = .ok a) :
    ∃ xs, (∀ σ, (e.derivative id).values σ = .ok xs) ∧
      List.Forall₂ (fun x row => ∃ r, row[j]? = some r ∧ SameNumber x r) xs a.rows := by
  obtain ⟨-, hrows⟩ := coefficients_eq_ok_iff.mp h
  cases e with
  | const xs =>
    have hvalues (σ : Assignment α) :
        ((const xs).derivative id).values σ = xs.toList.mapM fun _ => .ok 0 := by
      rw [mapM_eq_ok_map fun _ _ => rfl, ← Slots.toList_map]
      rfl
    simp only [hvalues]
    apply exists_values_of_slots hrows
    intro x hx row hrow
    obtain rfl := Except.ok.inj hrow
    exact ⟨0, fun σ => rfl, 0, ColumnOrder.getElem?_zeros hj, .refl 0⟩
  | var vs =>
    have hvalues (σ : Assignment α) : ((var vs).derivative id).values σ =
        vs.toList.mapM fun v => .ok (if v.id = id then 1 else 0) := by
      rw [mapM_eq_ok_map fun _ _ => rfl, ← Slots.toList_map]
      rfl
    simp only [hvalues]
    apply exists_values_of_slots hrows
    intro v hv row hrow
    exact ⟨_, fun σ => rfl, _, Variable.entry_coefficients hj hrow, .refl _⟩
  | mono ms =>
    have hvalues (σ : Assignment α) : ((mono ms).derivative id).values σ =
        ms.toList.mapM fun m => (m.derivative id).evaluate σ := by
      rw [derivative, values, Slots.toList_map, List.mapM_map]
      rfl
    simp only [hvalues]
    apply exists_values_of_slots hrows
    intro m hm row hrow
    exact Monomial.evaluate_derivative laws (he m hm) hj hrow
  | poly ps =>
    have hvalues (σ : Assignment α) : ((poly ps).derivative id).values σ =
        ps.toList.mapM fun p => (p.derivative id).evaluate σ := by
      rw [derivative, values, Slots.toList_map, List.mapM_map]
      rfl
    simp only [hvalues]
    apply exists_values_of_slots hrows
    intro p hp row hrow
    exact Polynomial.evaluate_derivative laws hj hrow

/-- **The derivatives of an affine expression in doubles are its columns of coefficients.** Where
coefficients can be read off an expression in an ordering, its derivative with respect to a variable
of the ordering has no variables. It has values at every assignment, the empty one included: one for
each slot, and it is the number in the row of the slot and the first column of the variable. Of the
numbers only zeros may differ, and only in their sign. -/
theorem derivative_matches_column {e : Expression Float} (he : e.Constructed) {wrt : List Variable}
    {a : Matrix Float} (h : e.coefficients (.ofVariables wrt) = .ok a) {v : Variable} {j : ℕ}
    (hj : (wrt.map (·.id)).idxOf? v.id = some j) :
    (e.derivative v.id).vars = [] ∧ ∃ xs, xs.length = e.length ∧
      (∀ σ, (e.derivative v.id).evaluate σ = .ok xs) ∧
      List.Forall₂ (fun x row => ∃ c, row[j]? = some c ∧ SameNumber x c) xs a.rows := by
  have hnormal : e.IsNormal := he.isNormal (by decide)
  obtain ⟨xs, hvalues, hcolumn⟩ := exists_values_derivative Double.unitLaws hnormal hj h
  have hevaluate (σ : Assignment Float) : (e.derivative v.id).evaluate σ = .ok xs :=
    mapError_eq_ok_iff.mpr (hvalues σ)
  refine ⟨?_, xs, ?_, hevaluate, hcolumn⟩
  · have hcovers := exists_evaluate_iff.mp ⟨xs, hevaluate fun _ => none⟩
    apply List.eq_nil_iff_forall_not_mem.mpr
    intro u hu
    cases hcovers u hu
  · obtain ⟨-, hlength, -⟩ := coefficients_shape h
    exact hcolumn.length_eq.trans hlength

/-- The column of a variable that stands twice in the ordering: its derivative is minus three in the
first slot, and a zero in the second one, where it does not occur. -/
theorem derivative_matches_column_repeated :
    let x : Variable := ⟨⟨1⟩, {}, .integer⟩
    let y : Variable := ⟨⟨2⟩, {}, .integer⟩
    let e : Expression Float := poly (.vector
      [.ofTerms [⟨2, [⟨x, 1⟩]⟩, ⟨-3, [⟨y, 1⟩]⟩, .const 4], .ofTerms [⟨2, [⟨x, 1⟩]⟩]])
    e.coefficients (.ofVariables [x, y, y]) = .ok ⟨3, [[2, -3, 0], [2, 0, 0]]⟩ ∧
      ∃ x₁ x₂, (e.derivative y.id).evaluate (fun _ => none) = .ok [x₁, x₂] ∧
        SameNumber x₁ (-3) ∧ SameNumber x₂ 0 := by
  intro x y e
  have hx : (mono (.scalar ⟨2, [⟨x, 1⟩]⟩) : Expression Float).Constructed :=
    .monomial (show Monomial.ofFactors? 2 [⟨x, 1⟩] = some ⟨2, [⟨x, 1⟩]⟩ from rfl)
  have hy : (mono (.scalar ⟨-3, [⟨y, 1⟩]⟩) : Expression Float).Constructed :=
    .monomial (show Monomial.ofFactors? (-3) [⟨y, 1⟩] = some ⟨-3, [⟨y, 1⟩]⟩ from rfl)
  have he : e.Constructed := by
    apply Constructed.polynomials
    intro p hp
    rcases List.mem_pair.mp hp with rfl | rfl
    · apply Constructed.polynomial
      simp [hx, hy, Constructed.constMonomial]
    · apply Constructed.polynomial
      simp [hx]
  have hcoefficients :
      e.coefficients (.ofVariables [x, y, y]) = .ok ⟨3, [[2, -3, 0], [2, 0, 0]]⟩ :=
    eq_ok_of_toOption (by decide +kernel)
  have hj : ([x, y, y].map (·.id)).idxOf? y.id = some 1 := rfl
  obtain ⟨-, xs, -, hxs, hcolumn⟩ := derivative_matches_column he hcoefficients hj
  refine ⟨hcoefficients, ?_⟩
  obtain _ | ⟨⟨c₁, ⟨⟩, h₁⟩, _ | ⟨⟨c₂, ⟨⟩, h₂⟩, _ | _⟩⟩ := hcolumn
  exact ⟨_, _, hxs _, h₁, h₂⟩

end Expression

end AlgebraicModel
