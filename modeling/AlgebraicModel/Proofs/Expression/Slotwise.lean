import Mathlib
import AlgebraicModel.Proofs.Expression.Bases
import AlgebraicModel.Proofs.Expression.Product

/-!
# Arithmetic slot by slot

Whatever families its operands belong to, the result of an operation has the shape of its operands
and in each slot the value that the name of the operation promises. Nothing is asked of the
operands: they may be empty vectors, and their monomials need no normal form.

## Main definitions

* `Expression.Addable a b`: operands that can be added
* `Expression.IsSlotwise f a b e`: `e` is `f` of `a` and `b`, slot by slot

## Main results

* `Expression.isVector_add`, `isVector_mul`: the shape of a result
* `Expression.exists_plus_iff`, `exists_minus_iff`: when there is a sum, and a difference
* `Expression.plus_minus_negate_slotwise`: sums, differences and opposites
* `Expression.multiply_dot_slotwise`: products and inner products
-/

namespace AlgebraicModel.Expression

/-! ## Shape -/

section Shape

variable {α : Type} {a b e : Expression α}

/-- The slots of two operands, combined, have the shape of the operands. -/
theorem isVector_ofList_broadcast? {β γ δ ι : Type} {f : β → γ → δ} {xs : List β} {ys : List γ}
    {pairs : List δ} {zs : List ι} (h : broadcast? f xs ys = some pairs)
    (hzs : zs.length = pairs.length) (hxs : xs.length = a.length) (hys : ys.length = b.length) :
    (Slots.ofList (a.isVector || b.isVector) zs).isVector = (a.isVector || b.isVector) := by
  refine Slots.isVector_ofList fun hscalar => ?_
  obtain ⟨ha, hb⟩ := Bool.or_eq_false_iff.mp hscalar
  obtain ⟨-, -, hone⟩ := length_broadcast? h
  rw [hzs]
  exact hone (hxs.trans (length_of_scalar ha)) (hys.trans (length_of_scalar hb))

theorem length_of_const {xs : Slots α} (h : e = const xs) : xs.toList.length = e.length := by
  rw [h]
  rfl

variable [Scalar α]

theorem length_monomials? {ms : List (Monomial α)} (h : e.monomials? = some ms) :
    ms.length = e.length := by
  rw [← length_polynomials, polynomials_eq_map h, List.length_map]

theorem IsSum.isVector (h : IsSum a b e) : e.isVector = (a.isVector || b.isVector) := by
  cases h with
  | numbers ha hb h =>
    exact isVector_ofList_broadcast? h rfl (length_of_const ha) (length_of_const hb)
  | like ha hb =>
    rw [ha, hb]
    rfl
  | polynomials h =>
    exact isVector_ofList_broadcast? h rfl (length_polynomials a) (length_polynomials b)

/-- A sum is a vector if an operand is. -/
theorem isVector_add (h : a.add b = .ok e) : e.isVector = (a.isVector || b.isVector) := by
  rcases isSum_of_add h with h | h
  · exact h.isVector
  · rw [Bool.or_comm]
    exact h.isVector

theorem IsProduct.isVector (h : IsProduct a b e) : e.isVector = (a.isVector || b.isVector) := by
  cases h with
  | numbers ha hb h =>
    exact isVector_ofList_broadcast? h rfl (length_of_const ha) (length_of_const hb)
  | monomials ha hb h =>
    exact isVector_ofList_broadcast? h (List.length_map _).symm (length_monomials? ha)
      (length_monomials? hb)
  | polynomials h =>
    exact isVector_ofList_broadcast? h (List.length_map _).symm (length_polynomials a)
      (length_polynomials b)

/-- A product is a vector if an operand is. -/
theorem isVector_mul (h : a.mul b = .ok e) : e.isVector = (a.isVector || b.isVector) := by
  rcases isProduct_of_mul h with h | h
  · exact h.isVector
  · rw [Bool.or_comm]
    exact h.isVector

@[simp] theorem isVector_negate (e : Expression α) : e.negate.isVector = e.isVector := by
  cases e with
  | const s | var s | mono s | poly s => cases s <;> rfl

/-! ### Operands that can be added -/

omit [Scalar α] in
theorem checkSum_eq_ok_iff {op : Operation} :
    (checkSum op a b).result = .ok () ↔
      a.isVector = false ∨ b.isVector = false ∨ a.length = b.length := by
  unfold checkSum isScalar
  split
  · next h => simp_all [or_assoc]
  · next h => simp_all [reject]

/-- An operand that is an expression is read as it is. -/
theorem checkedOperand_expression_iff {c : Expression α} :
    a.checkedOperand (.expression b) = .ok c ↔ a.check = .ok () ∧ b.check = .ok () ∧ b = c := by
  rw [checkedOperand_eq_ok_iff]
  constructor
  · rintro ⟨ha, hb, hcheck⟩
    obtain rfl := Except.ok.inj hb
    exact ⟨ha, hcheck, rfl⟩
  · rintro ⟨ha, hcheck, rfl⟩
    exact ⟨ha, rfl, hcheck⟩

/-- Two valid operands, of which one is a scalar or which have equal lengths. -/
structure Addable (a b : Expression α) : Prop where
  left : a.check = .ok ()
  right : b.check = .ok ()
  shape : a.isVector = false ∨ b.isVector = false ∨ a.length = b.length

/-- What is done with an operand that passes the checks is done with the expression. -/
theorem exists_checked_iff {op : Operation} {p : Expression α → Prop} :
    (∃ c, a.checkedOperand (.expression b) = .ok c ∧ (checkSum op a c).result = .ok () ∧ p c) ↔
      a.Addable b ∧ p b := by
  constructor
  · rintro ⟨c, hc, hshape, hp⟩
    obtain ⟨ha, hb, rfl⟩ := checkedOperand_expression_iff.mp hc
    exact ⟨⟨ha, hb, checkSum_eq_ok_iff.mp hshape⟩, hp⟩
  · rintro ⟨h, hp⟩
    exact ⟨b, checkedOperand_expression_iff.mpr ⟨h.left, h.right, rfl⟩,
      checkSum_eq_ok_iff.mpr h.shape, hp⟩

theorem plus_expression_iff :
    (a.plus (.expression b)).result = .ok e ↔ a.Addable b ∧ a.add b = .ok e :=
  plus_eq_ok_iff.trans exists_checked_iff

/-- A difference is the sum with the opposite, once the operands have been checked as they are. -/
theorem minus_expression_iff :
    (a.minus (.expression b)).result = .ok e ↔ a.Addable b ∧ a.add b.negate = .ok e :=
  minus_eq_ok_iff.trans exists_checked_iff

omit [Scalar α] in
theorem Addable.length_right (h : a.Addable b) (ha : a.isVector) :
    b.length = 1 ∨ a.length = b.length := by
  rcases h.shape with hscalar | hscalar | hlength
  · rw [hscalar] at ha
    cases ha
  · exact .inl (length_of_scalar hscalar)
  · exact .inr hlength

omit [Scalar α] in
theorem Addable.length_left (h : a.Addable b) (hb : b.isVector) :
    a.length = 1 ∨ a.length = b.length := by
  rcases h.shape with hscalar | hscalar | hlength
  · exact .inl (length_of_scalar hscalar)
  · rw [hscalar] at hb
    cases hb
  · exact .inr hlength

/-- An operand has the shape of its opposite, so there is a sum with both of them or with none. -/
theorem exists_add_negate (h : a.isVector = false ∨ b.isVector = false ∨ a.length = b.length) :
    ∃ e, a.add b.negate = .ok e :=
  exists_add (by simpa using h)

/-- Operands that can be added have a sum, and no others do. -/
theorem exists_plus_iff : (∃ e, (a.plus (.expression b)).result = .ok e) ↔ a.Addable b := by
  constructor
  · rintro ⟨e, h⟩
    exact (plus_expression_iff.mp h).1
  · intro h
    obtain ⟨e, he⟩ := exists_add h.shape
    exact ⟨e, plus_expression_iff.mpr ⟨h, he⟩⟩

/-- The same operands have a difference. -/
theorem exists_minus_iff : (∃ e, (a.minus (.expression b)).result = .ok e) ↔ a.Addable b := by
  constructor
  · rintro ⟨e, h⟩
    exact (minus_expression_iff.mp h).1
  · intro h
    obtain ⟨e, he⟩ := exists_add_negate h.shape
    exact ⟨e, minus_expression_iff.mpr ⟨h, he⟩⟩

end Shape

/-! ## Slot by slot -/

variable {a b d e : Expression ℚ} {f : ℚ → ℚ → ℚ}

/-- `e` is the result of `f` on `a` and `b`, slot by slot. It is a vector if one of them is, and as
long as the operand that has not just one slot. Under an assignment that covers the variables of
both, all three have values, and each slot of `e` has the value of `f` at a slot of `a` and a slot
of `b`, where the only slot of an operand is taken for every slot of `e`. -/
structure IsSlotwise (f : ℚ → ℚ → ℚ) (a b e : Expression ℚ) : Prop where
  isVector : e.isVector = (a.isVector || b.isVector)
  length_left : a.length ≠ 1 → e.length = a.length
  length_right : b.length ≠ 1 → e.length = b.length
  length_one : a.length = 1 → b.length = 1 → e.length = 1
  evaluate : ∀ σ : Assignment ℚ, σ.Covers (a.vars ++ b.vars) → ∃ xs ys zs,
    a.evaluate σ = .ok xs ∧ b.evaluate σ = .ok ys ∧ e.evaluate σ = .ok zs ∧
      xs.length = a.length ∧ ys.length = b.length ∧ zs.length = e.length ∧
      ∀ i < e.length, ∃ x y, xs[operandSlot a.length i]? = some x ∧
        ys[operandSlot b.length i]? = some y ∧ zs[i]? = some (f x y)

/-- A covering assignment has the values of a valuation at every record of two operands. -/
theorem exists_gives_bases {σ : Assignment ℚ} (h : σ.Covers (a.vars ++ b.vars)) :
    ∃ ρ : Valuation, σ.Gives ρ (a.bases ++ b.bases) := by
  obtain ⟨ha, hb⟩ := Assignment.covers_append_iff.mp h
  exact (Assignment.covers_append_iff.mpr
    ⟨Assignment.covers_distinct_iff.mp ha, Assignment.covers_distinct_iff.mp hb⟩).exists_gives

/-- What has the shape, the variables and the meaning of a result is the result. -/
theorem IsSlotwise.of_denote (hvector : e.isVector = (a.isVector || b.isVector))
    (hbases : e.bases ⊆ a.bases ++ b.bases)
    (hdenote : ∀ ρ, broadcast? f (a.denote ρ) (b.denote ρ) = some (e.denote ρ)) :
    IsSlotwise f a b e := by
  obtain ⟨hleft, hright, hone⟩ := length_broadcast? (hdenote fun _ => 0)
  simp only [length_denote] at hleft hright hone
  refine ⟨hvector, hleft, hright, hone, ?_⟩
  intro σ hσ
  obtain ⟨ρ, hρ⟩ := exists_gives_bases hσ
  obtain ⟨ha, hb⟩ := List.forall_mem_append.mp hρ
  have he : σ.Gives ρ e.bases := fun v hv => hρ v (hbases hv)
  refine ⟨a.denote ρ, b.denote ρ, e.denote ρ, evaluate_eq_denote ha, evaluate_eq_denote hb,
    evaluate_eq_denote he, length_denote a, length_denote b, length_denote e, ?_⟩
  intro i hi
  have hslot := getElem?_broadcast? (hdenote ρ) ((length_denote e).symm ▸ hi)
  rwa [length_denote, length_denote] at hslot

/-- A sum has the length of an operand that is a vector. -/
theorem IsSlotwise.length_of_addable (h : IsSlotwise f a b e) (hab : a.Addable b) :
    (a.isVector → e.length = a.length) ∧ (b.isVector → e.length = b.length) ∧
      (a.isVector = false → b.isVector = false → e.length = 1) := by
  refine ⟨fun ha => ?_, fun hb => ?_, fun ha hb => ?_⟩
  · have hright := hab.length_right ha
    by_cases hone : a.length = 1
    · rw [h.length_one hone (by omega), hone]
    · exact h.length_left hone
  · have hleft := hab.length_left hb
    by_cases hone : b.length = 1
    · rw [h.length_one (by omega) hone, hone]
    · exact h.length_right hone
  · exact h.length_one (length_of_scalar ha) (length_of_scalar hb)

/-- The value of a result, computed from the values of the operands. -/
theorem IsSlotwise.evaluate_eq {σ : Assignment ℚ} {xs ys : List ℚ} (h : IsSlotwise f a b e)
    (hσ : σ.Covers (a.vars ++ b.vars)) (ha : a.evaluate σ = .ok xs) (hb : b.evaluate σ = .ok ys) :
    e.evaluate σ = .ok ((List.range e.length).map fun i =>
      f (xs.getD (operandSlot a.length i) 0) (ys.getD (operandSlot b.length i) 0)) := by
  obtain ⟨xs', ys', zs, hxs, hys, hzs, -, -, hlength, hslots⟩ := h.evaluate σ hσ
  obtain rfl := Except.ok.inj (ha.symm.trans hxs)
  obtain rfl := Except.ok.inj (hb.symm.trans hys)
  rw [hzs]
  congr 1
  refine List.ext_getElem? fun i => ?_
  by_cases hi : i < e.length
  · obtain ⟨x, y, hx, hy, hz⟩ := hslots i hi
    simp [List.getD, hx, hy, hz, hi]
  · rw [List.getElem?_eq_none (by omega), List.getElem?_eq_none (by simpa using hi)]

theorem isSlotwise_add (h : a.add b = .ok e) : IsSlotwise (· + ·) a b e :=
  .of_denote (isVector_add h) (bases_add h) fun _ => denote_add h

theorem isSlotwise_add_negate (h : a.add b.negate = .ok e) : IsSlotwise (· - ·) a b e := by
  refine .of_denote ?_ ?_ fun ρ => ?_
  · rw [isVector_add h, isVector_negate]
  · intro v hv
    rcases List.mem_append.mp (bases_add h hv) with hv | hv
    · exact List.mem_append_left _ hv
    · exact List.mem_append_right _ (bases_negate b hv)
  · have hsum := denote_add (ρ := ρ) h
    rw [denote_negate] at hsum
    have hdifference := broadcast?_map (f := (· - ·)) (g := (· + ·)) (u := id) (v := (-·))
      (w := id) (fun x y => (sub_eq_add_neg x y).symm) (a.denote ρ) (b.denote ρ)
    rw [List.map_id, hsum] at hdifference
    simpa using hdifference.symm

theorem isSlotwise_mul (h : a.mul b = .ok e) : IsSlotwise (· * ·) a b e :=
  .of_denote (isVector_mul h) (bases_mul h) fun _ => denote_mul h

/-- The opposite has the opposite values. -/
theorem evaluate_negate {σ : Assignment ℚ} (h : σ.Covers a.vars) :
    ∃ xs, a.evaluate σ = .ok xs ∧ a.negate.evaluate σ = .ok (xs.map (-·)) := by
  obtain ⟨ρ, hρ⟩ := (Assignment.covers_distinct_iff.mp h).exists_gives
  refine ⟨a.denote ρ, evaluate_eq_denote hρ, ?_⟩
  rw [evaluate_eq_denote fun v hv => hρ v (bases_negate a hv), denote_negate]

/-- **Addition, subtraction and negation mean what they say.** A sum and a difference have in every
slot the sum and the difference of the slots of their operands, a scalar being repeated, and the
length of an operand that is a vector. The opposite has the opposite in every slot. -/
theorem plus_minus_negate_slotwise (a b : Expression ℚ) :
    (∀ e, (a.plus (.expression b)).result = .ok e → IsSlotwise (· + ·) a b e ∧
      (a.isVector → e.length = a.length) ∧ (b.isVector → e.length = b.length) ∧
      (a.isVector = false → b.isVector = false → e.length = 1)) ∧
    (∀ e, (a.minus (.expression b)).result = .ok e → IsSlotwise (· - ·) a b e ∧
      (a.isVector → e.length = a.length) ∧ (b.isVector → e.length = b.length) ∧
      (a.isVector = false → b.isVector = false → e.length = 1)) ∧
    ∀ σ : Assignment ℚ, σ.Covers a.vars →
      ∃ xs, a.evaluate σ = .ok xs ∧ a.negate.evaluate σ = .ok (xs.map (-·)) := by
  refine ⟨?_, ?_, fun σ => evaluate_negate⟩
  · intro e h
    obtain ⟨hab, hsum⟩ := plus_expression_iff.mp h
    exact ⟨isSlotwise_add hsum, (isSlotwise_add hsum).length_of_addable hab⟩
  · intro e h
    obtain ⟨hab, hdifference⟩ := minus_expression_iff.mp h
    exact ⟨isSlotwise_add_negate hdifference,
      (isSlotwise_add_negate hdifference).length_of_addable hab⟩

/-- The variable `x₁`, and the column of `2 * x₂ * x₁ + 3` and `x₁`, where `x₁ = 5` and
`x₂ = 7`. -/
theorem plus_minus_negate_slotwise_repeated :
    let x₁ : Variable := ⟨⟨1⟩, {}, .integer⟩
    let x₂ : Variable := ⟨⟨2⟩, {}, .integer⟩
    let a : Expression ℚ := var (.scalar x₁)
    let b : Expression ℚ := poly (.vector
      [.ofTerms [⟨2, [⟨x₂, 1⟩, ⟨x₁, 1⟩]⟩, .const 3], .ofTerms [.ofVariable x₁]])
    let σ : Assignment ℚ := fun id => some (if id = ⟨1⟩ then 5 else 7)
    (∃ e, (a.plus (.expression b)).result = .ok e ∧ e.isVector ∧ e.evaluate σ = .ok [78, 10]) ∧
      (∃ e, (a.minus (.expression b)).result = .ok e ∧ e.isVector ∧ e.evaluate σ = .ok [-68, 0]) ∧
      b.negate.evaluate σ = .ok [-73, -5] := by
  intro x₁ x₂ a b σ
  have hcovers (vs : List Variable) : σ.Covers vs := fun v _ => rfl
  have ha : a.evaluate σ = .ok [5] := eq_ok_of_toOption (by decide +kernel)
  have hb : b.evaluate σ = .ok [73, 5] := eq_ok_of_toOption (by decide +kernel)
  have hacheck : a.check = .ok () := eq_ok_of_isOk (by decide +kernel)
  have hbcheck : b.check = .ok () := eq_ok_of_isOk (by decide +kernel)
  obtain ⟨e, he⟩ := exists_plus_iff.mpr ⟨hacheck, hbcheck, .inl rfl⟩
  obtain ⟨d, hd⟩ := exists_minus_iff.mpr ⟨hacheck, hbcheck, .inl rfl⟩
  obtain ⟨hplus, hminus, -⟩ := plus_minus_negate_slotwise a b
  obtain ⟨-, -, hnegate⟩ := plus_minus_negate_slotwise b a
  refine ⟨⟨e, he, ?_⟩, ⟨d, hd, ?_⟩, ?_⟩
  · obtain ⟨hsum, -, hlength, -⟩ := hplus e he
    have hvalue := hsum.evaluate_eq (hcovers _) ha hb
    rw [hlength rfl] at hvalue
    exact ⟨hsum.isVector, hvalue.trans (congrArg Except.ok (by decide +kernel))⟩
  · obtain ⟨hdifference, -, hlength, -⟩ := hminus d hd
    have hvalue := hdifference.evaluate_eq (hcovers _) ha hb
    rw [hlength rfl] at hvalue
    exact ⟨hdifference.isVector, hvalue.trans (congrArg Except.ok (by decide +kernel))⟩
  · obtain ⟨ys, hys, hopposite⟩ := hnegate σ (hcovers _)
    obtain rfl := Except.ok.inj (hb.symm.trans hys)
    exact hopposite

/-! ## Inner products -/

/-- An inner product is a scalar of the variables of its operands, and means what its name says. -/
theorem dot_spec (h : (a.dot (.expression b)).result = .ok d) :
    d.isVector = false ∧ a.length = b.length ∧ d.bases ⊆ a.bases ++ b.bases ∧
      ∀ ρ, d.denote ρ = [inner (a.denote ρ) (b.denote ρ)] := by
  obtain ⟨b', hb', hlength, hresult⟩ := dot_eq_ok_iff.mp h
  obtain ⟨-, -, rfl⟩ := checkedOperand_expression_iff.mp hb'
  split at hresult
  · obtain rfl := hresult
    refine ⟨rfl, hlength, List.nil_subset _, fun ρ => ?_⟩
    rw [denote, dot_eq_inner]
    rfl
  · obtain ⟨ts, hts, rfl⟩ := hresult
    refine ⟨rfl, hlength, ?_, fun ρ => ?_⟩
    · intro v hv
      obtain ⟨p, hp, hv⟩ := mem_bases_poly_iff.mp hv
      obtain rfl := List.mem_singleton.mp hp
      exact bases_dotTerms hts (Polynomial.bases_ofTerms ts hv)
    · rw [← sum_dotTerms hlength hts, ← Polynomial.denote_ofTerms]
      rfl

/-- **Multiplication and the inner product mean what they say.** A product has in every slot the
product of the slots of its operands, and as many slots as the operand that has not just one; an
inner product is a scalar, the sum of the products of the slots. -/
theorem multiply_dot_slotwise (a b : Expression ℚ) :
    (∀ e, (a.multiply (.expression b)).result = .ok e → IsSlotwise (· * ·) a b e) ∧
    ∀ d, (a.dot (.expression b)).result = .ok d → d.isVector = false ∧
      ∀ σ : Assignment ℚ, σ.Covers (a.vars ++ b.vars) → ∃ xs ys,
        a.evaluate σ = .ok xs ∧ b.evaluate σ = .ok ys ∧ xs.length = a.length ∧
          ys.length = a.length ∧ d.evaluate σ = .ok [inner xs ys] := by
  refine ⟨?_, ?_⟩
  · intro e h
    obtain ⟨b', hb', -, hproduct⟩ := multiply_eq_ok_iff.mp h
    obtain ⟨-, -, rfl⟩ := checkedOperand_expression_iff.mp hb'
    exact isSlotwise_mul hproduct
  · intro d h
    obtain ⟨hscalar, hlength, hbases, hdenote⟩ := dot_spec h
    refine ⟨hscalar, fun σ hσ => ?_⟩
    obtain ⟨ρ, hρ⟩ := exists_gives_bases hσ
    obtain ⟨ha, hb⟩ := List.forall_mem_append.mp hρ
    refine ⟨a.denote ρ, b.denote ρ, evaluate_eq_denote ha, evaluate_eq_denote hb, length_denote a,
      (length_denote b).trans hlength.symm, ?_⟩
    rw [evaluate_eq_denote fun v hv => hρ v (hbases hv), hdenote]

/-- The vector of `x₁` alone times the column of `x₁ - 1` and `x₂`, and this column against that of
`x₁ + 1` and `x₁ - 5`, where `x₁ = 5` and `x₂ = 7`. -/
theorem multiply_dot_slotwise_columns :
    let x₁ : Variable := ⟨⟨1⟩, {}, .integer⟩
    let x₂ : Variable := ⟨⟨2⟩, {}, .integer⟩
    let a : Expression ℚ := poly (.vector
      [.ofTerms [.ofVariable x₁, .const 1], .ofTerms [.ofVariable x₁, .const (-5)]])
    let b : Expression ℚ := poly (.vector
      [.ofTerms [.ofVariable x₁, .const (-1)], .ofTerms [.ofVariable x₂]])
    let c : Expression ℚ := var (.vector [x₁])
    let σ : Assignment ℚ := fun id => some (if id = ⟨1⟩ then 5 else 7)
    (∃ e, (c.multiply (.expression b)).result = .ok e ∧ e.isVector ∧ e.length = 2 ∧
        e.evaluate σ = .ok [20, 35]) ∧
      ∃ d, (a.dot (.expression b)).result = .ok d ∧ d.isVector = false ∧
        d.evaluate σ = .ok [24] := by
  intro x₁ x₂ a b c σ
  have hcovers (vs : List Variable) : σ.Covers vs := fun v _ => rfl
  have ha : a.evaluate σ = .ok [6, 0] := eq_ok_of_toOption (by decide +kernel)
  have hb : b.evaluate σ = .ok [4, 7] := eq_ok_of_toOption (by decide +kernel)
  have hc : c.evaluate σ = .ok [5] := eq_ok_of_toOption (by decide +kernel)
  have hproduct : (c.multiply (.expression b)).result.toOption.isSome := by decide +kernel
  have hdot : (a.dot (.expression b)).result.toOption.isSome := by decide +kernel
  obtain ⟨e, he⟩ := Option.isSome_iff_exists.mp hproduct
  obtain ⟨d, hd⟩ := Option.isSome_iff_exists.mp hdot
  have he := eq_ok_of_toOption he
  have hd := eq_ok_of_toOption hd
  obtain ⟨hmultiply, -⟩ := multiply_dot_slotwise c b
  obtain ⟨-, hinner⟩ := multiply_dot_slotwise a b
  refine ⟨⟨e, he, ?_⟩, ⟨d, hd, ?_⟩⟩
  · have hslotwise := hmultiply e he
    have hlength : e.length = 2 := hslotwise.length_right (by decide)
    have hvalue := hslotwise.evaluate_eq (hcovers _) hc hb
    rw [hlength] at hvalue
    refine ⟨hslotwise.isVector, hlength, ?_⟩
    exact hvalue.trans (congrArg Except.ok (by decide +kernel))
  · obtain ⟨hscalar, hevaluate⟩ := hinner d hd
    obtain ⟨xs, ys, hxs, hys, -, -, hvalue⟩ := hevaluate σ (hcovers _)
    obtain rfl := Except.ok.inj (ha.symm.trans hxs)
    obtain rfl := Except.ok.inj (hb.symm.trans hys)
    exact ⟨hscalar, hvalue.trans (congrArg Except.ok (by decide +kernel))⟩

end AlgebraicModel.Expression
