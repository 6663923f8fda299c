import Mathlib
import AlgebraicModel.Proofs.Expression.Degree
import AlgebraicModel.Scalar.Double

/-!
# When arithmetic succeeds

An operation on two operands checks its receiver, its operand, their shapes and the degrees of its
products, in this order, and fails with the first fault it finds. What comes after the rule for the
shapes has no shape error left to make: the rules are stricter than the pairing of slots.

## Main definitions

* `Expression.FirstFault`: the first fault of two operands
* `Expression.Outcome`: an operation succeeds without a fault, and fails with the first one

## Main results

* `Expression.plus_eq_lift`, `multiply_eq_lift`: operands without a fault
* `Expression.arithmetic_outcome`: the outcomes of sums, differences, products and inner products
-/

namespace AlgebraicModel.Expression

/-! ## Faults -/

section Fault

variable {α : Type}

/-- The first fault of two operands. They are checked one after the other, then their shapes, which
fit or give the error `mismatch`, and then the degrees of their products. -/
inductive FirstFault (a b : Expression α) (fits : Prop) (mismatch : Error α) (overflows : Prop) :
    Error α → Prop
  | left {cause : Error α} (ha : a.check = .error cause) :
      FirstFault a b fits mismatch overflows cause
  | right {cause : Error α} (ha : a.check = .ok ()) (hb : b.check = .error cause) :
      FirstFault a b fits mismatch overflows cause
  | shape (ha : a.check = .ok ()) (hb : b.check = .ok ()) (h : ¬ fits) :
      FirstFault a b fits mismatch overflows mismatch
  | degree (ha : a.check = .ok ()) (hb : b.check = .ok ()) (h : fits) (hoverflows : overflows) :
      FirstFault a b fits mismatch overflows .degreeOverflow

/-- An operation succeeds on valid operands that fit and do not overflow, and fails with the first
fault of any others. -/
structure Outcome (result : Except (Error α) (Expression α)) (a b : Expression α) (fits : Prop)
    (mismatch : Error α) (overflows : Prop) : Prop where
  succeeds : (∃ e, result = .ok e) ↔ a.check = .ok () ∧ b.check = .ok () ∧ fits ∧ ¬ overflows
  fails : ∀ cause, result = .error cause ↔ FirstFault a b fits mismatch overflows cause

theorem exists_firstFault_iff {a b : Expression α} {fits overflows : Prop} {mismatch : Error α} :
    (∃ cause, FirstFault a b fits mismatch overflows cause) ↔
      ¬ (a.check = .ok () ∧ b.check = .ok () ∧ fits ∧ ¬ overflows) := by
  constructor
  · rintro ⟨cause, h⟩ ⟨ha, hb, hfits, hoverflows⟩
    cases h <;> simp_all
  · intro h
    cases ha : a.check with
    | error cause => exact ⟨cause, .left ha⟩
    | ok =>
      cases hb : b.check with
      | error cause => exact ⟨cause, .right ha hb⟩
      | ok =>
        by_cases hfits : fits
        · have hoverflows : overflows := by
            by_contra hno
            exact h ⟨ha, hb, hfits, hno⟩
          exact ⟨_, .degree ha hb hfits hoverflows⟩
        · exact ⟨mismatch, .shape ha hb hfits⟩

end Fault

variable {α : Type} [Scalar α] {a b : Expression α} {fits overflows : Prop} {mismatch : Error α}

theorem checkedOperand_eq_error_iff {cause : Error α} :
    a.checkedOperand (.expression b) = .error cause ↔
      a.check = .error cause ∨ a.check = .ok () ∧ b.check = .error cause := by
  unfold checkedOperand
  cases a.check <;> cases hb : b.check <;> simp [Operand.toExpression, hb]

section Rest

variable {rest : Expression α → Except (Error α) (Expression α)}
  (hrest : ∀ cause, rest b = .error cause ↔
    ¬ fits ∧ cause = mismatch ∨ fits ∧ overflows ∧ cause = .degreeOverflow)
include hrest

/-- An operation fails with the first fault, if what is left of it once its operands have been
checked does. -/
theorem checked_bind_eq_error_iff {cause : Error α} :
    a.checkedOperand (.expression b) >>= rest = .error cause ↔
      FirstFault a b fits mismatch overflows cause := by
  rw [bind_eq_error_iff, checkedOperand_eq_error_iff]
  simp only [checkedOperand_expression_iff]
  constructor
  · rintro ((ha | ⟨ha, hb⟩) | ⟨c, ⟨ha, hb, rfl⟩, hc⟩)
    · exact .left ha
    · exact .right ha hb
    · rcases (hrest cause).mp hc with ⟨hfits, rfl⟩ | ⟨hfits, hoverflows, rfl⟩
      · exact .shape ha hb hfits
      · exact .degree ha hb hfits hoverflows
  · rintro (ha | ⟨ha, hb⟩ | ⟨ha, hb, hfits⟩ | ⟨ha, hb, hfits, hoverflows⟩)
    · exact .inl (.inl ha)
    · exact .inl (.inr ⟨ha, hb⟩)
    · exact .inr ⟨b, ⟨ha, hb, rfl⟩, (hrest _).mpr (.inl ⟨hfits, rfl⟩)⟩
    · exact .inr ⟨b, ⟨ha, hb, rfl⟩, (hrest _).mpr (.inr ⟨hfits, hoverflows, rfl⟩)⟩

theorem Outcome.of_rest :
    Outcome (a.checkedOperand (.expression b) >>= rest) a b fits mismatch overflows := by
  refine ⟨?_, fun cause => checked_bind_eq_error_iff hrest⟩
  have hfault : (∃ cause, a.checkedOperand (.expression b) >>= rest = .error cause) ↔
      ¬ (a.check = .ok () ∧ b.check = .ok () ∧ fits ∧ ¬ overflows) := by
    simp only [checked_bind_eq_error_iff hrest, exists_firstFault_iff]
  rw [← not_iff_not, ← hfault]
  cases a.checkedOperand (.expression b) >>= rest <;> simp

end Rest

/-! ## Rules -/

omit [Scalar α] in
theorem checkSum_eq_error_iff {op : Operation} {cause : Error α} :
    (checkSum op a b).result = .error cause ↔
      ¬ (a.isVector = false ∨ b.isVector = false ∨ a.length = b.length) ∧
        cause = .dimension op a b := by
  by_cases hfits : a.isVector = false ∨ b.isVector = false ∨ a.length = b.length
  · simp [checkSum_eq_ok_iff.mpr hfits, hfits]
  · rw [checkSum, if_neg (by simpa [isScalar, or_assoc] using hfits)]
    exact ⟨fun h => ⟨hfits, (Except.error.inj h).symm⟩, fun h => congrArg _ h.2.symm⟩

omit [Scalar α] in
theorem checkProduct_eq_error_iff {cause : Error α} :
    (checkProduct a b).result = .error cause ↔
      ¬ (a.length = 1 ∨ b.length = 1) ∧ cause = .vectorProduct a.kind b.kind := by
  unfold checkProduct
  by_cases hfits : a.length = 1 ∨ b.length = 1
  · rw [if_pos (by simpa using hfits)]
    simp [hfits]
  · rw [if_neg (by simpa using hfits)]
    exact ⟨fun h => ⟨hfits, (Except.error.inj h).symm⟩, fun h => congrArg _ h.2.symm⟩

section Rule

variable {rule : Except (Error α) Unit}
  (hrule : ∀ cause, rule = .error cause ↔ ¬ fits ∧ cause = mismatch)
include hrule

omit [Scalar α] in
theorem rule_eq_ok_iff : rule = .ok () ↔ fits := by
  cases hresult : rule with
  | error e => simp [((hrule e).mp hresult).1]
  | ok =>
    have herror := hrule mismatch
    simpa [hresult] using herror

omit [Scalar α] in
/-- A rule, and a computation behind it that fails only where products overflow. -/
theorem rule_bind_eq_error_iff {β : Type} {computation : Except (Error α) β} {cause : Error α}
    (hcomputation : fits → ∀ cause, computation = .error cause ↔
      overflows ∧ cause = .degreeOverflow) :
    (rule >>= fun _ => computation) = .error cause ↔
      ¬ fits ∧ cause = mismatch ∨ fits ∧ overflows ∧ cause = .degreeOverflow := by
  rw [bind_eq_error_iff, hrule, Unique.exists_iff]
  refine or_congr_right ?_
  constructor
  · rintro ⟨hok, herror⟩
    have hfits := (rule_eq_ok_iff hrule).mp hok
    exact ⟨hfits, (hcomputation hfits cause).mp herror⟩
  · rintro ⟨hfits, herror⟩
    exact ⟨(rule_eq_ok_iff hrule).mpr hfits, (hcomputation hfits cause).mpr herror⟩

end Rule

section Fitting

variable (ha : a.check = .ok ()) (hb : b.check = .ok ())
include ha hb

/-- Operands without a fault are added, and nothing is recorded. -/
theorem plus_eq_lift (hfits : a.isVector = false ∨ b.isVector = false ∨ a.length = b.length) :
    a.plus (.expression b) = liftM (a.add b) := by
  have hrule : (checkSum .plus a b : Checked α Unit) = pure () := if_pos (by
    simpa [isScalar, or_assoc] using hfits)
  rw [plus, checkedOperand_expression_iff.mpr ⟨ha, hb, rfl⟩]
  change (checkSum .plus a b >>= fun _ => liftM (a.add b)) = _
  rw [hrule, pure_bind]

/-- Operands without a fault are multiplied, and nothing is recorded. -/
theorem multiply_eq_lift (hfits : a.length = 1 ∨ b.length = 1) :
    a.multiply (.expression b) = liftM (a.mul b) := by
  have hrule : (checkProduct a b : Checked α Unit) = pure () := if_pos (by simpa using hfits)
  rw [multiply, checkedOperand_expression_iff.mpr ⟨ha, hb, rfl⟩]
  change (checkProduct a b >>= fun _ => liftM (a.mul b)) = _
  rw [hrule, pure_bind]

end Fitting

/-! ## Outcomes -/

/-- A sum and a difference are the sum with an operand that has one as soon as the rule is met. -/
theorem Outcome.of_add (op : Operation) (summand : Expression α → Expression α)
    (hsum : a.isVector = false ∨ b.isVector = false ∨ a.length = b.length →
      ∃ e, a.add (summand b) = .ok e) :
    Outcome (a.checkedOperand (.expression b) >>= fun c => (checkSum op a c).result >>= fun _ =>
        a.add (summand c)) a b
      (a.isVector = false ∨ b.isVector = false ∨ a.length = b.length) (.dimension op a b) False := by
  refine .of_rest fun cause => rule_bind_eq_error_iff (fun _ => checkSum_eq_error_iff) ?_
  intro hfits cause
  obtain ⟨e, he⟩ := hsum hfits
  simp [he]

theorem outcome_plus (a b : Expression α) : Outcome (a.plus (.expression b)).result a b
    (a.isVector = false ∨ b.isVector = false ∨ a.length = b.length) (.dimension .plus a b)
    False := by
  have h := Outcome.of_add (a := a) (b := b) .plus id exists_add
  simpa [plus] using h

theorem outcome_minus (a b : Expression α) : Outcome (a.minus (.expression b)).result a b
    (a.isVector = false ∨ b.isVector = false ∨ a.length = b.length) (.dimension .minus a b)
    False := by
  have h := Outcome.of_add (a := a) (b := b) .minus negate exists_add_negate
  simpa [minus] using h

theorem outcome_multiply (hone : ((1 : α) == 0) = false) (ha : a.IsNormal) (hb : b.IsNormal) :
    Outcome (a.multiply (.expression b)).result a b (a.length = 1 ∨ b.length = 1)
      (.vectorProduct a.kind b.kind) (a.Overflows b) := by
  have hresult : (a.multiply (.expression b)).result = a.checkedOperand (.expression b) >>=
      fun c => (checkProduct a c).result >>= fun _ => a.mul c := by
    simp [multiply]
  rw [hresult]
  exact .of_rest fun cause => rule_bind_eq_error_iff (fun _ => checkProduct_eq_error_iff)
    fun hfits _ => mul_eq_error_iff hone ha hb hfits

theorem outcome_dot (hone : ((1 : α) == 0) = false) (ha : a.IsNormal) (hb : b.IsNormal) :
    Outcome (a.dot (.expression b)).result a b (a.length = b.length) (.dimension .dot a b)
      (a.Overflows b) := by
  simp only [dot, Logged.result_bind, Logged.result_lift]
  refine .of_rest fun cause => ?_
  by_cases hlength : a.length = b.length
  · have hterms : a.dotTerms b = .error cause ↔ a.Overflows b ∧ cause = .degreeOverflow :=
      dotTerms_eq_error_iff hone ha hb hlength
    simp only [hlength, ne_eq, not_true_eq_false, if_false, false_and, true_and, false_or]
    split
    · simp [not_overflows_const]
    · rw [← hterms]
      simp [map_eq_error_iff]
  · simp [hlength, eq_comm]

/-- **When arithmetic on doubles succeeds, and with which error it fails.** A sum and a difference
need a scalar or equal lengths, a product an operand of length one, an inner product equal lengths,
and the degrees of paired slots must not overflow. Behind the rules for the shapes there is no other
error than that of an overflow. -/
theorem arithmetic_outcome {a b : Expression Float} (ha : a.Constructed) (hb : b.Constructed) :
    Outcome (a.plus (.expression b)).result a b
      (a.isVector = false ∨ b.isVector = false ∨ a.length = b.length) (.dimension .plus a b)
      False ∧
    Outcome (a.minus (.expression b)).result a b
      (a.isVector = false ∨ b.isVector = false ∨ a.length = b.length) (.dimension .minus a b)
      False ∧
    Outcome (a.multiply (.expression b)).result a b (a.length = 1 ∨ b.length = 1)
      (.vectorProduct a.kind b.kind) (a.Overflows b) ∧
    Outcome (a.dot (.expression b)).result a b (a.length = b.length) (.dimension .dot a b)
      (a.Overflows b) ∧
    (Operation.plus.name = "Plus" ∧ Operation.minus.name = "Minus" ∧
      Operation.dot.name = "Dot") ∧
    (∀ op, (checkSum op a b).result = .ok () →
      (∃ e, a.add b = .ok e) ∧ ∃ e, a.add b.negate = .ok e) ∧
    ((checkProduct a b).result = .ok () →
      ∀ cause, a.mul b = .error cause → cause = .degreeOverflow) ∧
    (a.length = b.length → ∀ cause, a.dotTerms b = .error cause → cause = .degreeOverflow) ∧
    ∀ p q : Polynomial Float, (poly (.scalar p)).Constructed → (poly (.scalar q)).Constructed →
      (p.times? q = none ↔ maxDegree < p.degree + q.degree) := by
  have hone : ((1 : Float) == 0) = false := by decide
  have ha := ha.isNormal hone
  have hb := hb.isNormal hone
  refine ⟨outcome_plus a b, outcome_minus a b, outcome_multiply hone ha hb, outcome_dot hone ha hb,
    ⟨rfl, rfl, rfl⟩, fun op hop => ?_, fun hproduct cause h => ?_, fun hlength cause h => ?_,
    fun p q hp hq => ?_⟩
  · have hshape := checkSum_eq_ok_iff.mp hop
    exact ⟨exists_add hshape, exists_add_negate hshape⟩
  · have hshape := (rule_eq_ok_iff fun _ => checkProduct_eq_error_iff).mp hproduct
    exact ((mul_eq_error_iff hone ha hb hshape).mp h).2
  · exact ((dotTerms_eq_error_iff hone ha hb hlength).mp h).2
  · exact Polynomial.times?_eq_none_iff (isNormal_poly_scalar.mp (hp.isNormal hone))
      (isNormal_poly_scalar.mp (hq.isNormal hone))

/-- The scalar `x ^ 2147483648` and the column of `1` and `x ^ 2147483648 + 1`. -/
theorem arithmetic_outcome_column :
    let x : Variable := ⟨⟨1⟩, .unit, .binary⟩
    let m : Monomial Float := ⟨1, [⟨x, 2 ^ 31⟩]⟩
    let p : Polynomial Float := .ofTerms [m, .const 1]
    let a : Expression Float := mono (.scalar m)
    let b : Expression Float := poly (.vector [.ofTerms [.const 1], p])
    a.Constructed ∧ b.Constructed ∧ (∃ e, (a.plus (.expression b)).result = .ok e) ∧
      (∃ e, (a.minus (.expression b)).result = .ok e) ∧
      (a.multiply (.expression b)).result = .error .degreeOverflow ∧
      (a.dot (.expression b)).result = .error (.dimension .dot a b) ∧ p.times? p = none := by
  intro x m p a b
  have ha : a.Constructed :=
    .monomial (show Monomial.ofFactors? 1 [⟨x, 2 ^ 31⟩] = some m from rfl)
  have hp : (poly (.scalar p)).Constructed := .polynomial (by
    intro t ht
    rcases List.mem_pair.mp ht with rfl | rfl
    · exact ha
    · exact .constMonomial 1)
  have hb : b.Constructed := .polynomials (by
    intro q hq
    rcases List.mem_pair.mp hq with rfl | rfl
    · exact .polynomial fun t ht => List.mem_singleton.mp ht ▸ .constMonomial 1
    · exact hp)
  have hacheck : a.check = .ok () := eq_ok_of_isOk (by decide +kernel)
  have hbcheck : b.check = .ok () := eq_ok_of_isOk (by decide +kernel)
  have hoverflows : a.Overflows b :=
    overflows_iff.mpr ⟨1, 2 ^ 31, 2 ^ 31, by decide +kernel, by decide +kernel, by decide⟩
  obtain ⟨hplus, hminus, hmultiply, hdot, -, -, -, -, htimes⟩ := arithmetic_outcome ha hb
  exact ⟨ha, hb, hplus.succeeds.mpr ⟨hacheck, hbcheck, .inl rfl, not_false⟩,
    hminus.succeeds.mpr ⟨hacheck, hbcheck, .inl rfl, not_false⟩,
    (hmultiply.fails _).mpr (.degree hacheck hbcheck (.inl rfl) hoverflows),
    (hdot.fails _).mpr (.shape hacheck hbcheck (by decide)),
    (htimes p p hp hp).mpr (by decide +kernel)⟩

end AlgebraicModel.Expression
