import Mathlib
import AlgebraicModel.Constraint
import AlgebraicModel.Proofs.Expression.Comparison
import AlgebraicModel.Proofs.Expression.FirstInvalid
import AlgebraicModel.Proofs.Expression.Outcome

/-!
# Rejected operands

Operands whose shapes do not fit are turned away with one of two errors, and the rules that turn them
away record it. Such an error has to come from a rule for the record to be right, so the other
places are looked through: the checks of the operands and the reading of one fail for reasons of
their own, and what is computed behind a rule finds shapes that can be paired, in every family. No
law of numbers and no normal form is needed for it.

An inner product compares the lengths itself and records nothing. It is the one operation that turns
operands away in silence.

## Main definitions

* `Expression.Error.isShape`: the errors about the shapes of two operands
* `FailsOnly`: a computation whose errors are of one kind
* `Expression.RecordsRejections`: a shape error is recorded once, and nothing else is

## Main results

* `Expression.failsOnly_mul`, `failsOnly_dotTerms`: products of operands that fit
* `Expression.RecordsRejections.of_rule`: a rule between two steps without shape errors
* `Expression.rejections_recorded`: what the operations record
-/

namespace AlgebraicModel

/-! ## Errors of one kind -/

section FailsOnly

variable {ε β γ : Type} {p : ε → Prop}

/-- Every error of the computation is of that kind. -/
def FailsOnly (p : ε → Prop) (x : Except ε β) : Prop :=
  ∀ e, x = .error e → p e

theorem failsOnly_ok (b : β) : FailsOnly p (.ok b : Except ε β) := by
  rintro e ⟨⟩

theorem FailsOnly.mono {q : ε → Prop} {x : Except ε β} (h : FailsOnly p x) (hpq : ∀ e, p e → q e) :
    FailsOnly q x :=
  fun e he => hpq e (h e he)

theorem FailsOnly.bind {x : Except ε β} {f : β → Except ε γ} (hx : FailsOnly p x)
    (hf : ∀ b, x = .ok b → FailsOnly p (f b)) : FailsOnly p (x >>= f) := by
  intro e he
  rcases bind_eq_error_iff.mp he with he | ⟨b, hb, he⟩
  · exact hx e he
  · exact hf b hb e he

theorem FailsOnly.map {x : Except ε β} (hx : FailsOnly p x) (f : β → γ) :
    FailsOnly p (f <$> x) :=
  fun e he => hx e (map_eq_error_iff.mp he)

theorem FailsOnly.mapM {f : β → Except ε γ} {xs : List β} (hf : ∀ x ∈ xs, FailsOnly p (f x)) :
    FailsOnly p (xs.mapM f) := by
  induction xs with
  | nil => exact failsOnly_ok []
  | cons x xs ih =>
    obtain ⟨hx, hxs⟩ := List.forall_mem_cons.mp hf
    rw [List.mapM_cons]
    apply hx.bind
    intro y _
    exact (ih hxs).bind fun ys _ => failsOnly_ok (y :: ys)

end FailsOnly

namespace Expression

/-- The error is about the shapes of two operands. -/
def Error.isShape {α : Type} : Error α → Bool
  | dimension .. | vectorProduct .. => true
  | _ => false

/-- How an operation records the operands that it turns away: a shape error is recorded once, with
the name of the operation and the kinds and lengths of its operands in order; nothing is recorded
when there is no error, or another one. -/
structure RecordsRejections {α β : Type} [Scalar α] (op : Operation) (a : Expression α)
    (b : Operand α) (x : Checked α β) : Prop where
  once : ∀ cause, x.result = .error cause → cause.isShape = true →
    ∃ c message, b.toExpression = .ok c ∧ x.events.map Rejection.toRecord =
      [(.ofOperation "expr" op.name "rejected" message
        [("left", .text a.kind.name), ("right", .text c.kind.name),
          ("left_len", .count a.length), ("right_len", .count c.length)] : Log.Record α)]
  never : (∀ cause, x.result = .error cause → cause.isShape = false) → x.events = []

variable {α : Type} [Scalar α] {a b : Expression α}

/-! ## Errors of the operands -/

omit [Scalar α] in
/-- An invalid variable is no matter of shape, wherever it stands. -/
theorem isShape_locate (o : Occurrence) (fault : Variable.Fault) :
    (o.locate (.invalidVariable fault) : Error α).isShape = false := by
  obtain ⟨slot?, term?, record⟩ := o
  cases slot? <;> cases term? <;> rfl

omit [Scalar α] in
theorem failsOnly_check (e : Expression α) :
    FailsOnly (fun cause => cause.isShape = false) e.check := by
  intro cause hcause
  obtain ⟨-, o, -, fault, -, -, -, rfl⟩ := check_eq_error_iff.mp hcause
  exact isShape_locate o fault

theorem failsOnly_toExpression (b : Operand α) :
    FailsOnly (fun cause => cause.isShape = false) b.toExpression := by
  intro cause hcause
  cases b with
  | matrix m =>
    rw [Operand.toExpression] at hcause
    split at hcause
    · cases hcause
    · obtain rfl := Except.error.inj hcause
      rfl
  | expression | integer | number | numbers => cases hcause

/-- Neither the checks nor the reading of an operand fail for a shape. -/
theorem failsOnly_checkedOperand (a : Expression α) (b : Operand α) :
    FailsOnly (fun cause => cause.isShape = false) (a.checkedOperand b) := by
  apply (failsOnly_check a).bind
  intro _ _
  apply (failsOnly_toExpression b).bind
  intro c _
  exact (failsOnly_check c).bind fun _ _ => failsOnly_ok c

/-! ## Errors of products -/

section Products

variable (hshape : a.length = 1 ∨ b.length = 1)
include hshape

omit [Scalar α] in
/-- Lists that can be paired are, and the products may still be too large. -/
theorem failsOnly_zipProducts {β : Type} {times? : β → β → Option β} {xs ys : List β}
    {mismatch : Error α} {result : List β → Expression α} (hxs : xs.length = a.length)
    (hys : ys.length = b.length) :
    FailsOnly (· = .degreeOverflow) (do
      let results ← products (← zipSlots times? xs ys mismatch)
      return result results) := by
  rw [← hxs, ← hys] at hshape
  obtain ⟨pairs, hpairs⟩ := exists_zipSlots (f := times?) (.inr hshape) mismatch
  rw [hpairs, ok_bind]
  apply FailsOnly.map
  intro cause hcause
  exact (products_eq_error_iff.mp hcause).2

theorem failsOnly_mulToHigher : FailsOnly (· = .degreeOverflow) (mulToHigher a b) := by
  unfold mulToHigher
  split
  · next xs ys =>
    obtain ⟨results, hresults⟩ := exists_zipSlots (f := (· * ·)) (.inr hshape) _
    rw [if_pos (by simpa using hshape), hresults, ok_bind]
    exact failsOnly_ok _
  · split
    · next ms ns hms hns =>
      exact failsOnly_zipProducts hshape (length_monomials? hms) (length_monomials? hns)
    · exact failsOnly_zipProducts hshape a.length_polynomials b.length_polynomials

/-- **A product with an operand of length one fails only for a degree.** -/
theorem failsOnly_mul : FailsOnly (· = .degreeOverflow) (a.mul b) := by
  unfold mul
  split
  · exact failsOnly_mulToHigher hshape.symm
  · exact failsOnly_mulToHigher hshape

end Products

/-- **The terms of an inner product of equal lengths fail only for a degree.** -/
theorem failsOnly_dotTerms (hlength : a.length = b.length) :
    FailsOnly (· = .degreeOverflow) (a.dotTerms b) := by
  rw [dotTerms_eq_map]
  apply FailsOnly.map
  apply FailsOnly.mapM
  intro i hi
  have hi : i < a.length := List.mem_range.mp hi
  obtain ⟨x, hx⟩ := exists_slot_iff.mpr hi
  obtain ⟨y, hy⟩ := exists_slot_iff.mpr (hlength ▸ hi)
  rw [slotTerms, hx, hy]
  show FailsOnly _ ((fun e => e.polynomials.flatMap (·.terms)) <$> x.mul y)
  exact (failsOnly_mul (.inl (length_of_scalar (isVector_slot hx)))).map _

/-! ## Rules -/

section Rule

variable {β : Type} {op : Operation} {b : Operand α} {rule : Expression α → Checked α Unit}
  {rest : Expression α → Checked α β}

/-- **A rule between two steps without shape errors.** The operands are checked, a rule lets them
pass or rejects them, and what is done with them records nothing. -/
theorem RecordsRejections.of_rule
    (hrule : ∀ c, rule c = pure () ∨ ∃ e : Error α, e.isShape = true ∧ rule c = reject op a c e)
    (hrest : ∀ c, rule c = pure () →
      (rest c).events = [] ∧ FailsOnly (fun cause => cause.isShape = false) (rest c).result) :
    RecordsRejections op a b (do
      let c ← a.checkedOperand b
      rule c
      rest c) := by
  cases hc : a.checkedOperand b with
  | error cause =>
    have hcause := failsOnly_checkedOperand a b cause hc
    refine ⟨?_, fun _ => rfl⟩
    rintro _ ⟨⟩ hshape
    rw [hcause] at hshape
    cases hshape
  | ok c =>
    obtain ⟨-, hread, -⟩ := checkedOperand_eq_ok_iff.mp hc
    show RecordsRejections op a b (rule c >>= fun _ => rest c)
    rcases hrule c with hpass | ⟨e, he, hreject⟩
    · obtain ⟨hevents, hfails⟩ := hrest c hpass
      rw [hpass, pure_bind]
      refine ⟨fun cause hcause hshape => ?_, fun _ => hevents⟩
      rw [hfails cause hcause] at hshape
      cases hshape
    · rw [hreject]
      refine ⟨fun cause _ _ => ⟨c, _, hread, rfl⟩, fun hnever => ?_⟩
      rw [hnever e rfl] at he
      cases he

end Rule

omit [Scalar α] in
theorem checkSum_cases (op : Operation) (a c : Expression α) : checkSum op a c = pure () ∨
    ∃ e : Error α, e.isShape = true ∧ checkSum op a c = reject op a c e := by
  unfold checkSum
  split
  · exact .inl rfl
  · exact .inr ⟨_, rfl, rfl⟩

omit [Scalar α] in
theorem checkProduct_cases (a c : Expression α) : checkProduct a c = pure () ∨
    ∃ e : Error α, e.isShape = true ∧ checkProduct a c = reject .multiply a c e := by
  unfold checkProduct
  split
  · exact .inl rfl
  · exact .inr ⟨_, rfl, rfl⟩

omit [Scalar α] in
theorem checkComparison_cases (r : Relation) (a c : Expression α) :
    checkComparison r a c = pure () ∨
      ∃ e : Error α, e.isShape = true ∧ checkComparison r a c = reject (.compare r) a c e := by
  unfold checkComparison
  split
  · exact .inl rfl
  · exact .inr ⟨_, rfl, rfl⟩

/-! ## Operations -/

/-- Behind the rule for sums there is nothing left to fail. -/
theorem recordsRejections_sum (op : Operation) (a : Expression α) (b : Operand α)
    {summand : Expression α → Expression α}
    (hsum : ∀ c, a.isVector = false ∨ c.isVector = false ∨ a.length = c.length →
      ∃ e, a.add (summand c) = .ok e) :
    RecordsRejections op a b (do
      let c ← a.checkedOperand b
      checkSum op a c
      a.add (summand c)) := by
  refine .of_rule (checkSum_cases op a) fun c hpass => ⟨rfl, ?_⟩
  obtain ⟨e, he⟩ := hsum c (checkSum_eq_ok_iff.mp (congrArg Logged.result hpass))
  rw [Logged.result_lift, he]
  exact failsOnly_ok e

theorem recordsRejections_multiply (a : Expression α) (b : Operand α) :
    RecordsRejections .multiply a b (a.multiply b) := by
  refine .of_rule (checkProduct_cases a) fun c hpass => ⟨rfl, ?_⟩
  have hfits : a.length = 1 ∨ c.length = 1 :=
    (rule_eq_ok_iff fun _ => checkProduct_eq_error_iff).mp (congrArg Logged.result hpass)
  exact (failsOnly_mul hfits).mono fun _ hcause => hcause ▸ rfl

theorem recordsRejections_comparison (r : Relation) (a : Expression α) (b : Operand α) :
    RecordsRejections (.compare r) a b (a.comparison r b) := by
  rw [comparison_eq]
  exact .of_rule (checkComparison_cases r a) fun c _ => ⟨rfl, failsOnly_ok _⟩

/-! ## Inner products -/

/-- Operands that pass their checks are turned away for their lengths, or else multiplied without a
record. -/
theorem dot_cases {b : Operand α} {c : Expression α} (hc : a.checkedOperand b = .ok c) :
    a.length ≠ c.length ∧ a.dot b = Logged.fail (.dimension .dot a c) ∨
      a.length = c.length ∧ ∃ x : Except (Error α) (Expression α),
        FailsOnly (· = .degreeOverflow) x ∧ a.dot b = liftM x := by
  have hpure : (liftM (.ok c : Except (Error α) (Expression α)) : Checked α (Expression α)) =
      pure c := rfl
  rw [dot, hc, hpure, pure_bind]
  by_cases hlength : a.length = c.length
  · refine .inr ⟨hlength, ?_⟩
    rw [if_neg (not_not.mpr hlength)]
    split
    · exact ⟨.ok _, failsOnly_ok _, rfl⟩
    · refine ⟨(fun ts => poly (.scalar (.ofTerms ts))) <$> a.dotTerms c,
        (failsOnly_dotTerms hlength).map _, ?_⟩
      cases a.dotTerms c with
      | error cause => rfl
      | ok ts => rfl
  · rw [if_pos hlength]
    exact .inl ⟨hlength, rfl⟩

/-- **An inner product records nothing**, whatever becomes of it. -/
theorem events_dot (a : Expression α) (b : Operand α) : (a.dot b).events = [] := by
  cases hc : a.checkedOperand b with
  | error cause =>
    rw [dot, hc]
    rfl
  | ok c =>
    obtain ⟨-, hdot⟩ | ⟨-, x, -, hdot⟩ := dot_cases hc
    · rw [hdot, Logged.events_fail]
    · rw [hdot, Logged.events_lift]

/-- The operands of an inner product are turned away for their lengths. -/
theorem isShape_dot_iff (a : Expression α) (b : Operand α) :
    (∃ cause, (a.dot b).result = .error cause ∧ cause.isShape = true) ↔
      ∃ c, a.checkedOperand b = .ok c ∧ a.length ≠ c.length := by
  constructor
  · rintro ⟨cause, hcause, hshape⟩
    cases hc : a.checkedOperand b with
    | error cause' =>
      rw [dot, Logged.result_bind, Logged.result_lift, hc] at hcause
      obtain rfl := Except.error.inj hcause
      rw [failsOnly_checkedOperand a b _ hc] at hshape
      cases hshape
    | ok c =>
      refine ⟨c, rfl, fun hlength => ?_⟩
      obtain ⟨hne, -⟩ | ⟨-, x, hx, hdot⟩ := dot_cases hc
      · exact hne hlength
      · rw [hdot, Logged.result_lift] at hcause
        obtain rfl := hx cause hcause
        cases hshape
  · rintro ⟨c, hc, hlength⟩
    obtain ⟨-, hdot⟩ | ⟨heq, -⟩ := dot_cases hc
    · exact ⟨.dimension .dot a c, by rw [hdot, Logged.result_fail], rfl⟩
    · exact absurd heq hlength

/-- **What the operations record.** A sum, a difference, a product and a comparison record the
operands whose shapes they reject, once, and record nothing else. An inner product rejects operands
that pass their checks and differ in length, and it is the only operation of which no record is
left. -/
theorem rejections_recorded (a : Expression α) (b : Operand α) :
    RecordsRejections .plus a b (a.plus b) ∧ RecordsRejections .minus a b (a.minus b) ∧
    RecordsRejections .multiply a b (a.multiply b) ∧
    (∀ r, RecordsRejections (.compare r) a b (a.comparison r b)) ∧
    (a.dot b).events = [] ∧
    ((∃ cause, (a.dot b).result = .error cause ∧ cause.isShape = true) ↔
      ∃ c, a.checkedOperand b = .ok c ∧ a.length ≠ c.length) := by
  refine ⟨?_, ?_, recordsRejections_multiply a b, fun r => recordsRejections_comparison r a b,
    events_dot a b, isShape_dot_iff a b⟩
  · exact recordsRejections_sum .plus a b fun _ => exists_add
  · exact recordsRejections_sum .minus a b fun _ => exists_add_negate

/-- Two numbers and three: their sum is rejected and recorded, their inner product is rejected. -/
theorem rejections_recorded_columns :
    let a : Expression Float := const (.vector [1, 2])
    let b : Operand Float := .numbers [1, 2, 3]
    (∃ message, (a.plus b).events.map Rejection.toRecord =
      [(.ofOperation "expr" "Plus" "rejected" message
        [("left", .text "KVector"), ("right", .text "KVector"), ("left_len", .count 2),
          ("right_len", .count 3)] : Log.Record Float)]) ∧
      (∃ cause, (a.dot b).result = .error cause ∧ cause.isShape = true) ∧
      (a.dot b).events = [] := by
  intro a b
  obtain ⟨hplus, -, -, -, hevents, hdot⟩ := rejections_recorded a b
  have hread : b.toExpression = .ok (const (.vector [1, 2, 3])) := rfl
  refine ⟨?_, hdot.mpr ⟨const (.vector [1, 2, 3]), rfl, ?_⟩, hevents⟩
  · obtain ⟨c, message, hc, hrecord⟩ :=
      hplus.once (.dimension .plus a (const (.vector [1, 2, 3]))) rfl rfl
    obtain rfl := Except.ok.inj (hread.symm.trans hc)
    exact ⟨message, hrecord⟩
  · show 2 ≠ 3
    omega

end Expression

end AlgebraicModel
