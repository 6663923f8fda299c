import Mathlib
import AlgebraicModel.Constraint
import AlgebraicModel.Proofs.Expression.Arithmetic
import AlgebraicModel.Proofs.Expression.Evaluation
import AlgebraicModel.Proofs.Scalar.Double

/-!
# What a comparison records

A comparison puts the operand of the higher family on the left, and reverses the relation if that
swaps the sides. Two valid operands of equal length have a constraint, whatever their families and
shapes, and it holds in a slot where the comparison that was asked for does. Equality has to be
symmetric for that, which it is for doubles.

## Main definitions

* `Relation.Holds`: the comparison of two numbers
* `Constraint.Records c a r b`: what a constraint says of the operands that were compared

## Main results

* `Constraint.Records.reverse`: the operands can be swapped if the relation is reversed
* `Expression.comparison_faithful`: which operands can be compared, and what is recorded
-/

namespace AlgebraicModel

variable {α : Type} [Scalar α]

/-! ## Relations -/

namespace Relation

/-- `x` stands in the relation to `y`. -/
def Holds (r : Relation) (x y : α) : Prop :=
  match r with
  | le => x ≤ y
  | ge => y ≤ x
  | eq => x == y

@[simp] theorem reverse_reverse (r : Relation) : r.reverse.reverse = r := by
  cases r <;> rfl

/-- Swapped numbers stand in the reversed relation. -/
theorem holds_reverse (hcomm : ∀ x y : α, (x == y) = (y == x)) (r : Relation) (x y : α) :
    r.reverse.Holds y x ↔ r.Holds x y := by
  cases r with
  | le => exact Iff.rfl
  | ge => exact Iff.rfl
  | eq => exact iff_of_eq (congrArg (· = true) (hcomm y x))

end Relation

/-! ## Recorded constraints -/

namespace Constraint

open Expression (Error)

variable {a b : Expression α} {r : Relation} {c : Constraint α}

/-- The constraint says that `a` stands in the relation `r` to `b`. Its sides are `a` and `b`, the
higher family on the left; it is valid, and the one that is made of its own sides; and in each slot
its left side stands in its relation to its right side where `a` stands in `r` to `b`. -/
structure Records (c : Constraint α) (a : Expression α) (r : Relation) (b : Expression α) :
    Prop where
  sides : (c.lhs = a ∧ c.relation = r ∧ c.rhs = b) ∨
    (c.lhs = b ∧ c.relation = r.reverse ∧ c.rhs = a)
  family : c.rhs.family.rank ≤ c.lhs.family.rank
  check : c.check = .ok ()
  made : (if c.lhs.isScalar ∧ c.rhs.isScalar then scalar? c.lhs c.relation c.rhs
    else vector? c.lhs c.relation c.rhs) = .ok c
  slots : ∀ σ : Assignment α, σ.Covers (a.vars ++ b.vars) → ∃ xs ys ls rs,
    a.evaluate σ = .ok xs ∧ b.evaluate σ = .ok ys ∧
      c.lhs.evaluate σ = .ok ls ∧ c.rhs.evaluate σ = .ok rs ∧
      ∀ i < c.length, ∃ x y u v, xs[i]? = some x ∧ ys[i]? = some y ∧
        ls[i]? = some u ∧ rs[i]? = some v ∧ (c.relation.Holds u v ↔ r.Holds x y)

/-- The operands can be swapped if the relation is reversed. -/
theorem Records.reverse (hcomm : ∀ x y : α, (x == y) = (y == x)) (h : c.Records a r b) :
    c.Records b r.reverse a where
  sides := by simpa only [Relation.reverse_reverse] using h.sides.symm
  family := h.family
  check := h.check
  made := h.made
  slots σ hσ := by
    obtain ⟨xs, ys, ls, rs, hxs, hys, hls, hrs, hslots⟩ :=
      h.slots σ (Assignment.covers_append_iff.mpr (Assignment.covers_append_iff.mp hσ).symm)
    refine ⟨ys, xs, ls, rs, hys, hxs, hls, hrs, fun i hi => ?_⟩
    obtain ⟨x, y, u, v, hx, hy, hu, hv, hholds⟩ := hslots i hi
    exact ⟨y, x, u, v, hy, hx, hu, hv, hholds.trans (r.holds_reverse hcomm x y).symm⟩

omit [Scalar α] in
theorem check_ofSides (ha : a.check = .ok ()) (hb : b.check = .ok ())
    (hlength : a.length = b.length) : (ofSides a r b).check = .ok () := by
  simp [check, ofSides, ha, hb, hlength]

omit [Scalar α] in
/-- Leaving out the checks makes the constraint that the checks let pass. -/
theorem ofSides_eq (hlength : a.length = b.length) :
    (if a.isScalar ∧ b.isScalar then scalar? a r b else vector? a r b) = .ok (ofSides a r b) := by
  unfold Expression.isScalar
  cases ha : a.isVector <;> cases hb : b.isVector <;>
    simp [scalar?, vector?, ofSides, ha, hb, hlength]

/-- Sides in the order of their families are recorded as they are. -/
theorem records_ofSides (ha : a.check = .ok ()) (hb : b.check = .ok ())
    (hlength : a.length = b.length) (hfamily : b.family.rank ≤ a.family.rank) :
    (ofSides a r b).Records a r b where
  sides := .inl ⟨rfl, rfl, rfl⟩
  family := hfamily
  check := check_ofSides ha hb hlength
  made := ofSides_eq hlength
  slots σ hσ := by
    obtain ⟨hleft, hright⟩ := Assignment.covers_append_iff.mp hσ
    obtain ⟨xs, hxs, hxlength⟩ := Expression.exists_evaluate hleft
    obtain ⟨ys, hys, hylength⟩ := Expression.exists_evaluate hright
    refine ⟨xs, ys, xs, ys, hxs, hys, hxs, hys, fun i hi => ?_⟩
    have hi : i < a.length := hi
    have hx : xs[i]? = some (xs[i]) := List.getElem?_eq_getElem (by omega)
    have hy : ys[i]? = some (ys[i]) := List.getElem?_eq_getElem (by omega)
    exact ⟨xs[i], ys[i], xs[i], ys[i], hx, hy, hx, hy, Iff.rfl⟩

end Constraint

/-! ## Comparisons -/

namespace Expression

/-- Families of one rank are the same. -/
theorem Family.rank_injective : Function.Injective rank := by
  intro f g h
  cases f <;> cases g <;> first | rfl | cases h

variable {a b : Expression α} {r : Relation} {c : Constraint α}

omit [Scalar α] in
theorem checkComparison_eq_ok_iff :
    (checkComparison r a b).result = .ok () ↔ a.length = b.length := by
  unfold checkComparison
  by_cases h : a.length = b.length <;> simp [h, reject]

/-- The constraint that is recorded for two operands that fit. -/
def recorded (a : Expression α) (r : Relation) (b : Expression α) : Constraint α :=
  if a.family < b.family then .ofSides b r.reverse a else .ofSides a r b

theorem comparison_eq (a : Expression α) (r : Relation) (b : Operand α) :
    a.comparison r b = do
      let b ← a.checkedOperand b
      checkComparison r a b
      return a.recorded r b := by
  simp only [comparison, recorded, apply_ite]

/-- Operands can be compared if both are valid and their lengths agree. -/
theorem comparison_eq_ok_iff : (a.comparison r (.expression b)).result = .ok c ↔
    (a.check = .ok () ∧ b.check = .ok () ∧ a.length = b.length) ∧ a.recorded r b = c := by
  simp only [comparison_eq, Logged.result_bind, Logged.result_lift, Logged.result_pure,
    bind_eq_ok_iff, checkedOperand_eq_ok_iff, Except.ok.injEq]
  constructor
  · rintro ⟨b', ⟨ha, heq, hb⟩, ⟨⟩, hlength, hc⟩
    obtain rfl := Except.ok.inj heq
    exact ⟨⟨ha, hb, checkComparison_eq_ok_iff.mp hlength⟩, hc⟩
  · rintro ⟨⟨ha, hb, hlength⟩, hc⟩
    exact ⟨b, ⟨ha, rfl, hb⟩, (), checkComparison_eq_ok_iff.mpr hlength, hc⟩

/-- What is recorded says what was asked for. -/
theorem records_recorded (hcomm : ∀ x y : α, (x == y) = (y == x)) (ha : a.check = .ok ())
    (hb : b.check = .ok ()) (hlength : a.length = b.length) :
    (a.recorded r b).Records a r b := by
  unfold recorded
  split
  · next hfamily =>
    have hswapped : (Constraint.ofSides b r.reverse a).Records b r.reverse a :=
      Constraint.records_ofSides hb ha hlength.symm (Nat.le_of_lt hfamily)
    simpa only [Relation.reverse_reverse] using hswapped.reverse hcomm
  · next hfamily => exact Constraint.records_ofSides ha hb hlength (Nat.le_of_not_lt hfamily)

omit [Scalar α] in
/-- Between two families the order of the operands does not show. -/
theorem recorded_reverse (h : a.family ≠ b.family) : b.recorded r.reverse a = a.recorded r b := by
  have hrank : a.family.rank ≠ b.family.rank := fun heq => h (Family.rank_injective heq)
  have horder : b.family < a.family ↔ ¬ a.family < b.family := by
    change b.family.rank < a.family.rank ↔ ¬ a.family.rank < b.family.rank
    omega
  unfold recorded
  by_cases hlt : a.family < b.family <;> simp [horder, hlt]

/-- **A comparison records what was asked for.** Two operands can be compared if and only if both
are valid and their lengths agree. The constraint then has the operands as its sides, the higher
family on the left; it is valid and the one that its sides and its relation make; and it holds in
each slot where the comparison holds that was asked for, at every assignment that covers the
operands. Between two families, comparing the other way round records the same constraint. -/
theorem comparison_faithful (a b : Expression Float) (r : Relation) :
    ((∃ c, (a.comparison r (.expression b)).result = .ok c) ↔
      a.check = .ok () ∧ b.check = .ok () ∧ a.length = b.length) ∧
    ∀ c, (a.comparison r (.expression b)).result = .ok c →
      c.Records a r b ∧
        (a.family ≠ b.family → (b.comparison r.reverse (.expression a)).result = .ok c) := by
  refine ⟨⟨?_, ?_⟩, ?_⟩
  · rintro ⟨c, hc⟩
    exact (comparison_eq_ok_iff.mp hc).1
  · intro h
    exact ⟨_, comparison_eq_ok_iff.mpr ⟨h, rfl⟩⟩
  · intro c hc
    obtain ⟨⟨ha, hb, hlength⟩, rfl⟩ := comparison_eq_ok_iff.mp hc
    refine ⟨records_recorded Double.beq_comm ha hb hlength, fun hfamily => ?_⟩
    exact comparison_eq_ok_iff.mpr ⟨⟨hb, ha, hlength.symm⟩, recorded_reverse hfamily⟩

/-- The vector of the number one is at most the variable `x`: recorded as `x` at least one, which
holds where `x` is two. -/
theorem comparison_faithful_swapped :
    let x : Variable := ⟨⟨1⟩, {}, .integer⟩
    let a : Expression Float := const (.vector [1])
    let b : Expression Float := var (.scalar x)
    let σ : Assignment Float := fun _ => some 2
    ∃ c, (a.comparison .le (.expression b)).result = .ok c ∧
      (b.comparison .ge (.expression a)).result = .ok c ∧
      c.lhs = b ∧ c.relation = .ge ∧ c.rhs = a ∧
      ∃ ls rs u v, c.lhs.evaluate σ = .ok ls ∧ c.rhs.evaluate σ = .ok rs ∧
        ls[0]? = some u ∧ rs[0]? = some v ∧ c.relation.Holds u v := by
  intro x a b σ
  obtain ⟨hanswers, hfaithful⟩ := comparison_faithful a b .le
  have hb : b.check = .ok () := eq_ok_of_isOk (by decide +kernel)
  obtain ⟨c, hc⟩ := hanswers.mpr ⟨rfl, hb, rfl⟩
  obtain ⟨hrecords, hreverse⟩ := hfaithful c hc
  -- The number cannot stand on the left, its family is the lower one.
  obtain ⟨hl, -, hr⟩ | ⟨hl, hrelation, hr⟩ := hrecords.sides
  · have hfamily := hrecords.family
    rw [hl, hr] at hfamily
    cases hfamily
  · refine ⟨c, hc, hreverse (by decide), hl, hrelation, hr, ?_⟩
    have hlength : 0 < c.length := by
      rw [Constraint.length, hl]
      exact Nat.one_pos
    obtain ⟨xs, ys, ls, rs, hxs, hys, hls, hrs, hslots⟩ := hrecords.slots σ fun v _ => rfl
    obtain ⟨x', y', u, v, hx, hy, hu, hv, hholds⟩ := hslots 0 hlength
    obtain rfl : [1] = xs := Except.ok.inj hxs
    obtain rfl : [2] = ys := Except.ok.inj hys
    obtain rfl : 1 = x' := Option.some.inj hx
    obtain rfl : 2 = y' := Option.some.inj hy
    have hle : (1 : Float) ≤ 2 := by decide +kernel
    exact ⟨ls, rs, u, v, hls, hrs, hu, hv, hholds.mpr hle⟩

end Expression

end AlgebraicModel
