import Mathlib
import AlgebraicModel.Proofs.Expression.Closure
import AlgebraicModel.Proofs.Expression.Comparison
import AlgebraicModel.Proofs.Model.Operations
import AlgebraicModel.Scalar.Double

/-!
# Constraints that are admitted

A model turns a constraint away if a side is invalid, if the sides differ in length, if a variable
is not registered, or if it has no identity left to give. What was built from valid expressions has
no invalid side, however many operations it went through: of a comparison only the lengths are left
to check, and of the constraint only its variables.

## Main definitions

* `Constraint.Relates c a r b`: `c` was made from `a` and `b`, by a comparison or by a constructor

## Main results

* `Expression.comparison_eq_error_iff`: the only error of a comparison of valid operands
* `Constraint.Relates.check`, `Relates.bases`: the constraints between valid operands
* `Build.addConstraint_eq_ok_iff`: what a model asks of a constraint
* `Build.built_constraints_admitted`: validity is closed under the algebra
-/

namespace AlgebraicModel

variable {α μ : Type}

/-! ## Comparisons of valid operands -/

section Comparison

variable [Scalar α] {a b : Expression α} {r : Relation} {c : Constraint α}

omit [Scalar α] in
theorem Expression.checkComparison_eq_error_iff {cause : Error α} :
    (checkComparison r a b).result = .error cause ↔
      a.length ≠ b.length ∧ cause = .dimension (.compare r) a b := by
  unfold checkComparison
  by_cases hlength : a.length = b.length
  · rw [if_pos (by simpa using hlength)]
    simp [hlength]
  · rw [if_neg (by simpa using hlength)]
    exact ⟨fun h => ⟨hlength, (Except.error.inj h).symm⟩, fun h => congrArg _ h.2.symm⟩

/-- Valid operands can only differ in length. -/
theorem Expression.comparison_eq_error_iff (ha : a.check = .ok ()) (hb : b.check = .ok ())
    {cause : Error α} : (a.comparison r (.expression b)).result = .error cause ↔
      a.length ≠ b.length ∧ cause = .dimension (.compare r) a b := by
  have hresult : (a.comparison r (.expression b)).result =
      (fun _ => a.recorded r b) <$> (checkComparison r a b).result := by
    rw [comparison_eq, checkedOperand_expression_iff.mpr ⟨ha, hb, rfl⟩]
    simp
  rw [hresult, map_eq_error_iff, checkComparison_eq_error_iff]

namespace Constraint

/-- The constraint was made from `a` and `b`: by a comparison, which may swap the sides, or by a
constructor, which does not. -/
inductive Relates (a : Expression α) (r : Relation) (b : Expression α) : Constraint α → Prop
  | compared {c : Constraint α} (h : (a.comparison r (.expression b)).result = .ok c) :
      Relates a r b c
  | scalar {c : Constraint α} (h : scalar? a r b = .ok c) : Relates a r b c
  | vector {c : Constraint α} (h : vector? a r b = .ok c) : Relates a r b c

/-- The sides are what was compared, in one order or the other, and their lengths agree. -/
theorem Relates.sides (h : Relates a r b c) :
    (c.lhs = a ∧ c.rhs = b ∨ c.lhs = b ∧ c.rhs = a) ∧ c.lhs.length = c.rhs.length := by
  cases h with
  | compared h =>
    obtain ⟨⟨-, -, hlength⟩, rfl⟩ := Expression.comparison_eq_ok_iff.mp h
    unfold Expression.recorded
    split
    · exact ⟨.inr ⟨rfl, rfl⟩, hlength.symm⟩
    · exact ⟨.inl ⟨rfl, rfl⟩, hlength⟩
  | scalar h =>
    unfold scalar? at h
    split at h
    · cases h
    · next ha =>
      split at h
      · cases h
      · next hb =>
        obtain rfl := Except.ok.inj h
        have hone : a.length = 1 := Expression.length_of_scalar (by simpa using ha)
        exact ⟨.inl ⟨rfl, rfl⟩, hone.trans (Expression.length_of_scalar (by simpa using hb)).symm⟩
  | vector h =>
    unfold vector? at h
    split at h
    · next hlength =>
      obtain rfl := Except.ok.inj h
      exact ⟨.inl ⟨rfl, rfl⟩, hlength⟩
    · cases h

theorem Relates.check (h : Relates a r b c) (ha : a.check = .ok ()) (hb : b.check = .ok ()) :
    c.check = .ok () := by
  obtain ⟨hsides, hlength⟩ := h.sides
  have hchecks : c.lhs.check = .ok () ∧ c.rhs.check = .ok () := by
    rcases hsides with ⟨hl, hr⟩ | ⟨hl, hr⟩
    · rw [hl, hr]
      exact ⟨ha, hb⟩
    · rw [hl, hr]
      exact ⟨hb, ha⟩
  simp [Constraint.check, hchecks, hlength]

/-- A variable of a constraint has its record in one of the operands. -/
theorem Relates.bases (h : Relates a r b c) {v : Variable} (hv : v ∈ c.vars) :
    v ∈ a.bases ∨ v ∈ b.bases := by
  have hv : v ∈ c.lhs.bases ++ c.rhs.bases := Variable.distinct_subset hv
  rcases h.sides.1 with ⟨hl, hr⟩ | ⟨hl, hr⟩
  · rw [hl, hr] at hv
    exact List.mem_append.mp hv
  · rw [hl, hr] at hv
    exact (List.mem_append.mp hv).symm

end Constraint

end Comparison

/-! ## Admission -/

namespace Build

/-- **What a model asks of a constraint**: that it is valid, that its variables are registered, and
that there is an identity left for it. -/
theorem addConstraint_eq_ok_iff {c : Constraint α} {w : Workspace α μ} {id : ConstraintId} :
    (addConstraint c).answer w = .ok id ↔ c.check = .ok () ∧
      (∀ v ∈ c.vars, w.model.isRegistered v.id) ∧ w.model.lastConstraint ≠ 0xffffffff ∧
      id = ⟨w.model.lastConstraint + 1⟩ := by
  constructor
  · intro h
    rcases addConstraint_spec (w := w) c with ⟨⟨cause, herror⟩, -⟩ | ⟨hcheck, hvars, hlast, hid, -⟩
    · rw [herror] at h
      cases h
    · exact ⟨hcheck, hvars, hlast, (Except.ok.inj (hid.symm.trans h)).symm⟩
  · rintro ⟨hcheck, hvars, hlast, rfl⟩
    obtain ⟨hafter, hanswer⟩ := requireVariables_spec (w := w) c.vars
    have hrequire := hanswer.mpr hvars
    rcases nextConstraintId_spec (w := w) with ⟨hnone, -⟩ | ⟨-, hnext, -⟩
    · exact absurd hnone hlast
    · simp [addConstraint, hcheck, hrequire, hafter, hnext]

open Expression (Built const var mono)

variable [Scalar α]

/-- **Validity is closed under the algebra.** The result of an operation on valid expressions is
valid; each record of a variable in it is a record of an operand, and so is each identity that it
lists. Any sequence of operations keeps that: two expressions that were built from valid ones can be
compared unless their lengths differ, and a model that has an identity left admits what was made
from them as soon as the variables of the constraint are registered, which they are if those of the
expressions that were given are. -/
theorem built_constraints_admitted {start : Expression α → Prop}
    (hstart : ∀ a, start a → a.check = .ok ()) :
    (∀ a b e, start a → start b → a.Yields b e → e.check = .ok () ∧
      e.bases ⊆ a.bases ++ b.bases ∧ e.vars.map (·.id) ⊆ (a.vars ++ b.vars).map (·.id)) ∧
    (∀ e, Built start e → e.check = .ok () ∧ ∀ v ∈ e.bases, ∃ a, start a ∧ v ∈ a.bases) ∧
    ∀ e f r, Built start e → Built start f →
      (∀ cause, (e.comparison r (.expression f)).result = .error cause ↔
        e.length ≠ f.length ∧ cause = .dimension (.compare r) e f) ∧
      ∀ c, Constraint.Relates e r f c → (∀ v ∈ c.vars, ∃ a, start a ∧ v ∈ a.bases) ∧
        ∀ w : Workspace α μ, (∀ v ∈ c.vars, w.model.isRegistered v.id) →
          w.model.lastConstraint ≠ 0xffffffff →
          (addConstraint c).answer w = .ok ⟨w.model.lastConstraint + 1⟩ := by
  refine ⟨?_, ?_, ?_⟩
  · intro a b e ha hb h
    exact ⟨h.check (hstart a ha) (hstart b hb), h.bases, h.ids_vars⟩
  · intro e he
    exact ⟨he.check hstart, he.bases⟩
  · intro e f r he hf
    refine ⟨fun cause => Expression.comparison_eq_error_iff (he.check hstart) (hf.check hstart), ?_⟩
    intro c hc
    refine ⟨?_, ?_⟩
    · intro v hv
      rcases hc.bases hv with hv | hv
      · exact he.bases v hv
      · exact hf.bases v hv
    · intro w hregistered hlast
      have hcheck : c.check = .ok () := hc.check (he.check hstart) (hf.check hstart)
      exact addConstraint_eq_ok_iff.mpr ⟨hcheck, hregistered, hlast, rfl⟩

/-- Two records of one variable with different bounds are multiplied, and the product is compared
with its opposite: admitted where the variable is registered, with whatever bounds. -/
theorem built_constraints_admitted_merged :
    let x : Variable := ⟨⟨1⟩, ⟨0, 4⟩, .integer⟩
    let y : Variable := ⟨⟨1⟩, ⟨1, 2⟩, .continuous⟩
    let a : Expression Float := var (.scalar x)
    let b : Expression Float := mono (.scalar ⟨2, [⟨y, 1⟩]⟩)
    let w : Workspace Float Unit := ⟨{ vars := [{ id := ⟨1⟩ }], lastConstraint := 7 }, {}⟩
    ∃ e c, (a.multiply (.expression b)).result = .ok e ∧ e.check = .ok () ∧ e.bases ⊆ [x, y] ∧
      (e.comparison .le (.expression e.negate)).result = .ok c ∧
      (addConstraint c).answer w = .ok ⟨8⟩ := by
  intro x y a b w
  have ha : a.check = .ok () := eq_ok_of_isOk (by decide +kernel)
  have hb : b.check = .ok () := eq_ok_of_isOk (by decide +kernel)
  have hstart : ∀ d, d = a ∨ d = b → d.check = .ok () := by
    rintro d (rfl | rfl)
    · exact ha
    · exact hb
  obtain ⟨hone, -, hcompare⟩ := built_constraints_admitted (μ := Unit) hstart
  have hsome : (a.multiply (.expression b)).result.toOption.isSome := by decide +kernel
  obtain ⟨e, he⟩ := Option.isSome_iff_exists.mp hsome
  have hproduct := eq_ok_of_toOption he
  obtain ⟨hcheck, hbases, -⟩ := hone a b e (.inl rfl) (.inr rfl) (.multiply hproduct)
  have hbuilt : Built (fun d => d = a ∨ d = b) e :=
    .result (.given (.inl rfl)) (.given (.inr rfl)) (.multiply hproduct)
  have hopposite : Built (fun d => d = a ∨ d = b) e.negate := .result hbuilt hbuilt .negate
  have hnegate : e.negate.check = .ok () := hopposite.check hstart
  obtain ⟨c, hc⟩ : ∃ c, (e.comparison .le (.expression e.negate)).result = .ok c :=
    ⟨_, Expression.comparison_eq_ok_iff.mpr
      ⟨⟨hcheck, hnegate, (Expression.length_negate e).symm⟩, rfl⟩⟩
  obtain ⟨-, hadmitted⟩ := hcompare e e.negate .le hbuilt hopposite
  obtain ⟨hrecords, hanswer⟩ := hadmitted c (.compared hc)
  refine ⟨e, c, hproduct, hcheck, hbases, hc, hanswer w ?_ (by decide)⟩
  intro v hv
  obtain ⟨d, rfl | rfl, hvd⟩ := hrecords v hv
  · obtain rfl := List.mem_singleton.mp hvd
    rfl
  · obtain rfl := List.mem_singleton.mp hvd
    rfl

end Build

end AlgebraicModel
