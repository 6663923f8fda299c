import Mathlib
import AlgebraicModel.Proofs.Expression.Nonlinear
import AlgebraicModel.Proofs.Model.Lowering
import AlgebraicModel.Proofs.Model.Provenance
import AlgebraicModel.Proofs.Variable.Distinct
import AlgebraicModel.Scalar.Double

/-!
# When lowering fails

What operations check when they add to a model is all that lowering needs later, except that the
sides of constraints may be nonlinear. So a model with variables cannot be lowered exactly if a
constraint is nonlinear, and the error names the degree of the first term that is to blame: in the
constraint with the least identity, on its left side before its right side.

## Main definitions

* `Constraint.terms`, `Constraint.IsNonlinear`: the terms of both sides, and a degree above one
* `Model.Regular`: the invariant, with expressions in normal form

## Main results

* `Constraint.failure?_rows`: the error of a constraint
* `Model.Regular.failure?_linearize`: the error of a model
* `Workspace.linearize_fails_iff_nonlinear`: what reachable models hold, and when lowering fails
-/

namespace AlgebraicModel

variable {α μ : Type} [Scalar α]

/-! ## The error of a constraint -/

namespace Constraint

variable {c : Constraint α}

/-- A side has a degree above one. -/
def IsNonlinear (c : Constraint α) : Prop :=
  1 < c.lhs.degree ∨ 1 < c.rhs.degree

instance (c : Constraint α) : Decidable c.IsNonlinear :=
  inferInstanceAs (Decidable (1 < c.lhs.degree ∨ 1 < c.rhs.degree))

/-- The terms of the left side, slot by slot, and then those of the right side. -/
def terms (c : Constraint α) : List (Monomial α) :=
  c.lhs.terms ++ c.rhs.terms

theorem isNonlinear_iff (hlhs : c.lhs.IsNormal) (hrhs : c.rhs.IsNormal) :
    c.IsNonlinear ↔ ∃ t ∈ c.terms, 1 < t.degree := by
  rw [IsNonlinear, Expression.one_lt_degree_iff hlhs, Expression.one_lt_degree_iff hrhs]
  constructor
  · rintro (⟨t, ht, hdegree⟩ | ⟨t, ht, hdegree⟩)
    · exact ⟨t, List.mem_append_left _ ht, hdegree⟩
    · exact ⟨t, List.mem_append_right _ ht, hdegree⟩
  · rintro ⟨t, ht, hdegree⟩
    rcases List.mem_append.mp ht with ht | ht
    · exact .inl ⟨t, ht, hdegree⟩
    · exact .inr ⟨t, ht, hdegree⟩

theorem isSome_firstNonlinear?_iff (hlhs : c.lhs.IsNormal) (hrhs : c.rhs.IsNormal) :
    (firstNonlinear? c.terms).isSome ↔ c.IsNonlinear := by
  rw [isNonlinear_iff hlhs hrhs, firstNonlinear?_eq_map, Option.isSome_map, List.find?_isSome]
  simp

/-- A constraint whose variables have columns fails with its first term of a degree above one. -/
theorem failure?_rows (hone : ((1 : α) == 0) = false) (hlhs : c.lhs.IsNormal)
    (hrhs : c.rhs.IsNormal) {order : ColumnOrder} (hvars : ∀ v ∈ c.vars, v.id ∈ order.ids)
    (owner : ConstraintId) : failure? (c.rows owner order) = firstNonlinear? c.terms := by
  have hbases := (Variable.forall_distinct_iff (p := fun id => id ∈ order.ids)).mp hvars
  obtain ⟨hleft, hright⟩ := List.forall_mem_append.mp hbases
  have hsecond : ∀ left, c.lhs.coefficients order = .ok left → failure? (do
      let right ← c.rhs.coefficients order
      return (left.sub right, c.rhs.constant.zipWith (· - ·) c.lhs.constant)) =
        firstNonlinear? c.rhs.terms := by
    intro left _
    rw [failure?_bind_of_ok fun _ _ => rfl]
    exact Expression.failure?_coefficients hone hrhs hright
  -- The coefficients of the left side are read off before those of the right side.
  rw [Constraint.rows, failure?_bind_of_ok fun _ _ => rfl, linearParts, failure?_bind hsecond, terms,
    firstNonlinear?_append, Expression.failure?_coefficients hone hlhs hleft]

end Constraint

/-! ## The error of a model -/

namespace Model

variable {m : Model α μ}

/-- A sound model whose expressions are in normal form. -/
structure Regular (m : Model α μ) : Prop extends Sound m where
  normal : ∀ e, m.Holds e → e.IsNormal

omit [Scalar α] in
/-- Variables that are registered have a column. -/
theorem mem_ids_order {vs : List Variable} (h : ∀ v ∈ vs, m.isRegistered v.id) :
    ∀ v ∈ vs, v.id ∈ m.order.ids :=
  fun v hv => List.mem_map.mpr (isRegistered_iff.mp (h v hv))

theorem Regular.normal_lhs (hm : m.Regular) {p : ConstraintId × Constraint α}
    (hp : p ∈ m.constraints) : p.2.lhs.IsNormal :=
  hm.normal _ (.inl ⟨p, hp, .inl rfl⟩)

theorem Regular.normal_rhs (hm : m.Regular) {p : ConstraintId × Constraint α}
    (hp : p ∈ m.constraints) : p.2.rhs.IsNormal :=
  hm.normal _ (.inl ⟨p, hp, .inr rfl⟩)

/-- An objective always has coefficients. -/
theorem Regular.linearObjective_eq_error_iff (hone : ((1 : α) == 0) = false) (hm : m.Regular)
    {cause : Error α} :
    m.linearObjective = .error cause ↔ m.objective? = none ∧ cause = .noObjective := by
  rcases ho : m.objective? with _ | o
  · simp [linearObjective, ho, eq_comm]
  · have hadmits := hm.objective o ho
    have he := hm.normal o.expression (.inr ⟨o, ho, rfl⟩)
    have hbases := (Variable.forall_distinct_iff (p := fun id => id ∈ m.order.ids)).mp
      (mem_ids_order hadmits.registered)
    have hlinear : firstNonlinear? o.expression.terms = none := by
      rw [firstNonlinear?_eq_none_iff]
      intro t ht
      by_contra hdegree
      have habove := (Expression.one_lt_degree_iff he).mpr ⟨t, ht, not_le.mp hdegree⟩
      exact absurd hadmits.affine (not_le.mpr habove)
    rw [← Expression.failure?_coefficients hone he hbases, failure?_eq_none_iff] at hlinear
    obtain ⟨a, ha⟩ := hlinear
    simp [linearObjective, ho, ha]

theorem Regular.failure?_objectivePart (hone : ((1 : α) == 0) = false) (hm : m.Regular) :
    failure? m.objectivePart = none := by
  unfold objectivePart
  split
  · next hsome =>
    rw [failure?_map, Option.eq_none_iff_forall_not_mem]
    intro cause hcause
    have herror := failure?_eq_some_iff.mp hcause
    obtain ⟨hnone, -⟩ := (hm.linearObjective_eq_error_iff hone).mp herror
    simp [hnone] at hsome
  · rfl

/-- The first constraint that fails decides the error. -/
theorem Regular.failure?_blocks (hone : ((1 : α) == 0) = false) (hm : m.Regular) :
    failure? m.blocks =
      m.constraints.findSome? fun p => (firstNonlinear? p.2.terms).map Error.expression := by
  refine failure?_mapM fun p hp => ?_
  rw [failure?_mapError, Constraint.failure?_rows hone (hm.normal_lhs hp) (hm.normal_rhs hp)
    (mem_ids_order (hm.registered p hp))]

/-- **A model without variables fails for that reason, any other with its first nonlinear
constraint.** -/
theorem Regular.failure?_linearize (hone : ((1 : α) == 0) = false) (hm : m.Regular) :
    failure? m.linearize.result =
      if m.vars = [] then some .noVariables
      else m.constraints.findSome? fun p => (firstNonlinear? p.2.terms).map Error.expression := by
  rw [result_linearize]
  by_cases hvars : m.vars = []
  · simp [hvars]
  · have hnonempty : m.vars.isEmpty = false := by simpa using hvars
    rw [hnonempty, if_neg hvars, if_neg Bool.false_ne_true, failure?_bind_of_ok, result_rows,
      failure?_map, hm.failure?_blocks hone]
    intro all _
    rw [failure?_bind_of_ok fun _ _ => rfl]
    exact hm.failure?_objectivePart hone

/-- Constraints are in the order of their identities. -/
theorem Sound.pairwise_lt (hm : m.Sound) :
    m.constraints.Pairwise fun p q => p.1.value < q.1.value := by
  have hnumbers : (m.constraints.map (·.1.value.toNat)).Pairwise (· < ·) :=
    hm.numbered ▸ List.pairwise_lt_range'
  exact (List.pairwise_map.mp hnumbers).imp UInt32.lt_iff_toNat_lt.mpr

/-- The first constraint with an answer is the one with the least identity. -/
theorem Sound.exists_least {β : Type} (hm : m.Sound) {f : ConstraintId × Constraint α → Option β}
    {b : β} (h : m.constraints.findSome? f = some b) :
    ∃ p ∈ m.constraints, f p = some b ∧
      ∀ q ∈ m.constraints, (f q).isSome → p.1.value ≤ q.1.value := by
  obtain ⟨before, p, after, hsplit, hp, hbefore⟩ := List.findSome?_eq_some_iff.mp h
  have hordered := hm.pairwise_lt
  rw [hsplit, List.pairwise_append, List.pairwise_cons] at hordered
  obtain ⟨-, ⟨hafter, -⟩, -⟩ := hordered
  refine ⟨p, by simp [hsplit], hp, fun q hq hsome => ?_⟩
  rw [hsplit] at hq
  rcases List.mem_append.mp hq with hq | hq
  · simp [hbefore q hq] at hsome
  · rcases List.mem_cons.mp hq with rfl | hq
    · exact UInt32.le_refl _
    · exact UInt32.le_of_lt (hafter q hq)

/-- The constraints with an error are the nonlinear ones. -/
theorem Regular.isSome_error_iff (hm : m.Regular) {p : ConstraintId × Constraint α}
    (hp : p ∈ m.constraints) :
    ((firstNonlinear? p.2.terms).map Error.expression).isSome ↔ p.2.IsNonlinear := by
  rw [Option.isSome_map]
  exact Constraint.isSome_firstNonlinear?_iff (hm.normal_lhs hp) (hm.normal_rhs hp)

/-- The error of a model with variables: the first term to blame of the nonlinear constraint with
the least identity. -/
theorem Regular.exists_of_linearize_eq_error (hone : ((1 : α) == 0) = false) (hm : m.Regular)
    (hvars : m.vars ≠ []) {cause : Error α} (herror : m.linearize.result = .error cause) :
    ∃ p ∈ m.constraints, p.2.IsNonlinear ∧
      (∀ q ∈ m.constraints, q.2.IsNonlinear → p.1.value ≤ q.1.value) ∧
      ∃ t, p.2.terms.find? (1 < ·.degree) = some t ∧
        cause = .expression (.nonlinearTerm t.degree) := by
  have hfailure := hm.failure?_linearize hone
  rw [herror, failure?_error, if_neg hvars, eq_comm] at hfailure
  obtain ⟨p, hp, hcause, hleast⟩ := hm.exists_least hfailure
  refine ⟨p, hp, (hm.isSome_error_iff hp).mp (by simp [hcause]), ?_, ?_⟩
  · intro q hq hnonlinear
    exact hleast q hq ((hm.isSome_error_iff hq).mpr hnonlinear)
  · rw [firstNonlinear?_eq_map, Option.map_map, Option.map_eq_some_iff] at hcause
    obtain ⟨t, ht, rfl⟩ := hcause
    exact ⟨t, ht, rfl⟩

theorem Regular.linearize_eq_noVariables_iff (hone : ((1 : α) == 0) = false) (hm : m.Regular) :
    m.linearize.result = .error .noVariables ↔ m.vars = [] := by
  constructor
  · intro herror
    by_contra hvars
    obtain ⟨_, _, _, _, _, _, hcause⟩ := hm.exists_of_linearize_eq_error hone hvars herror
    cases hcause
  · intro hvars
    rw [← failure?_eq_some_iff, hm.failure?_linearize hone, if_pos hvars]

/-- A model with variables fails exactly if a constraint is nonlinear. -/
theorem Regular.exists_linearize_eq_error_iff (hone : ((1 : α) == 0) = false) (hm : m.Regular)
    (hvars : m.vars ≠ []) :
    (∃ cause, m.linearize.result = .error cause) ↔ ∃ p ∈ m.constraints, p.2.IsNonlinear := by
  constructor
  · rintro ⟨cause, herror⟩
    obtain ⟨p, hp, hnonlinear, -⟩ := hm.exists_of_linearize_eq_error hone hvars herror
    exact ⟨p, hp, hnonlinear⟩
  · rintro ⟨p, hp, hnonlinear⟩
    have hsome : (failure? m.linearize.result).isSome := by
      rw [hm.failure?_linearize hone, if_neg hvars, List.findSome?_isSome_iff]
      exact ⟨p, hp, (hm.isSome_error_iff hp).mpr hnonlinear⟩
    obtain ⟨cause, hcause⟩ := Option.isSome_iff_exists.mp hsome
    exact ⟨cause, failure?_eq_some_iff.mp hcause⟩

/-- No variable is missing from the columns. -/
theorem Regular.linearize_ne_notInOrdering (hone : ((1 : α) == 0) = false) (hm : m.Regular)
    (id : VariableId) : m.linearize.result ≠ .error (.expression (.notInOrdering id)) := by
  intro herror
  by_cases hvars : m.vars = []
  · rw [(hm.linearize_eq_noVariables_iff hone).mpr hvars] at herror
    cases herror
  · obtain ⟨_, _, _, _, _, _, hcause⟩ := hm.exists_of_linearize_eq_error hone hvars herror
    cases hcause

end Model

/-! ## Reachable models -/

namespace Workspace

variable {w₀ : Workspace α μ} {history : List (Action α μ)}

/-- Operations that come with constructed expressions lead to a regular model. -/
theorem regular_run (hone : ((1 : α) == 0) = false) (hw₀ : w₀.Initial)
    (hconstructed : ∀ a ∈ history, ∀ e, a.Brings e → e.Constructed) :
    (w₀.run history).model.Regular where
  toSound := Reachable.sound ⟨w₀, history, hw₀, rfl⟩
  normal e he := by
    obtain ⟨a, ha, hbrings⟩ := exists_brings_of_holds hw₀ he
    exact (hconstructed a ha e hbrings).isNormal hone

/-- Along a run that does not exhaust the supply, every variable passes its check. -/
theorem check_of_mem_run (hw₀ : w₀.Initial)
    (hids : w₀.ids.given + (history.map (·.draws)).sum < 2 ^ 64) :
    ∀ v ∈ (w₀.run history).model.vars, v.check = .ok () := by
  intro v hv
  have hsound : (w₀.run history).model.Sound := Reachable.sound ⟨w₀, history, hw₀, rfl⟩
  obtain ⟨config, -, hmodel⟩ := hw₀.exists_config
  have hidentity := isInitialized_of_mem_run hids (by simp [hmodel]) v hv
  exact Variable.check_eq_ok_iff.mpr ⟨hidentity, hsound.bounded v hv⟩

end Workspace

/-- **Exactly when lowering fails.** Let a model start empty and go through any operations that come
with constructed expressions, while its supply does not start over. Its variables and constraints
pass their checks, constraints and the objective mention registered variables only, and the
objective is a scalar of degree at most one. So lowering fails for want of variables exactly if
there are none, and else exactly if a constraint is nonlinear; the error then names the degree of
the first term that is not linear, in the nonlinear constraint with the least identity. No variable
is ever missing from the columns, and the objective fails exactly if there is none. -/
theorem Workspace.linearize_fails_iff_nonlinear {w₀ : Workspace Float μ} (hw₀ : w₀.Initial)
    {history : List (Action Float μ)}
    (hconstructed : ∀ a ∈ history, ∀ e, a.Brings e → e.Constructed)
    (hids : w₀.ids.given + (history.map (·.draws)).sum < 2 ^ 64) :
    let m := (w₀.run history).model
    (∀ v ∈ m.vars, v.check = .ok ()) ∧
      (∀ p ∈ m.constraints, p.2.check = .ok () ∧ p.2.lhs.length = p.2.rhs.length ∧
        ∀ v ∈ p.2.vars, m.isRegistered v.id) ∧
      (∀ o, m.objective? = some o → m.Admits o.expression) ∧
      (m.linearize.result = .error .noVariables ↔ m.vars = []) ∧
      (m.vars ≠ [] →
        ((∃ cause, m.linearize.result = .error cause) ↔ ∃ p ∈ m.constraints, p.2.IsNonlinear) ∧
        ∀ cause, m.linearize.result = .error cause → ∃ p ∈ m.constraints, p.2.IsNonlinear ∧
          (∀ q ∈ m.constraints, q.2.IsNonlinear → p.1.value ≤ q.1.value) ∧
          ∃ t, p.2.terms.find? (1 < ·.degree) = some t ∧
            cause = .expression (.nonlinearTerm t.degree)) ∧
      (∀ id, m.linearize.result ≠ .error (.expression (.notInOrdering id)) ∧
        m.linearObjective ≠ .error (.expression (.notInOrdering id))) ∧
      ∀ cause, m.linearObjective = .error cause ↔ m.objective? = none ∧ cause = .noObjective := by
  intro m
  have hone : ((1 : Float) == 0) = false := by decide
  have hm : m.Regular := regular_run hone hw₀ hconstructed
  refine ⟨check_of_mem_run hw₀ hids, fun p hp => ?_, hm.objective,
    hm.linearize_eq_noVariables_iff hone, fun hvars => ?_, fun id => ?_, fun cause => ?_⟩
  · exact ⟨hm.checked p hp, Constraint.length_sides (hm.checked p hp), hm.registered p hp⟩
  · exact ⟨hm.exists_linearize_eq_error_iff hone hvars,
      fun cause => hm.exists_of_linearize_eq_error hone hvars⟩
  · refine ⟨hm.linearize_ne_notInOrdering hone id, fun herror => ?_⟩
    obtain ⟨-, hcause⟩ := (hm.linearObjective_eq_error_iff hone).mp herror
    cases hcause
  · exact hm.linearObjective_eq_error_iff hone

/-- The constraints `x₁ ≤ 1` and `1 ≤ x₁²` of a binary variable: the second one is nonlinear. -/
theorem Workspace.linearize_fails_iff_nonlinear_square :
    let x₁ : Variable := ⟨⟨1⟩, .unit, .binary⟩
    let one : Expression Float := .const (.scalar 1)
    let w₀ : Workspace Float Unit := {}
    let history : List (Action Float Unit) := [.addBinary,
      .addConstraint ⟨.var (.scalar x₁), .le, one, false⟩,
      .addConstraint ⟨one, .le, .mono (.scalar ⟨1, [⟨x₁, 2⟩]⟩), false⟩,
      .minimize (.expression (.var (.scalar x₁)))]
    let m := (w₀.run history).model
    w₀.Initial ∧ (∀ a ∈ history, ∀ e, a.Brings e → e.Constructed) ∧
      w₀.ids.given + (history.map (·.draws)).sum < 2 ^ 64 ∧ m.vars ≠ [] ∧
      (∃ p ∈ m.constraints, p.2.IsNonlinear) ∧ (∀ v ∈ m.vars, v.check = .ok ()) ∧
      m.objective?.isSome ∧ ∃ cause, m.linearize.result = .error cause := by
  intro x₁ one w₀ history m
  have hw₀ : w₀.Initial := ⟨{}, rfl⟩
  have hconstructed : ∀ a ∈ history, ∀ e, a.Brings e → e.Constructed := by
    intro a ha e he
    simp only [history, List.mem_cons, List.not_mem_nil, or_false] at ha
    rcases ha with rfl | rfl | rfl | rfl
    · cases he
    · rcases he with rfl | rfl
      · exact .var _
      · exact .const _
    · rcases he with rfl | rfl
      · exact .const _
      · exact .monomial (show Monomial.ofFactors? 1 [⟨x₁, 2⟩] = some _ from rfl)
    · cases he
      exact .var _
  have hids : w₀.ids.given + (history.map (·.draws)).sum < 2 ^ 64 := by decide +kernel
  have hvars : m.vars ≠ [] := by decide +kernel
  have hnonlinear : ∃ p ∈ m.constraints, p.2.IsNonlinear := by decide +kernel
  obtain ⟨hchecks, -, -, -, hfails, -⟩ := linearize_fails_iff_nonlinear hw₀ hconstructed hids
  exact ⟨hw₀, hconstructed, hids, hvars, hnonlinear, hchecks, by decide +kernel,
    (hfails hvars).1.mpr hnonlinear⟩

end AlgebraicModel
