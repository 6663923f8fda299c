import Mathlib
import AlgebraicModel.Scalar.Double
import AlgebraicModel.Proofs.Except.Failure
import AlgebraicModel.Proofs.Model.Reachable

/-!
# Failed operations change nothing

What is changed before a failure stays changed, so an operation that fails could leave a model half
way. None does: each of them first makes checks, which change nothing, and then changes, which
cannot fail.

## Main definitions

* `Build.Quiet`, `Build.Total`, `Build.Atomic`: an operation never changes anything, never fails, or
  changes nothing when it fails
* `Workspace.error?`: the error of an action

## Main results

* `Build.Quiet.bind_atomic`, `Build.Atomic.bind_total`: checks before changes
* `Workspace.failed_action_changes_nothing`: a failed action leaves model and supply as they were
-/

namespace AlgebraicModel

variable {α μ β γ : Type}

namespace Build

/-- An operation that leaves every workspace as it is, whatever its answer. -/
def Quiet (x : Build α μ β) : Prop :=
  ∀ w, x.after w = w

/-- An operation that answers in every workspace. -/
def Total (x : Build α μ β) : Prop :=
  ∀ w, ∃ b, x.answer w = .ok b

/-- An operation that leaves the workspace as it was when it fails. -/
def Atomic (x : Build α μ β) : Prop :=
  ∀ w e, x.answer w = .error e → x.after w = w

/-! ## Checks before changes -/

variable {x : Build α μ β} {f : β → Build α μ γ}

theorem Quiet.atomic (hx : x.Quiet) : x.Atomic :=
  fun w _ _ => hx w

theorem Total.atomic (hx : x.Total) : x.Atomic := by
  intro w e he
  obtain ⟨b, hb⟩ := hx w
  rw [hb] at he
  cases he

theorem Total.bind (hx : x.Total) (hf : ∀ b, (f b).Total) : (x >>= f).Total := by
  intro w
  obtain ⟨b, hb⟩ := hx w
  obtain ⟨c, hc⟩ := hf b (x.after w)
  exact ⟨c, by rw [answer_bind, hb, ok_bind, hc]⟩

/-- What comes after a check may fail, as long as it changes nothing then. -/
theorem Quiet.bind_atomic (hx : x.Quiet) (hf : ∀ b, (f b).Atomic) : (x >>= f).Atomic := by
  intro w e he
  rcases hb : x.answer w with cause | b
  · rw [after_bind_error hb, hx w]
  · rw [answer_bind, hb, ok_bind, hx w] at he
    rw [after_bind_ok hb, hx w, hf b w e he]

/-- What comes after a change must not fail. -/
theorem Atomic.bind_total (hx : x.Atomic) (hf : ∀ b, (f b).Total) : (x >>= f).Atomic := by
  intro w e he
  rcases hb : x.answer w with cause | b
  · rw [after_bind_error hb, hx w cause hb]
  · obtain ⟨c, hc⟩ := hf b (x.after w)
    rw [answer_bind, hb, ok_bind, hc] at he
    cases he

/-- A check that is made only under a condition. -/
theorem Quiet.ite_bind_atomic {p : Prop} [Decidable p] {x : Build α μ Unit}
    {f : Unit → Build α μ γ} (hx : x.Quiet) (hf : (f ()).Atomic) :
    (if p then x >>= f else f ()).Atomic := by
  split
  · exact hx.bind_atomic fun _ => hf
  · exact hf

/-! ## Single steps -/

theorem quiet_fail (e : Model.Error α) : (fail e : Build α μ β).Quiet :=
  fun _ => after_fail e

theorem quiet_model : (model : Build α μ _).Quiet :=
  fun _ => after_model

theorem quiet_lift (result : Except (Expression.Error α) β) : (liftM result : Build α μ β).Quiet :=
  fun _ => after_lift result

theorem quiet_rejectConstraint (cause : Model.Error α) :
    (rejectConstraint cause : Build α μ β).Quiet :=
  fun _ => after_rejectConstraint cause

theorem quiet_requireVariable (id : VariableId) : (requireVariable id : Build α μ Unit).Quiet :=
  fun _ => (requireVariable_spec id).1

theorem quiet_requireVariables (vs : List Variable) :
    (forM vs fun v => (requireVariable v.id : Build α μ Unit)).Quiet :=
  fun _ => (requireVariables_spec vs).1

theorem quiet_requireConstraint (id : ConstraintId) :
    (requireConstraint id : Build α μ Unit).Quiet :=
  fun _ => after_requireConstraint id

theorem total_pure (b : β) : (pure b : Build α μ β).Total :=
  fun _ => ⟨b, rfl⟩

theorem total_change (f : Model α μ → Model α μ) : (change f).Total :=
  fun _ => ⟨(), rfl⟩

theorem total_draw (take : IdSupply → β × IdSupply) : (draw take : Build α μ β).Total :=
  fun _ => ⟨_, rfl⟩

theorem total_record (event : Model.Event α) : (record event : Build α μ Unit).Total :=
  fun _ => ⟨(), rfl⟩

theorem total_push (v : Variable) : (push v : Build α μ Unit).Total :=
  total_change _

theorem total_pushAll (vs : List Variable) : (forM vs push : Build α μ Unit).Total :=
  fun _ => ⟨(), (forM_push vs).1⟩

/-- A change behind a check. -/
theorem Quiet.atomic_change {guard : Build α μ Unit} (hguard : guard.Quiet)
    (f : Model α μ → Model α μ) : (guard >>= fun _ => change f).Atomic :=
  hguard.bind_atomic fun _ => (total_change f).atomic

/-! ## Operations -/

theorem atomic_addVariable (integrality : Integrality) (bounds : Bounds) :
    (addVariable integrality bounds : Build α μ Variable).Atomic := by
  unfold addVariable
  refine (quiet_fail _).ite_bind_atomic (Total.atomic ?_)
  exact (total_draw _).bind fun v => (total_push v).bind fun _ => total_pure v

theorem atomic_addBinary : (addBinary : Build α μ Variable).Atomic :=
  ((total_draw _).bind fun v => (total_push v).bind fun _ => total_pure v).atomic

theorem atomic_addVector (n : ℕ) : (addVector n : Build α μ _).Atomic :=
  ((total_draw _).bind fun vs => (total_pushAll vs).bind fun _ =>
    (total_record _).bind fun _ => total_pure vs).atomic

theorem atomic_registerVariable (v : Variable) : (registerVariable v : Build α μ Unit).Atomic := by
  unfold registerVariable
  split
  · exact (quiet_fail _).atomic
  · exact (quiet_fail _).atomic
  · refine quiet_model.bind_atomic fun m => ?_
    split
    · exact (total_push v).atomic
    · exact (total_pure ()).atomic

theorem atomic_nextConstraintId : (nextConstraintId : Build α μ ConstraintId).Atomic := by
  unfold nextConstraintId
  refine quiet_model.bind_atomic fun m => (quiet_rejectConstraint _).ite_bind_atomic ?_
  exact ((total_change _).bind fun _ => total_pure _).atomic

theorem atomic_addConstraint (c : Constraint α) :
    (addConstraint c : Build α μ ConstraintId).Atomic := by
  -- The number of the constraint is the first change, and what follows it cannot fail.
  have hadd : (do
      c.vars.forM fun v => requireVariable v.id
      let id ← nextConstraintId
      record (.addedConstraint id c.length c.relation)
      change fun m => { m with constraints := m.constraints ++ [(id, c)] }
      return id : Build α μ ConstraintId).Atomic := by
    refine (quiet_requireVariables c.vars).bind_atomic fun _ => ?_
    refine atomic_nextConstraintId.bind_total fun id => ?_
    exact (total_record _).bind fun _ => (total_change _).bind fun _ => total_pure id
  unfold addConstraint
  dsimp only
  split
  · exact (quiet_rejectConstraint _).bind_atomic fun _ => hadd
  · exact hadd

section Objective

variable [Scalar α]

theorem atomic_setObjective (direction : Direction) (b : Operand α) :
    (setObjective direction b : Build α μ Unit).Atomic := by
  unfold setObjective
  refine (quiet_lift _).bind_atomic fun e => (quiet_lift _).bind_atomic fun _ => ?_
  refine (quiet_fail _).ite_bind_atomic ((quiet_fail _).ite_bind_atomic ?_)
  refine (quiet_requireVariables e.vars).bind_atomic fun _ => ?_
  exact ((total_record _).bind fun _ => total_change _).atomic

theorem atomic_optimize (direction : Direction) (b : Operand α) :
    (optimize direction b : Build α μ Unit).Atomic := by
  unfold optimize
  refine quiet_model.bind_atomic fun m => (quiet_fail _).ite_bind_atomic ?_
  exact atomic_setObjective direction b

/-- A model that has an objective is not given another one, whatever it would be. -/
theorem optimize_of_objective {w : Workspace α μ} (h : w.model.objective?.isSome)
    (direction : Direction) (b : Operand α) :
    optimize direction b w = (Logged.fail .objectiveAlreadySet, w) := by
  have hfirst : optimize direction b w = (if w.model.objective?.isSome then
      (do fail .objectiveAlreadySet; setObjective direction b : Build α μ Unit)
    else setObjective direction b) w := rfl
  rw [hfirst, if_pos h]
  rfl

end Objective

theorem atomic_nameObjective (n : Option String) : (nameObjective n : Build α μ Unit).Atomic := by
  unfold nameObjective
  refine quiet_model.bind_atomic fun m => (quiet_fail _).ite_bind_atomic ?_
  exact (total_change _).atomic

end Build

/-! ## Actions -/

namespace Workspace

variable [Scalar α]

/-- The error of an action, if it fails. -/
def error? (w : Workspace α μ) : Action α μ → Option (Model.Error α)
  | .draw _ => none
  | .addVariable integrality bounds => failure? ((Build.addVariable integrality bounds).answer w)
  | .addContinuous bounds => failure? ((Build.addContinuous bounds).answer w)
  | .addBinary => failure? (Build.addBinary.answer w)
  | .addVector n => failure? ((Build.addVector n).answer w)
  | .registerVariable v => failure? ((Build.registerVariable v).answer w)
  | .addConstraint c => failure? ((Build.addConstraint c).answer w)
  | .setObjective direction b => failure? ((Build.setObjective direction b).answer w)
  | .minimize b => failure? ((Build.minimize b).answer w)
  | .maximize b => failure? ((Build.maximize b).answer w)
  | .nameVariable id n => failure? ((Build.nameVariable id n).answer w)
  | .annotateVariable id x => failure? ((Build.annotateVariable id x).answer w)
  | .nameConstraint id n => failure? ((Build.nameConstraint id n).answer w)
  | .annotateConstraint id x => failure? ((Build.annotateConstraint id x).answer w)
  | .nameObjective n => failure? ((Build.nameObjective n).answer w)

/-- **A failed action changes nothing.** Whatever the error of an action is, the workspace is what
it was: the variables and their columns, the constraints and the number of the last one, the
objective and its name, all labels, and the supply of fresh variables. A second minimization or
maximization fails before anything else is looked at. -/
theorem failed_action_changes_nothing (w : Workspace α μ) :
    (∀ (a : Action α μ) (cause : Model.Error α), w.error? a = some cause → w.step a = w) ∧
    ∀ b : Operand α, w.model.objective?.isSome →
      Build.minimize b w = (Logged.fail .objectiveAlreadySet, w) ∧
        Build.maximize b w = (Logged.fail .objectiveAlreadySet, w) := by
  refine ⟨?_, ?_⟩
  · intro a cause h
    cases a with
    | draw n => cases h
    | addVariable integrality bounds =>
      exact Build.atomic_addVariable _ _ w cause (failure?_eq_some_iff.mp h)
    | addContinuous bounds =>
      exact Build.atomic_addVariable _ _ w cause (failure?_eq_some_iff.mp h)
    | addBinary => exact Build.atomic_addBinary w cause (failure?_eq_some_iff.mp h)
    | addVector n => exact Build.atomic_addVector n w cause (failure?_eq_some_iff.mp h)
    | registerVariable v =>
      exact Build.atomic_registerVariable v w cause (failure?_eq_some_iff.mp h)
    | addConstraint c => exact Build.atomic_addConstraint c w cause (failure?_eq_some_iff.mp h)
    | setObjective direction b =>
      exact Build.atomic_setObjective _ b w cause (failure?_eq_some_iff.mp h)
    | minimize b => exact Build.atomic_optimize _ b w cause (failure?_eq_some_iff.mp h)
    | maximize b => exact Build.atomic_optimize _ b w cause (failure?_eq_some_iff.mp h)
    | nameVariable id n | annotateVariable id x =>
      exact (Build.quiet_requireVariable id).atomic_change _ w cause (failure?_eq_some_iff.mp h)
    | nameConstraint id n | annotateConstraint id x =>
      exact (Build.quiet_requireConstraint id).atomic_change _ w cause (failure?_eq_some_iff.mp h)
    | nameObjective n => exact Build.atomic_nameObjective n w cause (failure?_eq_some_iff.mp h)
  · intro b h
    exact ⟨Build.optimize_of_objective h _ b, Build.optimize_of_objective h _ b⟩

/-- In a model of the variable `x₁`, which is also its objective, the constraint `x₁ ≤ x₂` fails
where its variables are looked up, and a second objective at once, even if it cannot be read. -/
theorem failed_action_changes_nothing_unregistered :
    let x₁ : Variable := ⟨⟨1⟩, {}, .integer⟩
    let x₂ : Variable := ⟨⟨2⟩, {}, .integer⟩
    let w : Workspace Float Unit := run {}
      [.addBinary, .minimize (.expression (.var (.scalar x₁))), .nameObjective (some "cost")]
    let a : Action Float Unit := .addConstraint ⟨.var (.scalar x₁), .le, .var (.scalar x₂), false⟩
    let b : Operand Float := .matrix ⟨2, [[0, 0]]⟩
    (∃ cause, w.error? a = some cause ∧ cause.code = "VARIABLE_UNKNOWN") ∧ w.step a = w ∧
      b.toExpression.isOk = false ∧ w.model.objective?.isSome ∧
      Build.maximize b w = (Logged.fail .objectiveAlreadySet, w) := by
  intro x₁ x₂ w a b
  have hcode : (w.error? a).map (·.code) = some "VARIABLE_UNKNOWN" := by decide +kernel
  obtain ⟨cause, herror, hcause⟩ := Option.map_eq_some_iff.mp hcode
  have hobjective : w.model.objective?.isSome := by decide +kernel
  obtain ⟨hfailed, hoptimize⟩ := failed_action_changes_nothing w
  exact ⟨⟨cause, herror, hcause⟩, hfailed a cause herror, by decide +kernel, hobjective,
    (hoptimize b hobjective).2⟩

end Workspace

end AlgebraicModel
