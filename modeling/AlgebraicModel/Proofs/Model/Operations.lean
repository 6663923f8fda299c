import Mathlib
import AlgebraicModel.Model.Build
import AlgebraicModel.Proofs.Except.Traversal

/-!
# The effect of the operations on a workspace

For every operation, its answer and the workspace that it leaves behind. An operation that fails
leaves the workspace as it was.

## Main results

* `Build.after_addVariable`, `after_addBinary`, `after_addVector`, `registerVariable_spec`: where
  variables come from
* `Build.addConstraint_spec`, `setObjective_spec`: what a constraint and an objective have to pass
-/

namespace AlgebraicModel

variable {α μ β γ : Type}

/-- The workspace with more variables at the end. -/
def Workspace.append (w : Workspace α μ) (vs : List Variable) : Workspace α μ :=
  { w with model := { w.model with vars := w.model.vars ++ vs } }

@[simp] theorem Workspace.append_nil (w : Workspace α μ) : w.append [] = w := by
  simp [append]

@[simp] theorem Workspace.append_append (w : Workspace α μ) (us vs : List Variable) :
    (w.append us).append vs = w.append (us ++ vs) := by
  simp [append]

/-- What an expression has to pass as the objective of a model. -/
structure Model.Admits [Scalar α] (m : Model α μ) (e : Expression α) : Prop where
  checked : e.check = .ok ()
  scalar : e.isVector = false
  affine : e.degree ≤ 1
  registered : ∀ v ∈ e.vars, m.isRegistered v.id

namespace Build

/-- The answer or the error, without the events. -/
def answer (x : Build α μ β) (w : Workspace α μ) : Except (Model.Error α) β :=
  (x w).1.result

/-- The workspace that an operation leaves behind. -/
def after (x : Build α μ β) (w : Workspace α μ) : Workspace α μ :=
  (x w).2

variable {w : Workspace α μ}

/-! ## Operations in sequence -/

@[simp] theorem answer_bind (x : Build α μ β) (f : β → Build α μ γ) :
    (x >>= f).answer w = x.answer w >>= fun b => (f b).answer (x.after w) := by
  change (Build.bind x f w).1.result = _
  rcases hx : x w with ⟨⟨events, result⟩, w'⟩
  cases result <;> simp [Build.bind, answer, after, hx]

theorem after_bind (x : Build α μ β) (f : β → Build α μ γ) :
    (x >>= f).after w =
      match x.answer w with
      | .ok b => (f b).after (x.after w)
      | .error _ => x.after w := by
  change (Build.bind x f w).2 = _
  rcases hx : x w with ⟨⟨events, result⟩, w'⟩
  cases result <;> simp [Build.bind, answer, after, hx]

/-- An operation that answers hands over to the next one. -/
theorem after_bind_ok {x : Build α μ β} {b : β} (h : x.answer w = .ok b) (f : β → Build α μ γ) :
    (x >>= f).after w = (f b).after (x.after w) := by
  rw [after_bind, h]

/-- An operation that fails ends the sequence. -/
theorem after_bind_error {x : Build α μ β} {e : Model.Error α} (h : x.answer w = .error e)
    (f : β → Build α μ γ) : (x >>= f).after w = x.after w := by
  rw [after_bind, h]

@[simp] theorem answer_pure (b : β) : (pure b : Build α μ β).answer w = .ok b := rfl

@[simp] theorem after_pure (b : β) : (pure b : Build α μ β).after w = w := rfl

@[simp] theorem answer_fail (e : Model.Error α) : (fail e : Build α μ β).answer w = .error e := rfl

@[simp] theorem after_fail (e : Model.Error α) : (fail e : Build α μ β).after w = w := rfl

@[simp] theorem answer_record (event : Model.Event α) :
    (record event : Build α μ Unit).answer w = .ok () := rfl

@[simp] theorem after_record (event : Model.Event α) :
    (record event : Build α μ Unit).after w = w := rfl

@[simp] theorem answer_model : (model : Build α μ _).answer w = .ok w.model := rfl

@[simp] theorem after_model : (model : Build α μ _).after w = w := rfl

@[simp] theorem answer_change (f : Model α μ → Model α μ) :
    (change f).answer w = .ok () := rfl

@[simp] theorem after_change (f : Model α μ → Model α μ) :
    (change f).after w = { w with model := f w.model } := rfl

@[simp] theorem answer_draw (take : IdSupply → β × IdSupply) :
    (draw take : Build α μ β).answer w = .ok (take w.ids).1 := rfl

@[simp] theorem after_draw (take : IdSupply → β × IdSupply) :
    (draw take : Build α μ β).after w = { w with ids := (take w.ids).2 } := rfl

@[simp] theorem answer_lift (x : Except (Expression.Error α) β) :
    (liftM x : Build α μ β).answer w = x.mapError .expression := rfl

@[simp] theorem after_lift (x : Except (Expression.Error α) β) :
    (liftM x : Build α μ β).after w = w := rfl

@[simp] theorem answer_push (v : Variable) : (push v : Build α μ Unit).answer w = .ok () := rfl

@[simp] theorem after_push (v : Variable) : (push v : Build α μ Unit).after w = w.append [v] := rfl

/-! ## Variables -/

theorem forM_push (vs : List Variable) :
    (forM vs push : Build α μ Unit).answer w = .ok () ∧
      (forM vs push : Build α μ Unit).after w = w.append vs := by
  induction vs generalizing w with
  | nil => exact ⟨rfl, w.append_nil.symm⟩
  | cons v vs ih =>
    obtain ⟨hanswer, hafter⟩ := ih (w := w.append [v])
    rw [List.forM_cons, answer_bind, after_bind]
    simp [hanswer, hafter]

theorem after_addVariable (integrality : Integrality) (bounds : Bounds) :
    (addVariable integrality bounds).after w =
      if bounds.isValid then
        { w with ids := (w.ids.variableWith integrality bounds).2 }.append
          [(w.ids.variableWith integrality bounds).1]
      else w := by
  by_cases hbounds : bounds.isValid <;> simp [addVariable, hbounds, after_bind]

theorem answer_addVariable (integrality : Integrality) (bounds : Bounds) :
    (addVariable integrality bounds).answer w =
      if bounds.isValid then .ok (w.ids.variableWith integrality bounds).1
      else .error (.invalidBounds bounds) := by
  by_cases hbounds : bounds.isValid <;> simp [addVariable, hbounds]

theorem after_addBinary :
    (addBinary : Build α μ Variable).after w =
      { w with ids := (w.ids.variableWith .binary .unit).2 }.append
        [(w.ids.variableWith .binary .unit).1] := by
  simp [addBinary, after_bind]

theorem answer_addBinary :
    (addBinary : Build α μ Variable).answer w = .ok (w.ids.variableWith .binary .unit).1 := by
  simp [addBinary]

theorem after_addVector (n : ℕ) :
    (addVector n : Build α μ _).after w =
      { w with ids := (w.ids.vector n).2 }.append (w.ids.vector n).1 := by
  simp [addVector, after_bind, forM_push]

theorem answer_addVector (n : ℕ) :
    (addVector n : Build α μ _).answer w = .ok (w.ids.vector n).1 := by
  simp [addVector, forM_push]

/-- A variable is turned away and nothing changes, or it passes its check and is adopted unless it
was in the model before. -/
theorem registerVariable_spec (v : Variable) :
    (∃ cause, (registerVariable v).answer w = .error cause) ∧ (registerVariable v).after w = w ∨
      v.check = .ok () ∧ (registerVariable v).answer w = .ok () ∧
        (registerVariable v).after w =
          w.append (if w.model.isRegistered v.id then [] else [v]) := by
  rcases hv : v.check with fault | _
  · cases fault <;> simp [registerVariable, hv]
  · by_cases hregistered : w.model.isRegistered v.id <;>
      simp [registerVariable, hv, hregistered, after_bind]

theorem requireVariable_spec (id : VariableId) :
    (requireVariable id : Build α μ Unit).after w = w ∧
      ((requireVariable id : Build α μ Unit).answer w = .ok () ↔ w.model.isRegistered id) := by
  by_cases hregistered : w.model.isRegistered id <;>
    simp [requireVariable, hregistered, after_bind]

/-- Requiring variables changes nothing, and succeeds when they are all registered. -/
theorem requireVariables_spec (vs : List Variable) :
    (forM vs fun v => (requireVariable v.id : Build α μ Unit)).after w = w ∧
      ((forM vs fun v => (requireVariable v.id : Build α μ Unit)).answer w = .ok () ↔
        ∀ v ∈ vs, w.model.isRegistered v.id) := by
  induction vs with
  | nil => simp
  | cons v vs ih =>
    obtain ⟨hafter, hanswer⟩ := requireVariable_spec (w := w) v.id
    rw [List.forM_cons, answer_bind, after_bind, bind_eq_ok_iff, List.forall_mem_cons]
    simp only [hafter, ih.1, ih.2, hanswer, Unique.exists_iff]
    exact ⟨by split <;> rfl, by simp⟩

/-! ## Constraints -/

@[simp] theorem answer_rejectConstraint (cause : Model.Error α) :
    (rejectConstraint cause : Build α μ β).answer w = .error cause := by
  simp [rejectConstraint]

@[simp] theorem after_rejectConstraint (cause : Model.Error α) :
    (rejectConstraint cause : Build α μ β).after w = w := by
  simp [rejectConstraint, after_bind]

theorem nextConstraintId_spec :
    w.model.lastConstraint = 0xffffffff ∧
        (nextConstraintId : Build α μ _).answer w = .error .constraintsExhausted ∧
        (nextConstraintId : Build α μ _).after w = w ∨
      w.model.lastConstraint ≠ 0xffffffff ∧
        (nextConstraintId : Build α μ _).answer w = .ok ⟨w.model.lastConstraint + 1⟩ ∧
        (nextConstraintId : Build α μ _).after w =
          { w with model := { w.model with lastConstraint := w.model.lastConstraint + 1 } } := by
  by_cases hlast : w.model.lastConstraint = 0xffffffff
  · exact .inl ⟨hlast, by simp [nextConstraintId, hlast],
      by simp [nextConstraintId, hlast, after_bind]⟩
  · exact .inr ⟨hlast, by simp [nextConstraintId, hlast],
      by simp [nextConstraintId, hlast, after_bind]⟩

/-- A constraint is turned away and nothing changes, or it passes every check and gets the next
identity. -/
theorem addConstraint_spec (c : Constraint α) :
    (∃ cause, (addConstraint c).answer w = .error cause) ∧ (addConstraint c).after w = w ∨
      c.check = .ok () ∧ (∀ v ∈ c.vars, w.model.isRegistered v.id) ∧
        w.model.lastConstraint ≠ 0xffffffff ∧
        (addConstraint c).answer w = .ok ⟨w.model.lastConstraint + 1⟩ ∧
        (addConstraint c).after w = { w with model := { w.model with
          constraints := w.model.constraints ++ [(⟨w.model.lastConstraint + 1⟩, c)]
          lastConstraint := w.model.lastConstraint + 1 } } := by
  obtain ⟨hafter, hanswer⟩ := requireVariables_spec (w := w) c.vars
  rcases hcheck : c.check with cause | _
  · exact .inl ⟨⟨.expression cause, by simp [addConstraint, hcheck]⟩,
      by simp [addConstraint, hcheck, after_bind]⟩
  rcases hrequire : (forM c.vars fun v => (requireVariable v.id : Build α μ Unit)).answer w with
    e | _
  · exact .inl ⟨⟨e, by simp [addConstraint, hcheck, hrequire]⟩,
      by simp [addConstraint, hcheck, after_bind, hrequire, hafter]⟩
  rcases nextConstraintId_spec (w := w) with ⟨-, hnext, hsame⟩ | ⟨hlast, hnext, hsucc⟩
  · exact .inl ⟨⟨.constraintsExhausted, by simp [addConstraint, hcheck, hrequire, hafter, hnext]⟩,
      by simp [addConstraint, hcheck, after_bind, hrequire, hafter, hnext, hsame]⟩
  · refine .inr ⟨rfl, hanswer.mp hrequire, hlast, ?_, ?_⟩
    · simp [addConstraint, hcheck, hrequire, hafter, hnext]
    · simp [addConstraint, hcheck, after_bind, hrequire, hafter, hnext, hsucc]

/-- The answer is the identity that the constraint has been added under. -/
theorem after_addConstraint_of_answer {c : Constraint α} {id : ConstraintId}
    (h : (addConstraint c).answer w = .ok id) :
    (addConstraint c).after w = { w with model := { w.model with
      constraints := w.model.constraints ++ [(id, c)]
      lastConstraint := w.model.lastConstraint + 1 } } := by
  rcases addConstraint_spec (w := w) c with ⟨⟨cause, herror⟩, -⟩ | ⟨-, -, -, hid, hafter⟩
  · rw [herror] at h
    cases h
  · obtain rfl := Except.ok.inj (hid.symm.trans h)
    exact hafter

/-! ## The objective -/

section Objective

variable [Scalar α]

/-- An objective is turned away and nothing changes, or it passes every check and replaces the one
before it. -/
theorem setObjective_spec (direction : Direction) (b : Operand α) :
    (∃ cause, (setObjective direction b).answer w = .error cause) ∧
        (setObjective direction b).after w = w ∨
      ∃ e, b.toExpression = .ok e ∧ w.model.Admits e ∧
        (setObjective direction b).answer w = .ok () ∧ (setObjective direction b).after w =
          { w with model := { w.model with
            objective? := some ⟨direction, e⟩, objectiveName? := none } } := by
  -- The checks in the order in which they are made; nothing changes before the last one.
  rcases hb : b.toExpression with cause | e
  · exact .inl (by simp [setObjective, hb, Except.mapError, after_bind])
  rcases hcheck : e.check with cause | _
  · exact .inl (by simp [setObjective, hb, hcheck, Except.mapError, after_bind])
  by_cases hvector : e.isVector
  · exact .inl (by simp [setObjective, hb, hcheck, hvector, Except.mapError, after_bind])
  by_cases hdegree : 1 < e.degree
  · exact .inl (by simp [setObjective, hb, hcheck, hvector, hdegree, Except.mapError, after_bind])
  obtain ⟨hafter, hanswer⟩ := requireVariables_spec (w := w) e.vars
  rcases hrequire : (forM e.vars fun v => (requireVariable v.id : Build α μ Unit)).answer w with
    cause | _
  · exact .inl (by simp [setObjective, hb, hcheck, hvector, hdegree, Except.mapError, after_bind,
      hrequire, hafter])
  · refine .inr ⟨e, rfl, ⟨hcheck, by simpa using hvector, by omega, hanswer.mp hrequire⟩, ?_, ?_⟩
    · simp [setObjective, hb, hcheck, hvector, hdegree, Except.mapError, hrequire]
    · simp [setObjective, hb, hcheck, hvector, hdegree, Except.mapError, after_bind, hrequire,
        hafter]

/-- The objective of a model that has none is set like any other. -/
theorem optimize_spec (direction : Direction) (b : Operand α) :
    (∃ cause, (optimize direction b).answer w = .error cause) ∧ (optimize direction b).after w = w ∨
      (optimize direction b).answer w = (setObjective direction b).answer w ∧
        (optimize direction b).after w = (setObjective direction b).after w := by
  by_cases hset : w.model.objective?.isSome <;> simp [optimize, hset, after_bind]

end Objective

/-! ## Labels -/

theorem after_requireConstraint (id : ConstraintId) :
    (requireConstraint id : Build α μ Unit).after w = w := by
  rcases hid : w.model.constraint? id with _ | c <;> simp [requireConstraint, hid, after_bind]

/-- A change behind a check that changes nothing. -/
theorem guarded_spec {guard : Build α μ Unit} (hguard : guard.after w = w)
    (f : Model α μ → Model α μ) :
    (∃ cause, (guard >>= fun _ => change f).answer w = .error cause) ∧
        (guard >>= fun _ => change f).after w = w ∨
      guard.answer w = .ok () ∧ (guard >>= fun _ => change f).answer w = .ok () ∧
        (guard >>= fun _ => change f).after w = { w with model := f w.model } := by
  rcases hanswer : guard.answer w with e | _
  · exact .inl ⟨⟨e, by rw [answer_bind, hanswer, error_bind]⟩,
      (after_bind_error hanswer _).trans hguard⟩
  · refine .inr ⟨rfl, by rw [answer_bind, hanswer, ok_bind, answer_change], ?_⟩
    rw [after_bind_ok hanswer, hguard, after_change]

/-- Only an objective can be named. -/
theorem nameObjective_spec (n : Option String) :
    (∃ cause, (nameObjective n : Build α μ Unit).answer w = .error cause) ∧
        (nameObjective n : Build α μ Unit).after w = w ∨
      w.model.objective?.isSome ∧ (nameObjective n : Build α μ Unit).answer w = .ok () ∧
        (nameObjective n : Build α μ Unit).after w =
          { w with model := { w.model with objectiveName? := n } } := by
  rcases hobjective : w.model.objective? with _ | o <;> simp [nameObjective, hobjective, after_bind]

end Build

end AlgebraicModel
