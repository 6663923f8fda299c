import Mathlib
import AlgebraicModel.Proofs.Expression.Validity
import AlgebraicModel.Proofs.Log.Answer
import AlgebraicModel.Proofs.Model.Operations

/-!
# Reachable models

A model starts empty with a valid configuration, and goes through any sequence of operations,
failed ones included, while the supply of fresh variables also serves others. Every operation does
one of a few things to the workspace; what all of them keep holds of every reachable model.

## Main definitions

* `Workspace.Action`, `Workspace.step`, `Workspace.run`: operations, one and in sequence
* `Workspace.Initial`, `Workspace.Reachable`: where a model starts, and what it can become
* `Workspace.drawn`, `Action.draws`, `Action.Brings`: what an action takes from the supply, and the
  expressions that it comes with
* `Workspace.Effect`: everything that one action can do
* `Model.Sound`: the invariant of a reachable model

## Main results

* `Workspace.effect_step`: an action does nothing else
* `Workspace.Reachable.sound`: reachable models are sound
-/

namespace AlgebraicModel

variable {α μ : Type}

/-! ## Registered variables -/

namespace Model

variable {m : Model α μ}

theorem isRegistered_iff {id : VariableId} : m.isRegistered id ↔ ∃ v ∈ m.vars, v.id = id := by
  simp [isRegistered]

theorem isRegistered_append {id : VariableId} (h : m.isRegistered id) (vs : List Variable) :
    ({ m with vars := m.vars ++ vs } : Model α μ).isRegistered id := by
  obtain ⟨v, hv, hid⟩ := isRegistered_iff.mp h
  exact isRegistered_iff.mpr ⟨v, List.mem_append_left vs hv, hid⟩

end Model

/-- The sides of a valid constraint have equal lengths. -/
theorem Constraint.length_sides {c : Constraint α} (h : c.check = .ok ()) :
    c.lhs.length = c.rhs.length := by
  obtain ⟨-, -, h⟩ := bind_eq_ok_iff.mp h
  obtain ⟨-, -, h⟩ := bind_eq_ok_iff.mp h
  by_contra hne
  simp [hne] at h

/-! ## Runs -/

variable [Scalar α]

namespace Workspace

/-- A call of an operation, or fresh variables taken from the supply outside the model. -/
inductive Action (α μ : Type) where
  | draw (n : ℕ)
  | addVariable (integrality : Integrality) (bounds : Bounds)
  | addContinuous (bounds : Bounds)
  | addBinary
  | addVector (n : ℕ)
  | registerVariable (v : Variable)
  | addConstraint (c : Constraint α)
  | setObjective (direction : Direction) (b : Operand α)
  | minimize (b : Operand α)
  | maximize (b : Operand α)
  | nameVariable (id : VariableId) (n : String)
  | annotateVariable (id : VariableId) (x : μ)
  | nameConstraint (id : ConstraintId) (n : String)
  | annotateConstraint (id : ConstraintId) (x : μ)
  | nameObjective (n : Option String)

/-- The workspace after one action. -/
def step (w : Workspace α μ) : Action α μ → Workspace α μ
  | .draw n => { w with ids := (w.ids.vector n).2 }
  | .addVariable integrality bounds => (Build.addVariable integrality bounds).after w
  | .addContinuous bounds => (Build.addContinuous bounds).after w
  | .addBinary => Build.addBinary.after w
  | .addVector n => (Build.addVector n).after w
  | .registerVariable v => (Build.registerVariable v).after w
  | .addConstraint c => (Build.addConstraint c).after w
  | .setObjective direction b => (Build.setObjective direction b).after w
  | .minimize b => (Build.minimize b).after w
  | .maximize b => (Build.maximize b).after w
  | .nameVariable id n => (Build.nameVariable id n).after w
  | .annotateVariable id x => (Build.annotateVariable id x).after w
  | .nameConstraint id n => (Build.nameConstraint id n).after w
  | .annotateConstraint id x => (Build.annotateConstraint id x).after w
  | .nameObjective n => (Build.nameObjective n).after w

/-- The workspace after a history of actions. -/
def run (w : Workspace α μ) (history : List (Action α μ)) : Workspace α μ :=
  history.foldl step w

@[simp] theorem run_nil (w : Workspace α μ) : w.run [] = w := rfl

@[simp] theorem run_concat (w : Workspace α μ) (history : List (Action α μ)) (a : Action α μ) :
    w.run (history ++ [a]) = (w.run history).step a := by
  simp [run]

/-- A new model, with a valid configuration. The supply may have served others before. -/
def Initial (w : Workspace α μ) : Prop :=
  ∃ config, (Model.withConfig config).result = .ok w.model

/-- A workspace that operations can lead to. -/
def Reachable (w : Workspace α μ) : Prop :=
  ∃ (w₀ : Workspace α μ) (history : List (Action α μ)), w₀.Initial ∧ w = w₀.run history

/-! ## What an action can do -/

/-- The variables that an action takes from the supply for the model. -/
def drawn (w : Workspace α μ) : Action α μ → List Variable
  | .addVariable integrality bounds =>
    if bounds.isValid then [(w.ids.variableWith integrality bounds).1] else []
  | .addContinuous bounds =>
    if bounds.isValid then [(w.ids.variableWith .continuous bounds).1] else []
  | .addBinary => [(w.ids.variableWith .binary .unit).1]
  | .addVector n => (w.ids.vector n).1
  | _ => []

/-- How many identities an action takes from the supply. -/
def Action.draws : Action α μ → ℕ
  | .draw n | .addVector n => n
  | .addVariable _ bounds | .addContinuous bounds => if bounds.isValid then 1 else 0
  | .addBinary => 1
  | _ => 0

/-- An action comes with an expression: a side of a constraint, or an objective. -/
def Action.Brings : Action α μ → Expression α → Prop
  | .addConstraint c, e => e = c.lhs ∨ e = c.rhs
  | .setObjective _ b, e | .minimize b, e | .maximize b, e => b.toExpression = .ok e
  | _, _ => False

/-- Everything that one action can do to a workspace, with the variables that it takes from the
supply. -/
inductive Effect (w : Workspace α μ) (a : Action α μ) : List Variable → Workspace α μ → Prop
  | draw (vs : List Variable) (hids : vs.map (·.id) ⊆ (w.ids.vector a.draws).1.map (·.id))
      (hvs : ∀ v ∈ vs, v.bounds.isValid) :
      Effect w a vs ({ w with ids := (w.ids.vector a.draws).2 }.append vs)
  | adopt (v : Variable) (hcheck : v.check = .ok ()) (hnew : w.model.isRegistered v.id = false) :
      Effect w a [] (w.append [v])
  | constrain (c : Constraint α) (hbrings : a.Brings c.lhs ∧ a.Brings c.rhs)
      (hcheck : c.check = .ok ()) (hregistered : ∀ v ∈ c.vars, w.model.isRegistered v.id)
      (hlast : w.model.lastConstraint ≠ 0xffffffff) :
      Effect w a [] { w with model := { w.model with
        constraints := w.model.constraints ++ [(⟨w.model.lastConstraint + 1⟩, c)]
        lastConstraint := w.model.lastConstraint + 1 } }
  | objective (direction : Direction) (e : Expression α) (hbrings : a.Brings e)
      (he : w.model.Admits e) :
      Effect w a [] { w with model := { w.model with
        objective? := some ⟨direction, e⟩, objectiveName? := none } }
  | label (variableLabels : Labels VariableId μ) (constraintLabels : Labels ConstraintId μ)
      (objectiveName? : Option String) :
      Effect w a [] { w with model :=
        { w.model with variableLabels, constraintLabels, objectiveName? } }

variable {a : Action α μ}

theorem effect_idle (w : Workspace α μ) (a : Action α μ) : w.Effect a [] w :=
  .label _ _ _

theorem effect_addVariable (w : Workspace α μ) (integrality : Integrality) (bounds : Bounds)
    (ha : a.draws = if bounds.isValid then 1 else 0) :
    w.Effect a (if bounds.isValid then [(w.ids.variableWith integrality bounds).1] else [])
      ((Build.addVariable integrality bounds).after w) := by
  rw [Build.after_addVariable]
  by_cases hbounds : bounds.isValid
  · have heffect := Effect.draw (w := w) (a := a) [(w.ids.variableWith integrality bounds).1]
      (by simp [ha, hbounds, IdSupply.vector, IdSupply.variableWith])
      (by simpa [IdSupply.variableWith] using hbounds)
    simpa [ha, hbounds, IdSupply.vector, IdSupply.variableWith] using heffect
  · rw [if_neg hbounds, if_neg hbounds]
    exact w.effect_idle a

theorem unbounded_of_mem_vector {ids : IdSupply} {n : ℕ} {v : Variable}
    (hv : v ∈ (ids.vector n).1) : v.bounds = .unbounded := by
  induction n generalizing ids with
  | zero => simp [IdSupply.vector] at hv
  | succ n ih =>
    rcases List.mem_cons.mp hv with rfl | hv
    · rfl
    · exact ih hv

theorem effect_setObjective (w : Workspace α μ) (direction : Direction) {b : Operand α}
    (ha : ∀ e, b.toExpression = .ok e → a.Brings e) :
    w.Effect a [] ((Build.setObjective direction b).after w) := by
  rcases Build.setObjective_spec direction b with ⟨-, h⟩ | ⟨e, hb, he, -, h⟩
  · exact h ▸ w.effect_idle a
  · exact h ▸ .objective direction e (ha e hb) he

theorem effect_optimize (w : Workspace α μ) (direction : Direction) {b : Operand α}
    (ha : ∀ e, b.toExpression = .ok e → a.Brings e) :
    w.Effect a [] ((Build.optimize direction b).after w) := by
  rcases Build.optimize_spec direction b with ⟨-, h⟩ | ⟨-, h⟩
  · exact h ▸ w.effect_idle a
  · exact h ▸ w.effect_setObjective direction ha

theorem effect_guarded {w : Workspace α μ} {guard : Build α μ Unit} (hguard : guard.after w = w)
    {f : Model α μ → Model α μ} (hf : w.Effect a [] { w with model := f w.model }) :
    w.Effect a [] ((guard >>= fun _ => Build.change f).after w) := by
  rcases Build.guarded_spec hguard f with ⟨-, h⟩ | ⟨-, -, h⟩
  · exact h.symm ▸ w.effect_idle a
  · exact h.symm ▸ hf

/-- An action has one of the effects. -/
theorem effect_step (w : Workspace α μ) (a : Action α μ) : w.Effect a (w.drawn a) (w.step a) := by
  have hvariable (id : VariableId) := (Build.requireVariable_spec (w := w) id).1
  have hconstraint (id : ConstraintId) := Build.after_requireConstraint (w := w) id
  cases a with
  | draw n =>
    have heffect := Effect.draw (w := w) (a := .draw n) [] (by simp) (by simp)
    rw [append_nil] at heffect
    exact heffect
  | addVariable integrality bounds => exact w.effect_addVariable integrality bounds rfl
  | addContinuous bounds => exact w.effect_addVariable .continuous bounds rfl
  | addBinary =>
    have hunit : Bounds.unit.isValid := by decide
    rw [step, Build.after_addBinary]
    exact .draw _ (by simp [drawn, Action.draws, IdSupply.vector, IdSupply.variableWith])
      (by simpa [drawn, IdSupply.variableWith] using hunit)
  | addVector n =>
    have hunbounded : Bounds.unbounded.isValid := by decide
    rw [step, Build.after_addVector]
    exact .draw _ (List.Subset.refl _) fun v hv => unbounded_of_mem_vector hv ▸ hunbounded
  | registerVariable v =>
    rw [step]
    rcases Build.registerVariable_spec (w := w) v with ⟨-, h⟩ | ⟨hcheck, -, h⟩
    · exact h.symm ▸ w.effect_idle _
    rw [h]
    split
    · rw [append_nil]
      exact w.effect_idle _
    · next hnew => exact .adopt v hcheck (by simpa using hnew)
  | addConstraint c =>
    rw [step]
    rcases Build.addConstraint_spec (w := w) c with ⟨-, h⟩ | ⟨hcheck, hregistered, hlast, -, h⟩
    · exact h.symm ▸ w.effect_idle _
    · exact h.symm ▸ .constrain c ⟨.inl rfl, .inr rfl⟩ hcheck hregistered hlast
  | setObjective direction b => exact w.effect_setObjective direction fun _ => id
  | minimize b => exact w.effect_optimize .minimize fun _ => id
  | maximize b => exact w.effect_optimize .maximize fun _ => id
  | nameVariable id n => exact effect_guarded (hvariable id) (.label _ _ _)
  | annotateVariable id x => exact effect_guarded (hvariable id) (.label _ _ _)
  | nameConstraint id n => exact effect_guarded (hconstraint id) (.label _ _ _)
  | annotateConstraint id x => exact effect_guarded (hconstraint id) (.label _ _ _)
  | nameObjective n =>
    rw [step]
    rcases Build.nameObjective_spec (w := w) n with ⟨-, h⟩ | ⟨-, -, h⟩
    · exact h.symm ▸ w.effect_idle _
    · exact h.symm ▸ .label _ _ n

end Workspace

/-! ## The invariant -/

namespace Model

/-- What every operation keeps. Constraints are numbered in order, and mention registered variables
only. -/
structure Sound (m : Model α μ) : Prop where
  configured : m.config.validate = .ok ()
  bounded : ∀ v ∈ m.vars, v.bounds.isValid
  numbered : m.constraints.map (·.1.value.toNat) = List.range' 1 m.lastConstraint.toNat
  checked : ∀ p ∈ m.constraints, p.2.check = .ok ()
  registered : ∀ p ∈ m.constraints, ∀ v ∈ p.2.vars, m.isRegistered v.id
  objective : ∀ o, m.objective? = some o → m.Admits o.expression

variable {m : Model α μ}

/-- An objective stays admissible while its variables stay registered. -/
theorem Admits.mono {m' : Model α μ} {e : Expression α} (h : m.Admits e)
    (hm : ∀ id, m.isRegistered id → m'.isRegistered id) : m'.Admits e :=
  ⟨h.checked, h.scalar, h.affine, fun v hv => hm v.id (h.registered v hv)⟩

/-- More variables with valid bounds do no harm. -/
theorem Sound.append (h : m.Sound) {vs : List Variable} (hvs : ∀ v ∈ vs, v.bounds.isValid) :
    ({ m with vars := m.vars ++ vs } : Model α μ).Sound where
  configured := h.configured
  bounded v hv := (List.mem_append.mp hv).elim (h.bounded v) (hvs v)
  numbered := h.numbered
  checked := h.checked
  registered p hp v hv := isRegistered_append (h.registered p hp v hv) vs
  objective o ho := (h.objective o ho).mono fun _ hid => isRegistered_append hid vs

/-- The constraints of a sound model have different identities. -/
theorem Sound.nodup_constraints (h : m.Sound) : (m.constraints.map (·.1)).Nodup := by
  have hnumbers : ((m.constraints.map (·.1)).map (·.value.toNat)).Nodup := by
    rw [List.map_map]
    exact h.numbered ▸ List.nodup_range'
  exact hnumbers.of_map _

end Model

theorem toNat_succ_of_ne {n : UInt32} (h : n ≠ 0xffffffff) : (n + 1).toNat = n.toNat + 1 := by
  have hlt : n.toNat ≠ 4294967295 := fun h' => h (UInt32.toNat_inj.mp h')
  have hbound := n.toNat_lt
  rw [UInt32.toNat_add]
  simp only [UInt32.toNat_one]
  omega

namespace Workspace

variable {w w' : Workspace α μ}

theorem Initial.exists_config (h : w.Initial) :
    ∃ config : Config α, config.validate = .ok () ∧ w.model = { config } := by
  obtain ⟨config, h⟩ := h
  simp only [Model.withConfig] at h
  split at h
  · simp at h
  · next hvalid =>
    simp only [Logged.result_bind, Logged.result_record, ok_bind] at h
    rcases hconfig : config.validate with fault | _
    · exact (hvalid fault hconfig).elim
    · exact ⟨config, hconfig, (Except.ok.inj h).symm⟩

theorem Initial.sound (h : w.Initial) : w.model.Sound := by
  obtain ⟨config, hconfig, hmodel⟩ := h.exists_config
  rw [hmodel]
  exact ⟨hconfig, by simp, rfl, by simp, by simp, by simp⟩

/-- Every effect keeps the invariant. -/
theorem Effect.sound {a : Action α μ} {vs : List Variable} (h : w.Effect a vs w')
    (hw : w.model.Sound) : w'.model.Sound := by
  cases h with
  | draw vs hids hvs => exact hw.append hvs
  | adopt v hcheck hnew => exact hw.append (by simpa using (Variable.check_eq_ok_iff.mp hcheck).2)
  | constrain c hbrings hcheck hregistered hlast =>
    refine ⟨hw.configured, hw.bounded, ?_, ?_, ?_, ?_⟩
    · rw [List.map_append, hw.numbered, toNat_succ_of_ne hlast, List.range'_concat]
      simp [toNat_succ_of_ne hlast, add_comm]
    · exact List.forall_mem_append.mpr ⟨hw.checked, List.forall_mem_singleton.mpr hcheck⟩
    · exact List.forall_mem_append.mpr ⟨hw.registered, List.forall_mem_singleton.mpr hregistered⟩
    · exact fun o ho => (hw.objective o ho).mono fun _ hid => hid
  | objective direction e hbrings he =>
    refine ⟨hw.configured, hw.bounded, hw.numbered, hw.checked, hw.registered, ?_⟩
    rintro o ⟨rfl⟩
    exact he.mono fun _ hid => hid
  | label variableLabels constraintLabels objectiveName? =>
    exact ⟨hw.configured, hw.bounded, hw.numbered, hw.checked, hw.registered,
      fun o ho => (hw.objective o ho).mono fun _ hid => hid⟩

/-- **Reachable models are sound.** -/
theorem Reachable.sound (h : w.Reachable) : w.model.Sound := by
  obtain ⟨w₀, history, hinitial, rfl⟩ := h
  -- By induction on the history, from its end: the last action keeps what the run before it had.
  induction history using List.reverseRecOn with
  | nil => exact hinitial.sound
  | append_singleton history a ih =>
    rw [run_concat]
    exact (effect_step _ a).sound ih

end Workspace

end AlgebraicModel
