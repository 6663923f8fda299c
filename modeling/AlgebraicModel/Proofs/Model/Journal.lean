import Mathlib
import AlgebraicModel.Proofs.Model.Atomic
import AlgebraicModel.Proofs.Model.Columns

/-!
# The journal of a run

What a run does to a model is a list of entries, one for each operation that succeeded, read off
its arguments and its answer. Entering them one after the other gives the model back: an operation
that fails leaves no trace, and no operation does anything but what its entry says.

## Main definitions

* `Model.Entry`, `Model.enter`: what a successful operation did, and how it changes a model
* `Workspace.entryOf?`, `Workspace.journal`: the entry of an operation, and the entries of a run

## Main results

* `Workspace.entryOf?_eq_none_iff`, `journal_concat`: the actions that a journal lists
* `Workspace.model_step`: an operation enters its entry, or does nothing
* `Workspace.model_run`: the model after a run is made of the journal
-/

namespace AlgebraicModel

variable {α μ β : Type}

/-! ## Folds that keep a record -/

/-- A fold that adds to a list at every step. -/
theorem foldl_append_of_step {σ γ : Type} {f : σ → β → σ} (get : σ → List γ)
    {put : β → List γ} (h : ∀ s x, get (f s x) = get s ++ put x) (s : σ) (xs : List β) :
    get (xs.foldl f s) = get s ++ xs.flatMap put := by
  induction xs generalizing s with
  | nil => simp
  | cons x xs ih => rw [List.foldl_cons, ih, h, List.append_assoc, List.flatMap_cons]

/-- A fold that overwrites a value at some of its steps keeps the last one. -/
theorem foldl_getLast?_of_step {σ γ : Type} {f : σ → β → σ} (get : σ → Option γ)
    {write : β → Option γ} (h : ∀ s x, get (f s x) = (write x).or (get s)) (s : σ) (xs : List β) :
    get (xs.foldl f s) = (xs.filterMap write).getLast?.or (get s) := by
  induction xs generalizing s with
  | nil => simp
  | cons x xs ih =>
    rw [List.foldl_cons, ih, h]
    cases hx : write x <;> simp [hx, List.getLast?_cons, Option.or_some]

/-- The last value of a kind is that of the last entry that has one. -/
theorem getLast?_filterMap_eq_some_iff {γ : Type} {f : β → Option γ} {xs : List β} {c : γ} :
    (xs.filterMap f).getLast? = some c ↔
      ∃ before x after, xs = before ++ x :: after ∧ f x = some c ∧ ∀ y ∈ after, f y = none := by
  rw [List.getLast?_eq_head?_reverse, ← List.filterMap_reverse, List.head?_filterMap,
    List.findSome?_eq_some_iff]
  constructor
  · rintro ⟨after, x, before, hsplit, hx, hafter⟩
    refine ⟨before.reverse, x, after.reverse, ?_, hx, by simpa using hafter⟩
    simpa using congrArg List.reverse hsplit
  · rintro ⟨before, x, after, rfl, hx, hafter⟩
    exact ⟨after.reverse, x, before.reverse, by simp, hx, by simpa using hafter⟩

/-! ## Entries -/

/-- What an operation that succeeded did: the variables that it put at the end of the list, the
constraint and its identity, the objective or its name, or a label. -/
inductive Model.Entry (α μ : Type) where
  | listed (vs : List Variable)
  | constrained (id : ConstraintId) (c : Constraint α)
  | posed (o : Objective α)
  | titled (n : Option String)
  | variableNamed (id : VariableId) (n : String)
  | variableAnnotated (id : VariableId) (x : μ)
  | constraintNamed (id : ConstraintId) (n : String)
  | constraintAnnotated (id : ConstraintId) (x : μ)

open Model (Entry)

/-- The model with one more entry. -/
def Model.enter (m : Model α μ) : Entry α μ → Model α μ
  | .listed vs => { m with vars := m.vars ++ vs }
  | .constrained id c =>
    { m with constraints := m.constraints ++ [(id, c)], lastConstraint := id.value }
  | .posed o => { m with objective? := some o, objectiveName? := none }
  | .titled n => { m with objectiveName? := n }
  | .variableNamed id n => { m with variableLabels := m.variableLabels.setName id n }
  | .variableAnnotated id x => { m with variableLabels := m.variableLabels.setMetadata id x }
  | .constraintNamed id n => { m with constraintLabels := m.constraintLabels.setName id n }
  | .constraintAnnotated id x => { m with constraintLabels := m.constraintLabels.setMetadata id x }

/-! ## Operations as entries -/

namespace Build

variable {w : Workspace α μ}

/-- The operation does to the model what its answer says, and nothing when it fails. -/
def Enters (x : Build α μ β) (w : Workspace α μ) (entry : β → Entry α μ) : Prop :=
  (x.after w).model = ((x.answer w).toOption.map entry).elim w.model w.model.enter

theorem enters_of_ok {x : Build α μ β} {entry : β → Entry α μ} {b : β}
    (hanswer : x.answer w = .ok b) (hafter : (x.after w).model = w.model.enter (entry b)) :
    x.Enters w entry := by
  rw [Enters, hanswer]
  exact hafter

theorem enters_of_error {x : Build α μ β} {entry : β → Entry α μ}
    (hanswer : ∃ cause, x.answer w = .error cause) (hafter : x.after w = w) : x.Enters w entry := by
  obtain ⟨cause, hanswer⟩ := hanswer
  rw [Enters, hanswer, hafter]
  rfl

theorem enters_addVariable (integrality : Integrality) (bounds : Bounds) :
    (addVariable integrality bounds).Enters w fun v => .listed [v] := by
  by_cases hbounds : bounds.isValid
  · exact enters_of_ok (by rw [answer_addVariable, if_pos hbounds])
      (by rw [after_addVariable, if_pos hbounds]; rfl)
  · exact enters_of_error ⟨_, by rw [answer_addVariable, if_neg hbounds]⟩
      (by rw [after_addVariable, if_neg hbounds])

theorem enters_addBinary : (addBinary : Build α μ Variable).Enters w fun v => .listed [v] :=
  enters_of_ok answer_addBinary (by rw [after_addBinary]; rfl)

theorem enters_addVector (n : ℕ) : (addVector n : Build α μ _).Enters w fun vs => .listed vs :=
  enters_of_ok (answer_addVector n) (by rw [after_addVector]; rfl)

theorem enters_registerVariable (v : Variable) : (registerVariable v).Enters w
    fun _ => .listed (if w.model.isRegistered v.id then [] else [v]) := by
  rcases registerVariable_spec (w := w) v with ⟨hanswer, hafter⟩ | ⟨-, hanswer, hafter⟩
  · exact enters_of_error hanswer hafter
  · exact enters_of_ok hanswer (by rw [hafter]; rfl)

theorem enters_addConstraint (c : Constraint α) :
    (addConstraint c).Enters w fun id => .constrained id c := by
  rcases addConstraint_spec (w := w) c with ⟨hanswer, hafter⟩ | ⟨-, -, -, hanswer, hafter⟩
  · exact enters_of_error hanswer hafter
  · exact enters_of_ok hanswer (by rw [hafter]; rfl)

/-- A change behind a check. -/
theorem enters_guarded {guard : Build α μ Unit} (hguard : guard.after w = w)
    {f : Model α μ → Model α μ} {entry : Entry α μ} (hf : f w.model = w.model.enter entry) :
    (guard >>= fun _ => change f).Enters w fun _ => entry := by
  rcases guarded_spec hguard f with ⟨hanswer, hafter⟩ | ⟨-, hanswer, hafter⟩
  · exact enters_of_error hanswer hafter
  · exact enters_of_ok hanswer (by rw [hafter, hf])

theorem enters_nameObjective (n : Option String) :
    (nameObjective n : Build α μ Unit).Enters w fun _ => .titled n := by
  rcases nameObjective_spec (w := w) n with ⟨hanswer, hafter⟩ | ⟨-, hanswer, hafter⟩
  · exact enters_of_error hanswer hafter
  · exact enters_of_ok hanswer (by rw [hafter]; rfl)

section Objective

variable [Scalar α]

/-- The entry of an objective that was set: the operand, read as an expression. -/
def posed? (answer : Except (Model.Error α) Unit) (direction : Direction) (b : Operand α) :
    Option (Entry α μ) :=
  answer.toOption.bind fun _ => b.toExpression.toOption.map fun e => .posed ⟨direction, e⟩

theorem exists_toExpression_of_setObjective {direction : Direction} {b : Operand α}
    (h : (setObjective direction b).answer w = .ok ()) : ∃ e, b.toExpression = .ok e := by
  rcases setObjective_spec (w := w) direction b with ⟨⟨cause, hanswer⟩, -⟩ | ⟨e, hb, -⟩
  · rw [hanswer] at h
    cases h
  · exact ⟨e, hb⟩

theorem exists_toExpression_of_optimize {direction : Direction} {b : Operand α}
    (h : (optimize direction b).answer w = .ok ()) : ∃ e, b.toExpression = .ok e := by
  rcases optimize_spec (w := w) direction b with ⟨⟨cause, hanswer⟩, -⟩ | ⟨hanswer, -⟩
  · rw [hanswer] at h
    cases h
  · exact exists_toExpression_of_setObjective (hanswer.symm.trans h)

theorem model_after_setObjective (direction : Direction) (b : Operand α) :
    ((setObjective direction b).after w).model =
      (posed? ((setObjective direction b).answer w) direction b).elim w.model w.model.enter := by
  rcases setObjective_spec (w := w) direction b with
    ⟨⟨cause, hanswer⟩, hafter⟩ | ⟨e, hb, -, hanswer, hafter⟩
  · rw [hanswer, hafter]
    rfl
  · rw [hanswer, hafter, posed?, hb]
    rfl

theorem model_after_optimize (direction : Direction) (b : Operand α) :
    ((optimize direction b).after w).model =
      (posed? ((optimize direction b).answer w) direction b).elim w.model w.model.enter := by
  rcases optimize_spec (w := w) direction b with ⟨⟨cause, hanswer⟩, hafter⟩ | ⟨hanswer, hafter⟩
  · rw [hanswer, hafter]
    rfl
  · rw [hanswer, hafter]
    exact model_after_setObjective direction b

end Objective

end Build

/-! ## Runs as journals -/

namespace Workspace

variable [Scalar α] {w : Workspace α μ}

/-- The entry of an action, if it succeeds: what it did to the model, read off its arguments and its
answer. A variable that was registered before is not listed again. -/
def entryOf? (w : Workspace α μ) : Action α μ → Option (Entry α μ)
  | .draw _ => none
  | .addVariable integrality bounds =>
    ((Build.addVariable integrality bounds).answer w).toOption.map fun v => .listed [v]
  | .addContinuous bounds =>
    ((Build.addContinuous bounds).answer w).toOption.map fun v => .listed [v]
  | .addBinary => (Build.addBinary.answer w).toOption.map fun v => .listed [v]
  | .addVector n => ((Build.addVector n).answer w).toOption.map fun vs => .listed vs
  | .registerVariable v => ((Build.registerVariable v).answer w).toOption.map fun _ =>
    .listed (if w.model.isRegistered v.id then [] else [v])
  | .addConstraint c => ((Build.addConstraint c).answer w).toOption.map fun id => .constrained id c
  | .setObjective direction b =>
    Build.posed? ((Build.setObjective direction b).answer w) direction b
  | .minimize b => Build.posed? ((Build.minimize b).answer w) .minimize b
  | .maximize b => Build.posed? ((Build.maximize b).answer w) .maximize b
  | .nameVariable id n =>
    ((Build.nameVariable id n).answer w).toOption.map fun _ => .variableNamed id n
  | .annotateVariable id x =>
    ((Build.annotateVariable id x).answer w).toOption.map fun _ => .variableAnnotated id x
  | .nameConstraint id n =>
    ((Build.nameConstraint id n).answer w).toOption.map fun _ => .constraintNamed id n
  | .annotateConstraint id x =>
    ((Build.annotateConstraint id x).answer w).toOption.map fun _ => .constraintAnnotated id x
  | .nameObjective n => ((Build.nameObjective n).answer w).toOption.map fun _ => .titled n

/-- An action that succeeds has an entry, unless it only draws from the supply. -/
theorem entryOf?_eq_none_iff {a : Action α μ} :
    w.entryOf? a = none ↔ (∃ n, a = .draw n) ∨ ∃ cause, w.error? a = some cause := by
  have hanswer {β : Type} (x : Except (Model.Error α) β) (f : β → Entry α μ) :
      x.toOption.map f = none ↔ ∃ cause, failure? x = some cause := by
    cases x <;> simp [Except.toOption]
  have hposed {x : Build α μ Unit} {b : Operand α} (direction : Direction)
      (hx : x.answer w = .ok () → ∃ e, b.toExpression = .ok e) :
      Build.posed? (x.answer w) direction b = (none : Option (Entry α μ)) ↔
        ∃ cause, failure? (x.answer w) = some cause := by
    rcases h : x.answer w with cause | _
    · simp [Build.posed?, Except.toOption]
    · obtain ⟨e, he⟩ := hx h
      simp [Build.posed?, Except.toOption, he]
  cases a with
  | draw n => exact iff_of_true rfl (.inl ⟨n, rfl⟩)
  | addBinary =>
    simp only [reduceCtorEq, exists_false, false_or]
    rw [entryOf?, error?]
    exact hanswer _ _
  | setObjective direction b =>
    simp only [reduceCtorEq, exists_false, false_or]
    exact hposed _ Build.exists_toExpression_of_setObjective
  | minimize b | maximize b =>
    simp only [reduceCtorEq, exists_false, false_or]
    exact hposed _ Build.exists_toExpression_of_optimize
  | _ =>
    simp only [reduceCtorEq, exists_false, false_or]
    exact hanswer _ _

/-- The entries of a run, in the order of its actions. -/
def journal (w : Workspace α μ) : List (Action α μ) → List (Entry α μ)
  | [] => []
  | a :: history => (w.entryOf? a).toList ++ (w.step a).journal history

theorem journal_append (w : Workspace α μ) (before after : List (Action α μ)) :
    w.journal (before ++ after) = w.journal before ++ (w.run before).journal after := by
  induction before generalizing w with
  | nil => rfl
  | cons a before ih =>
    rw [List.cons_append, journal, ih, journal, List.append_assoc]
    rfl

/-- One more action adds its entry to the journal. -/
theorem journal_concat (w : Workspace α μ) (history : List (Action α μ)) (a : Action α μ) :
    w.journal (history ++ [a]) = w.journal history ++ ((w.run history).entryOf? a).toList := by
  rw [journal_append, journal, journal, List.append_nil]

/-- **An action enters its entry**, or does nothing to the model when it fails. -/
theorem model_step (w : Workspace α μ) (a : Action α μ) :
    (w.step a).model = (w.entryOf? a).elim w.model w.model.enter := by
  have hvariable (id : VariableId) := (Build.requireVariable_spec (w := w) id).1
  have hconstraint (id : ConstraintId) := Build.after_requireConstraint (w := w) id
  cases a with
  | draw n => rfl
  | addVariable integrality bounds => exact Build.enters_addVariable integrality bounds
  | addContinuous bounds => exact Build.enters_addVariable .continuous bounds
  | addBinary => exact Build.enters_addBinary
  | addVector n => exact Build.enters_addVector n
  | registerVariable v => exact Build.enters_registerVariable v
  | addConstraint c => exact Build.enters_addConstraint c
  | setObjective direction b => exact Build.model_after_setObjective direction b
  | minimize b => exact Build.model_after_optimize .minimize b
  | maximize b => exact Build.model_after_optimize .maximize b
  | nameVariable id n => exact Build.enters_guarded (hvariable id) rfl
  | annotateVariable id x => exact Build.enters_guarded (hvariable id) rfl
  | nameConstraint id n => exact Build.enters_guarded (hconstraint id) rfl
  | annotateConstraint id x => exact Build.enters_guarded (hconstraint id) rfl
  | nameObjective n => exact Build.enters_nameObjective n

/-- **The model after a run is made of the journal.** -/
theorem model_run (w : Workspace α μ) (history : List (Action α μ)) :
    (w.run history).model = (w.journal history).foldl Model.enter w.model := by
  induction history generalizing w with
  | nil => rfl
  | cons a history ih =>
    have hstep : (w.step a).model = (w.entryOf? a).toList.foldl Model.enter w.model := by
      rw [model_step]
      cases w.entryOf? a <;> rfl
    rw [journal, List.foldl_append, ← hstep]
    exact ih (w.step a)

end Workspace

end AlgebraicModel
