import Mathlib
import AlgebraicModel.Scalar.Double
import AlgebraicModel.Proofs.Expression.Widening
import AlgebraicModel.Proofs.Model.Meaning

/-!
# Lowering a growing model

A model that grows keeps the system that it had: more variables add columns of zeros on the right,
one more constraint adds rows at the end, and labels add nothing. Every coefficient is found anew in
the longer ordering, every row is simplified anew, and all of them come out as before.

## Main definitions

* `Row.widen`, `LinearObjective.widen`, `LinearSystem.widen`: more columns of zeros
* `LinearSystem.extend`: more rows at the end
* `Workspace.Action.addsVariables`, `Action.labels`: kinds of actions

## Main results

* `Config.simplify_widen`: what a row loses does not depend on columns of zeros
* `Model.linearize_append`: a model with more variables
* `Workspace.linearize_incremental`: lowering is incremental
-/

namespace AlgebraicModel

variable {α μ : Type} [Scalar α] {k : ℕ}

/-! ## Larger systems -/

/-- A row with `k` more columns. -/
def Row.widen (k : ℕ) (r : Row α) : Row α :=
  { r with coefficients := widenRow k r.coefficients }

def LinearObjective.widen (k : ℕ) (o : LinearObjective α) : LinearObjective α :=
  { o with coefficients := widenRow k o.coefficients }

namespace LinearSystem

/-- The system with `k` more columns, of zeros, on the right, and everything else as it was. -/
def widen (k : ℕ) (s : LinearSystem α) : LinearSystem α :=
  { s with matrix := s.matrix.widen k, objective? := s.objective?.map (·.widen k) }

/-- The system with more rows at the end, and the same columns and objective. -/
def extend (s : LinearSystem α) (rows : List (Row α)) : LinearSystem α where
  matrix := ⟨s.matrix.cols, s.matrix.rows ++ rows.map (·.coefficients)⟩
  rhs := s.rhs ++ rows.map (·.rhs)
  relations := s.relations ++ rows.map (·.relation)
  owners := s.owners ++ rows.map (·.owner)
  objective? := s.objective?

theorem ofRows_widen (cols : ℕ) (rows : List (Row α)) (objective? : Option (LinearObjective α)) :
    ofRows (cols + k) (rows.map (·.widen k)) (objective?.map (·.widen k)) =
      (ofRows cols rows objective?).widen k := by
  simp [ofRows, widen, Matrix.widen, Row.widen, Function.comp_def]

omit [Scalar α] in
theorem ofRows_append (cols : ℕ) (rows rows' : List (Row α))
    (objective? : Option (LinearObjective α)) :
    ofRows cols (rows ++ rows') objective? = (ofRows cols rows objective?).extend rows' := by
  simp [ofRows, extend]

end LinearSystem

/-! ## Rows -/

namespace Constraint

variable {c : Constraint α} {owner : ConstraintId} {order : ColumnOrder} {rows : List (Row α)}

/-- The rows of a constraint, in a longer ordering. -/
theorem rows_append (hsub : (0 : α) - 0 = 0) (h : c.rows owner order = .ok rows)
    (vs : List Variable) :
    c.rows owner (order.append vs) = .ok (rows.map (·.widen vs.length)) := by
  obtain ⟨left, right, hleft, hright, rfl⟩ := rows_eq_ok_iff.mp h
  obtain ⟨-, -, hleftRows⟩ := Expression.coefficients_shape hleft
  obtain ⟨-, -, hrightRows⟩ := Expression.coefficients_shape hright
  refine rows_eq_ok_iff.mpr ⟨_, _, Expression.coefficients_append hleft vs,
    Expression.coefficients_append hright vs, ?_⟩
  rw [block, block, Matrix.sub_widen hsub hleftRows hrightRows, Matrix.widen, List.zipWith_map_left,
    List.map_zipWith]
  rfl

end Constraint

namespace Config

theorem clear_widenRow (c : Config α) (row : List α) :
    c.clear (widenRow k row) = widenRow k (c.clear row) := by
  unfold clear
  -- A zero is cleared to zero, so it does not matter whether it counts as small.
  split
  · rfl
  · simp [clearSmall, widenRow]

/-- Whether a row says nothing does not depend on its zeros. -/
theorem isVacuous_widen (hzero : ((0 : α) == 0) = true) (r : Row α) (tolerance : α) :
    (r.widen k).isVacuous tolerance = r.isVacuous tolerance := by
  simp [Row.isVacuous, Row.widen, widenRow, hzero]

/-- What a row loses, and whether it is kept, does not depend on columns of zeros. -/
theorem simplify_widen (hzero : ((0 : α) == 0) = true) (c : Config α) (rows : List (Row α)) :
    c.simplify (rows.map (·.widen k)) = (c.simplify rows).map (·.widen k) := by
  have hkeeps : c.keeps ∘ Row.widen k = c.keeps := by
    funext r
    simp only [Function.comp_apply, keeps, isVacuous_widen hzero]
  have hclear (r : Row α) : ({ r.widen k with coefficients := c.clear (r.widen k).coefficients } :
      Row α) = ({ r with coefficients := c.clear r.coefficients } : Row α).widen k := by
    simp only [Row.widen, clear_widenRow]
  rw [simplify, simplify, List.map_map]
  simp only [Function.comp_def, hclear]
  rw [← Function.comp_def (Row.widen k), ← List.map_map, List.filter_map, hkeeps]

theorem simplify_append (c : Config α) (rows rows' : List (Row α)) :
    c.simplify (rows ++ rows') = c.simplify rows ++ c.simplify rows' := by
  simp [simplify]

theorem owner_of_mem_simplify {c : Config α} {rows : List (Row α)} {owner : ConstraintId}
    (h : ∀ r ∈ rows, r.owner = owner) : ∀ r ∈ c.simplify rows, r.owner = owner := by
  intro r hr
  obtain ⟨s, hs, rfl⟩ := List.mem_map.mp (List.mem_filter.mp hr).1
  exact h s hs

end Config

/-! ## Models -/

namespace Model

variable {m : Model α μ}

/-- The model with more variables at the end. -/
def append (m : Model α μ) (vs : List Variable) : Model α μ :=
  { m with vars := m.vars ++ vs }

omit [Scalar α] in
theorem order_append (m : Model α μ) (vs : List Variable) :
    (m.append vs).order = m.order.append vs :=
  ColumnOrder.ofVariables_append m.vars vs

/-- The rows of a model with more variables. -/
theorem rows_append (hsub : (0 : α) - 0 = 0) {all : List (Row α)} (h : m.rows.result = .ok all)
    (vs : List Variable) : (m.append vs).rows.result = .ok (all.map (·.widen vs.length)) := by
  obtain ⟨blocks, rfl, hforall⟩ := result_rows_eq_ok_iff.mp h
  refine result_rows_eq_ok_iff.mpr ⟨_, List.map_flatten, ?_⟩
  rw [order_append, List.forall₂_map_right_iff]
  exact hforall.imp fun p block hblock => Constraint.rows_append hsub hblock vs

theorem objectivePart_of_coefficients {o : Objective α} {a : Matrix α} (ho : m.objective? = some o)
    (ha : o.expression.coefficients m.order = .ok a) :
    m.objectivePart = .ok (some ⟨o.direction, m.config.clear (a.rows.headD []),
      o.expression.constant.headD 0⟩) := by
  simp [objectivePart, linearObjective, ho, ha]

/-- The objective of a model with more variables. -/
theorem objectivePart_append (hscalar : ∀ o, m.objective? = some o → o.expression.isVector = false)
    {objective? : Option (LinearObjective α)} (h : m.objectivePart = .ok objective?)
    (vs : List Variable) :
    (m.append vs).objectivePart = .ok (objective?.map (·.widen vs.length)) := by
  rcases ho : m.objective? with _ | o
  · obtain rfl : none = objective? := by simpa [objectivePart, ho] using h
    simp [objectivePart, append, ho]
  · rcases ha : o.expression.coefficients m.order with cause | a
    · simp [objectivePart, linearObjective, ho, ha] at h
    · rw [objectivePart_of_coefficients ho ha] at h
      obtain rfl := Except.ok.inj h
      have hone := Expression.length_of_scalar (hscalar o ho)
      obtain ⟨-, hlength, -⟩ := Expression.coefficients_shape ha
      obtain ⟨row, hrow⟩ := List.length_eq_one_iff.mp (hlength.trans hone)
      have ha' : o.expression.coefficients (m.append vs).order = .ok (a.widen vs.length) := by
        rw [order_append, Expression.coefficients_append ha vs]
      have ho' : (m.append vs).objective? = some o := ho
      rw [objectivePart_of_coefficients ho' ha', Matrix.widen, hrow]
      simp [LinearObjective.widen, ← Config.clear_widenRow, append]

/-- **A model with more variables** has the system with as many columns of zeros on the right. -/
theorem linearize_append (hsub : (0 : α) - 0 = 0) (hzero : ((0 : α) == 0) = true) (hm : m.Sound)
    {s : LinearSystem α} (h : m.linearize.result = .ok s) (vs : List Variable) :
    (m.append vs).linearize.result = .ok (s.widen vs.length) := by
  obtain ⟨hvars, all, objective?, hall, hobjective, rfl⟩ := linearize_eq_ok_iff.mp h
  have hscalar (o : Objective α) (ho : m.objective? = some o) := (hm.objective o ho).scalar
  refine linearize_eq_ok_iff.mpr ⟨by simp [append, hvars], _, _, rows_append hsub hall vs,
    objectivePart_append hscalar hobjective vs, ?_⟩
  have hcols : (m.append vs).numVariables = m.numVariables + vs.length := List.length_append
  rw [hcols, ← LinearSystem.ofRows_widen, ← Config.simplify_widen hzero]
  rfl

/-- **A model with one more constraint** has the system with more rows at the end, which are those
of the new constraint. -/
theorem linearize_addConstraint {id : ConstraintId} {c : Constraint α} {last : UInt32}
    {s s' : LinearSystem α} (h : m.linearize.result = .ok s)
    (h' : ({ m with constraints := m.constraints ++ [(id, c)], lastConstraint := last } :
      Model α μ).linearize.result = .ok s') :
    ∃ rows, s' = s.extend rows ∧ ∀ row ∈ rows, row.owner = id := by
  obtain ⟨-, all, objective?, hall, hobjective, rfl⟩ := linearize_eq_ok_iff.mp h
  obtain ⟨-, all', objective?', hall', hobjective', rfl⟩ := linearize_eq_ok_iff.mp h'
  obtain rfl : objective? = objective?' := Except.ok.inj (hobjective.symm.trans hobjective')
  rw [result_rows] at hall hall'
  obtain ⟨blocks, hblocks, rfl⟩ := map_eq_ok_iff.mp hall
  obtain ⟨blocks', hblocks', rfl⟩ := map_eq_ok_iff.mp hall'
  obtain ⟨blocks₀, hblocks₀, hrest⟩ := bind_eq_ok_iff.mp (List.mapM_append.symm.trans hblocks')
  obtain ⟨added, hadded, heq⟩ := bind_eq_ok_iff.mp hrest
  obtain rfl := Except.ok.inj heq
  obtain rfl : blocks = blocks₀ := Except.ok.inj (hblocks.symm.trans hblocks₀)
  refine ⟨m.config.simplify added.flatten, ?_, Config.owner_of_mem_simplify ?_⟩
  · rw [List.flatten_append, Config.simplify_append, LinearSystem.ofRows_append]
    rfl
  · intro row hrow
    obtain ⟨block, hblock, hrow⟩ := List.mem_flatten.mp hrow
    obtain ⟨p, hp, hrows⟩ := exists_of_forall₂ (mapM_eq_ok_iff.mp hadded) hblock
    obtain rfl := List.mem_singleton.mp hp
    exact Constraint.owner_of_mem_rows (mapError_eq_ok_iff.mp hrows) hrow

end Model

/-! ## Actions -/

namespace Workspace

/-- The actions that put variables into the model. -/
def Action.addsVariables : Action α μ → Bool
  | .addVariable _ _ | .addContinuous _ | .addBinary | .addVector _ | .registerVariable _ => true
  | _ => false

/-- The actions on names and metadata. -/
def Action.labels : Action α μ → Bool
  | .nameVariable _ _ | .annotateVariable _ _ | .nameConstraint _ _ | .annotateConstraint _ _
  | .nameObjective _ => true
  | _ => false

variable {w : Workspace α μ} {a : Action α μ}

/-- Variables are added at the end, and nothing else of the model changes. -/
theorem exists_model_step_eq_append (ha : a.addsVariables) :
    ∃ vs, (w.step a).model = w.model.append vs := by
  have hnone : w.model = w.model.append [] := by simp [Model.append]
  have hfresh (integrality : Integrality) (bounds : Bounds) :
      ∃ vs, ((Build.addVariable integrality bounds).after w).model = w.model.append vs := by
    rw [Build.after_addVariable]
    split
    · exact ⟨_, rfl⟩
    · exact ⟨[], hnone⟩
  cases a with
  | addVariable integrality bounds => exact hfresh integrality bounds
  | addContinuous bounds => exact hfresh .continuous bounds
  | addBinary => exact ⟨_, congrArg _ Build.after_addBinary⟩
  | addVector n => exact ⟨_, congrArg _ (Build.after_addVector n)⟩
  | registerVariable v =>
    rw [step]
    rcases Build.registerVariable_spec (w := w) v with ⟨-, h⟩ | ⟨-, -, h⟩
    · exact ⟨[], h.symm ▸ hnone⟩
    · exact ⟨_, congrArg _ h⟩
  | _ => cases ha

/-- Labels do not show in the system. -/
theorem linearize_step_of_labels (ha : a.labels) :
    (w.step a).model.linearize = w.model.linearize := by
  have hlabel {guard : Build α μ Unit} (hguard : guard.after w = w) {f : Model α μ → Model α μ}
      (hf : ∀ m, (f m).linearize = m.linearize) :
      ((guard >>= fun _ => Build.change f).after w).model.linearize = w.model.linearize := by
    rcases Build.guarded_spec hguard f with ⟨-, h⟩ | ⟨-, -, h⟩
    · rw [h]
    · rw [h, hf]
  cases a with
  | nameVariable id n | annotateVariable id x =>
    exact hlabel (Build.requireVariable_spec id).1 fun m => rfl
  | nameConstraint id n | annotateConstraint id x =>
    exact hlabel (Build.after_requireConstraint id) fun m => rfl
  | nameObjective n =>
    rw [step]
    rcases Build.nameObjective_spec (w := w) n with ⟨-, h⟩ | ⟨-, -, h⟩
    · rw [h]
    · rw [h]
      rfl
  | _ => cases ha

/-- **Lowering is incremental.** Let a reachable model have a system. After variables are added, it
has that system with one column of zeros on the right for each of them, also where one of them
repeats an identity; after a constraint is added, if there is a system, the old one with the rows of
the new constraint at the end; and after labels are changed, the same system. -/
theorem linearize_incremental {w : Workspace Float μ} (hw : w.Reachable) {s : LinearSystem Float}
    (hs : w.model.linearize.result = .ok s) :
    (∀ a : Action Float μ, a.addsVariables → ∃ vs, (w.step a).model.vars = w.model.vars ++ vs ∧
      (w.step a).model.linearize.result = .ok (s.widen vs.length)) ∧
    (∀ (c : Constraint Float) (id : ConstraintId) (s' : LinearSystem Float),
      (Build.addConstraint c).answer w = .ok id →
      (w.step (.addConstraint c)).model.linearize.result = .ok s' →
        ∃ rows, s' = s.extend rows ∧ ∀ row ∈ rows, row.owner = id) ∧
    ∀ a : Action Float μ, a.labels → (w.step a).model.linearize = w.model.linearize := by
  refine ⟨?_, ?_, fun a => linearize_step_of_labels⟩
  · intro a ha
    obtain ⟨vs, hvs⟩ := exists_model_step_eq_append (w := w) ha
    rw [hvs]
    exact ⟨vs, rfl, Model.linearize_append (by decide) (by decide) hw.sound hs vs⟩
  · intro c id s' hid hs'
    rw [step, Build.after_addConstraint_of_answer hid] at hs'
    exact Model.linearize_addConstraint hs hs'

/-- The constraint `x₁ ≤ 6` and the objective `x₁`, before the supply gives out `x₁` once more, and
before the constraint `x₁ - 2 ≤ x₁` is added. -/
theorem linearize_incremental_repeated :
    let x₁ : Variable := ⟨⟨1⟩, .unbounded, .continuous⟩
    let e : Expression Float := .var (.scalar x₁)
    let c : Constraint Float :=
      ⟨.poly (.scalar (.ofTerms [.ofVariable x₁, .const (-2)])), .le, e, false⟩
    let w : Workspace Float Unit := run {} [.registerVariable x₁,
      .addConstraint ⟨e, .le, .const (.scalar 6), false⟩, .minimize (.expression e)]
    let s : LinearSystem Float :=
      ⟨⟨1, [[1]]⟩, [6], [.le], [⟨1⟩], some ⟨.minimize, [1], 0⟩⟩
    w.Reachable ∧ w.model.linearize.result = .ok s ∧
      (w.step .addBinary).model.vars.map (·.id) = [⟨1⟩, ⟨1⟩] ∧
      (w.step .addBinary).model.linearize.result =
        .ok ⟨⟨2, [[1, 0]]⟩, [6], [.le], [⟨1⟩], some ⟨.minimize, [1, 0], 0⟩⟩ ∧
      (∃ rows, (w.step (.addConstraint c)).model.linearize.result = .ok (s.extend rows) ∧
        rows ≠ [] ∧ ∀ row ∈ rows, row.owner = ⟨2⟩) ∧
      (w.step (.nameVariable ⟨1⟩ "x")).model.linearize = w.model.linearize := by
  intro x₁ e c w s
  have hw : w.Reachable := ⟨{}, _, ⟨{}, rfl⟩, rfl⟩
  have hs : w.model.linearize.result = .ok s := eq_ok_of_toOption (by decide +kernel)
  have hid : (Build.addConstraint c).answer w = .ok ⟨2⟩ := eq_ok_of_toOption (by decide +kernel)
  obtain ⟨hvariables, hconstraint, hlabels⟩ := linearize_incremental hw hs
  refine ⟨hw, hs, by decide +kernel, ?_, ?_, hlabels _ rfl⟩
  · obtain ⟨vs, hvs, hwiden⟩ := hvariables .addBinary rfl
    have hone : vs.length = 1 := by
      have hbefore : w.model.vars.length = 1 := by decide +kernel
      have hafter : (w.step .addBinary).model.vars.length = 2 := by decide +kernel
      rw [hvs, List.length_append] at hafter
      omega
    rw [hwiden, hone]
    exact congrArg Except.ok (by decide +kernel)
  · let s' : LinearSystem Float :=
      ⟨⟨1, [[1], [0]]⟩, [6, 2], [.le, .le], [⟨1⟩, ⟨2⟩], some ⟨.minimize, [1], 0⟩⟩
    have hs' : (w.step (.addConstraint c)).model.linearize.result = .ok s' :=
      eq_ok_of_toOption (by decide +kernel)
    obtain ⟨rows, hrows, howner⟩ := hconstraint c ⟨2⟩ s' hid hs'
    refine ⟨rows, hrows ▸ hs', ?_, howner⟩
    rintro rfl
    have hlength := congrArg (·.owners.length) hrows
    simp [s', s, LinearSystem.extend] at hlength

end Workspace

end AlgebraicModel
