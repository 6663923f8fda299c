import Mathlib
import AlgebraicModel.Proofs.Model.Layout
import AlgebraicModel.Proofs.Model.Meaning
import AlgebraicModel.Proofs.Model.Simplification

/-!
# Light simplification and feasibility

Light simplification changes the value of a row at a point by at most the tolerance times the sum
of the magnitudes of the point, as every coefficient changes by at most the tolerance. A row that
is dropped holds within the tolerance once its small coefficients are zero. So the points of one
system satisfy the other, up to a tolerance that is larger by that bound.

## Main definitions

* `absSum`: the sum of the magnitudes of a point

## Main results

* `abs_inner_clearSmall_sub_le`: how much the value of a row changes
* `Config.holdsWithin_of_mem_simplify`, `holdsWithin_of_forall_simplify`: rows before and after
* `Workspace.light_feasibility`: both systems of a model, at every point
-/

namespace AlgebraicModel

/-! ## The value of a row -/

/-- The sum of the magnitudes. -/
def absSum (xs : List ℚ) : ℚ :=
  (xs.map fun x => |x|).sum

@[simp] theorem absSum_nil : absSum [] = 0 := rfl

@[simp] theorem absSum_cons (x : ℚ) (xs : List ℚ) : absSum (x :: xs) = |x| + absSum xs := by
  simp [absSum]

theorem absSum_nonneg (xs : List ℚ) : 0 ≤ absSum xs := by
  induction xs with
  | nil => exact le_refl 0
  | cons x xs ih => exact absSum_cons x xs ▸ add_nonneg (abs_nonneg x) ih

/-- Coefficients that are close give close values. -/
theorem abs_inner_sub_le {δ : ℚ} (hδ : 0 ≤ δ) {as bs : List ℚ}
    (h : List.Forall₂ (fun a b => |a - b| ≤ δ) as bs) (xs : List ℚ) :
    |inner as xs - inner bs xs| ≤ δ * absSum xs := by
  induction h generalizing xs with
  | nil => simpa using mul_nonneg hδ (absSum_nonneg xs)
  | @cons a b as bs hab _ ih =>
    obtain _ | ⟨x, xs⟩ := xs
    · simp [inner]
    · have hfirst : |(a - b) * x| ≤ δ * |x| := by
        rw [abs_mul]
        exact mul_le_mul_of_nonneg_right hab (abs_nonneg x)
      calc |inner (a :: as) (x :: xs) - inner (b :: bs) (x :: xs)|
          = |(a - b) * x + (inner as xs - inner bs xs)| := by
            rw [inner_cons, inner_cons]
            ring_nf
        _ ≤ |(a - b) * x| + |inner as xs - inner bs xs| := abs_add_le _ _
        _ ≤ δ * |x| + δ * absSum xs := add_le_add hfirst (ih xs)
        _ = δ * absSum (x :: xs) := by rw [absSum_cons, mul_add]

/-- Clearing small coefficients moves the value by at most the tolerance for each unit of the
point. -/
theorem abs_inner_clearSmall_sub_le {τ : ℚ} (hτ : 0 ≤ τ) (row xs : List ℚ) :
    |inner (clearSmall τ row) xs - inner row xs| ≤ τ * absSum xs := by
  refine abs_inner_sub_le hτ ?_ xs
  rw [clearSmall, List.forall₂_map_left_iff, List.forall₂_same]
  intro c _
  split
  · next hsmall =>
    rw [Relation.scalarAbs_eq_abs] at hsmall
    rw [zero_sub, abs_neg]
    exact hsmall.le
  · rwa [sub_self, abs_zero]

/-! ## Relations -/

namespace Relation

variable {r : Relation} {t x y : ℚ}

theorem Within.mono (h : r.Within t x y) {t' : ℚ} (ht : t ≤ t') : r.Within t' x y := by
  cases r with
  | le => exact h.trans (add_le_add_right ht y)
  | ge => exact (sub_le_sub_left ht y).trans h
  | eq => exact h.trans ht

/-- A value that moves stays in the relation, up to how far it moves. -/
theorem Within.of_abs_sub_le (h : r.Within t x y) {x' δ : ℚ} (hx : |x' - x| ≤ δ) :
    r.Within (t + δ) x' y := by
  obtain ⟨hbelow, habove⟩ := abs_le.mp hx
  cases r with
  | le =>
    simp only [Within] at h ⊢
    linarith
  | ge =>
    simp only [Within] at h ⊢
    linarith
  | eq =>
    calc |x' - y| ≤ |x' - x| + |x - y| := abs_sub_le x' x y
      _ ≤ δ + t := add_le_add hx h
      _ = t + δ := add_comm δ t

end Relation

/-! ## Rows -/

namespace Config

variable {c : Config ℚ} {rows : List (Row ℚ)} {x : List ℚ} {t : ℚ}

/-- Every row that is kept holds where the row it was made of does, up to the bound. -/
theorem holdsWithin_of_mem_simplify (hlevel : c.level = .light) (hτ : 0 ≤ c.tolerance)
    (h : ∀ row ∈ rows, row.HoldsWithin t x) :
    ∀ row ∈ c.simplify rows, row.HoldsWithin (t + c.tolerance * absSum x) x := by
  intro row hrow
  obtain ⟨r, hr, rfl⟩ := List.mem_map.mp (List.mem_filter.mp hrow).1
  have hclear := abs_inner_clearSmall_sub_le hτ r.coefficients x
  simp only [Row.HoldsWithin, clear, hlevel]
  exact (h r hr).of_abs_sub_le hclear

/-- A row that says nothing holds within the tolerance and the bound. -/
theorem holdsWithin_of_isVacuous {r : Row ℚ} {τ : ℚ} (hτ : 0 ≤ τ)
    (h : ({ r with coefficients := clearSmall τ r.coefficients } : Row ℚ).isVacuous τ) :
    r.HoldsWithin (τ + τ * absSum x) x := by
  obtain ⟨hzeros, hholds⟩ := Bool.and_eq_true_iff.mp h
  have hcleared : inner (clearSmall τ r.coefficients) x = 0 := by
    have hreplicate : clearSmall τ r.coefficients =
        List.replicate (clearSmall τ r.coefficients).length 0 := by
      rw [List.eq_replicate_iff]
      exact ⟨rfl, fun c hc => by simpa using List.all_eq_true.mp hzeros c hc⟩
    rw [hreplicate, inner_replicate_zero]
  have hwithin : r.relation.Within τ 0 r.rhs := (Relation.holdsWithin_iff _ _ _ _).mp hholds
  have hclear := abs_inner_clearSmall_sub_le hτ r.coefficients x
  rw [hcleared, abs_sub_comm] at hclear
  exact hwithin.of_abs_sub_le hclear

/-- Every row holds where those that are made of it and its like do, up to the bound; a row that was
dropped, up to the bound and the tolerance. -/
theorem holdsWithin_of_forall_simplify (hlevel : c.level = .light) (hτ : 0 ≤ c.tolerance)
    (h : ∀ row ∈ c.simplify rows, row.HoldsWithin t x) :
    ∀ row ∈ rows, row.HoldsWithin (max t c.tolerance + c.tolerance * absSum x) x := by
  intro row hrow
  have hbound (u : ℚ) (hu : u ≤ max t c.tolerance) :
      u + c.tolerance * absSum x ≤ max t c.tolerance + c.tolerance * absSum x :=
    add_le_add_left hu _
  let cleared : Row ℚ := { row with coefficients := clearSmall c.tolerance row.coefficients }
  by_cases hvacuous : cleared.isVacuous c.tolerance
  · exact (holdsWithin_of_isVacuous hτ hvacuous).mono (hbound _ (le_max_right _ _))
  · have hkept : cleared ∈ c.simplify rows := by
      rw [simplify, List.mem_filter]
      refine ⟨List.mem_map.mpr ⟨row, hrow, by simp only [clear, hlevel, cleared]⟩, ?_⟩
      simpa [keeps, hlevel] using hvacuous
    have hclear := abs_inner_clearSmall_sub_le hτ row.coefficients x
    rw [abs_sub_comm] at hclear
    exact ((h cleared hkept).of_abs_sub_le hclear).mono (hbound _ (le_max_left _ _))

end Config

/-! ## Objectives -/

namespace Model

variable {μ : Type} {m : Model ℚ μ}

/-- Clearing the coefficients of an objective moves its value by no more than the bound. -/
theorem exists_value?_clearSmall {o : LinearObjective ℚ} {x : List ℚ}
    (hlength : o.coefficients.length = x.length) {τ : ℚ} (hτ : 0 ≤ τ) :
    ∃ v v', o.value? x = some v ∧
      ({ o with coefficients := clearSmall τ o.coefficients } : LinearObjective ℚ).value? x =
        some v' ∧ |v - v'| ≤ τ * absSum x := by
  refine ⟨inner o.coefficients x + o.offset,
    inner (clearSmall τ o.coefficients) x + o.offset, ?_, ?_, ?_⟩
  · rw [LinearObjective.value?, if_pos hlength, dot_eq_inner]
  · rw [LinearObjective.value?, if_pos (by simpa [clearSmall] using hlength), dot_eq_inner]
  · rw [add_sub_add_right_eq_sub, abs_sub_comm]
    exact abs_inner_clearSmall_sub_le hτ _ _

/-- The systems of two models that differ in their configuration only, one without simplification
and the other light. Their objectives have a coefficient for every column. -/
theorem Sound.exists_rows_of_light {m₀ m₁ : Model ℚ μ} (hm₁ : m₁.Sound)
    (hvars : m₁.vars = m₀.vars) (hconstraints : m₁.constraints = m₀.constraints)
    (hobjective : m₁.objective? = m₀.objective?) (hoff : m₀.config.level = .off)
    (hlight : m₁.config.level = .light) {s₀ s₁ : LinearSystem ℚ}
    (hs₀ : m₀.linearize.result = .ok s₀) (hs₁ : m₁.linearize.result = .ok s₁) :
    ∃ rows objective?, s₀ = .ofRows m₀.numVariables rows objective? ∧
      s₁ = .ofRows m₀.numVariables (m₁.config.simplify rows) (objective?.map fun o =>
        { o with coefficients := clearSmall m₁.config.tolerance o.coefficients }) ∧
      ∀ o, objective? = some o → o.coefficients.length = m₀.numVariables := by
  obtain ⟨-, rows, objective?, hrows, ho, rfl⟩ := linearize_eq_ok_iff.mp hs₀
  obtain ⟨-, rows', objective?', hrows', ho', rfl⟩ := linearize_eq_ok_iff.mp hs₁
  have hwidth : m₁.numVariables = m₀.numVariables := congrArg List.length hvars
  have hclear : m₁.config.clear = clearSmall m₁.config.tolerance := by
    funext coefficients
    simp only [Config.clear, hlight]
  rw [rows_congr hvars hconstraints, hrows] at hrows'
  obtain rfl := Except.ok.inj hrows'
  have hpart := ho'
  rw [linearObjective_congr hvars hobjective hoff, ho, hclear] at ho'
  obtain rfl := Except.ok.inj ho'
  refine ⟨rows, objective?, ?_, ?_, ?_⟩
  · rw [Config.simplify_of_off hoff]
  · rw [hwidth]
  · rintro o rfl
    have hlength := hm₁.length_objectivePart hpart
    rw [hwidth] at hlength
    simpa [clearSmall] using hlength

end Model

/-- **Light simplification changes feasibility by a bounded amount.** Of two models that differ in
their configuration only, let one be lowered without simplification and the other, a reachable one,
with light simplification. At every point a system is satisfied where the other is, up to a
tolerance that is larger by the tolerance of the simplification for each unit of the point; what was
dropped holds within the tolerance of the simplification itself. The objectives differ by no more,
and without a tolerance the systems have the same points. -/
theorem Workspace.light_feasibility {μ : Type} {m : Model ℚ μ} {w : Workspace ℚ μ}
    (hw : w.Reachable) (hvars : w.model.vars = m.vars)
    (hconstraints : w.model.constraints = m.constraints)
    (hobjective : w.model.objective? = m.objective?) (hoff : m.config.level = .off)
    (hlight : w.model.config.level = .light) {s s' : LinearSystem ℚ}
    (hs : m.linearize.result = .ok s) (hs' : w.model.linearize.result = .ok s') {x : List ℚ}
    (hx : x.length = s.numCols) {t : ℚ} (ht : 0 ≤ t) :
    let τ := w.model.config.tolerance
    (s.satisfiedBy x t → s'.satisfiedBy x (t + τ * absSum x)) ∧
      (s'.satisfiedBy x t → s.satisfiedBy x (max t τ + τ * absSum x)) ∧
      Option.Rel (fun o o' => ∃ v v', o.value? x = some v ∧ o'.value? x = some v' ∧
        |v - v'| ≤ τ * absSum x) s.objective? s'.objective? ∧
      (τ = 0 → (s.satisfiedBy x t ↔ s'.satisfiedBy x t)) := by
  intro τ
  have htolerance : Config.isTolerance τ := hw.sound.isTolerance (by decide +kernel)
  have hτ : 0 ≤ τ := by simpa [Config.isTolerance] using (Bool.and_eq_true_iff.mp htolerance).2
  obtain ⟨rows, objective?, rfl, rfl, hlength⟩ :=
    hw.sound.exists_rows_of_light hvars hconstraints hobjective hoff hlight hs hs'
  rw [LinearSystem.numCols_ofRows] at hx
  have hforth : (∀ row ∈ rows, row.HoldsWithin t x) → ∀ row ∈ w.model.config.simplify rows,
      row.HoldsWithin (t + τ * absSum x) x := Config.holdsWithin_of_mem_simplify hlight hτ
  have hback : (∀ row ∈ w.model.config.simplify rows, row.HoldsWithin t x) → ∀ row ∈ rows,
      row.HoldsWithin (max t τ + τ * absSum x) x := Config.holdsWithin_of_forall_simplify hlight hτ
  simp only [LinearSystem.satisfiedBy_ofRows hx]
  refine ⟨hforth, hback, ?_, fun hzero => ?_⟩
  · rcases objective? with _ | o
    · exact .none
    · refine .some (Model.exists_value?_clearSmall ?_ hτ)
      rw [hlength o rfl, hx]
  · rw [hzero, zero_mul, add_zero] at hforth hback
    rw [max_eq_left ht] at hback
    exact ⟨hforth, hback⟩

/-- The constraints `x₁ / 20 ≤ 0` and `x₁ ≤ 3` and the objective `x₁ / 20`, with a tolerance of
`1 / 10`. The first constraint is dropped, and fails at the point `2`, but not by more than the
bound. -/
theorem Workspace.light_feasibility_dropped_row :
    let x₁ : Variable := ⟨⟨1⟩, .unbounded, .continuous⟩
    let part : Expression ℚ := .mono (.scalar ⟨1 / 20, [⟨x₁, 1⟩]⟩)
    let history : List (Action ℚ Unit) := [.addVector 1,
      .addConstraint ⟨part, .le, .const (.scalar 0), false⟩,
      .addConstraint ⟨.var (.scalar x₁), .le, .const (.scalar 3), false⟩,
      .minimize (.expression part)]
    let config : Config ℚ := ⟨some .light, some (1 / 10)⟩
    let w := ({ model := { config } } : Workspace ℚ Unit).run history
    let m : Model ℚ Unit := { w.model with config := {} }
    let s : LinearSystem ℚ :=
      ⟨⟨1, [[1 / 20], [1]]⟩, [0, 3], [.le, .le], [⟨1⟩, ⟨2⟩], some ⟨.minimize, [1 / 20], 0⟩⟩
    let s' : LinearSystem ℚ := ⟨⟨1, [[1]]⟩, [3], [.le], [⟨2⟩], some ⟨.minimize, [0], 0⟩⟩
    w.Reachable ∧ m.linearize.result = .ok s ∧ w.model.linearize.result = .ok s' ∧
      s'.satisfiedBy [2] 0 ∧ ¬ s.satisfiedBy [2] 0 ∧
      s.satisfiedBy [2] (max 0 w.model.config.tolerance + w.model.config.tolerance * absSum [2]) := by
  intro x₁ part history config w m s s'
  have hvalid : config.validate = .ok () := eq_ok_of_isOk (by decide +kernel)
  have hw : w.Reachable := ⟨_, history, ⟨config, by simp [Model.withConfig, hvalid]⟩, rfl⟩
  have hs : m.linearize.result = .ok s := eq_ok_of_toOption (by decide +kernel)
  have hs' : w.model.linearize.result = .ok s' := eq_ok_of_toOption (by decide +kernel)
  have hsatisfied : s'.satisfiedBy [2] 0 = true := by decide +kernel
  have hlight : w.model.config.level = .light := by decide +kernel
  have hbound := light_feasibility hw (m := m) rfl rfl rfl rfl hlight hs hs' (x := [2]) rfl le_rfl
  exact ⟨hw, hs, hs', hsatisfied, by decide +kernel, hbound.2.1 hsatisfied⟩

end AlgebraicModel
