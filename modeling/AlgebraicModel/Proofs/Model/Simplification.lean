import Mathlib
import AlgebraicModel.Proofs.Model.Lowering
import AlgebraicModel.Proofs.Model.Meaning
import AlgebraicModel.Proofs.Model.Reachable
import AlgebraicModel.Scalar.Double

/-!
# Light simplification

Lightening a system acts on its parallel lists: small coefficients become zero, and the indices of
the rows that then say nothing are left out of every list. Of two models that differ in their
configuration only, a light one is lowered to the lightened system of the one without
simplification, and fails where the other fails.

## Main definitions

* `LinearSystem.isVacuous`, `lightened`: rows that say nothing, and the system without them

## Main results

* `LinearSystem.lightened_ofRows`: the system of the rows that a light configuration keeps
* `Model.Sound.length_rows`: every slot of every constraint has a row
* `Workspace.linearize_light`: light simplification against none
-/

namespace AlgebraicModel

variable {α μ : Type} [Scalar α]

/-! ## Lightened systems -/

namespace LinearSystem

/-- Whether a row says nothing: its coefficients are zero once small ones are, and zero stands in
its relation to its right-hand side. -/
def isVacuous (s : LinearSystem α) (tolerance : α) (row : ℕ) : Bool :=
  match s.matrix.rows[row]?, s.relations[row]?, s.rhs[row]? with
  | some coefficients, some relation, some b =>
    (clearSmall tolerance coefficients).all (· == 0) && relation.holdsWithin 0 b tolerance
  | _, _, _ => false

/-- Small coefficients are zero, and rows that say nothing are left out of every list. -/
def lightened (s : LinearSystem α) (tolerance : α) : LinearSystem α :=
  let kept := (List.range s.numRows).filter fun row => !s.isVacuous tolerance row
  { matrix :=
      ⟨s.matrix.cols, kept.filterMap fun row => s.matrix.rows[row]?.map (clearSmall tolerance)⟩
    rhs := kept.filterMap (s.rhs[·]?)
    relations := kept.filterMap (s.relations[·]?)
    owners := kept.filterMap (s.owners[·]?)
    objective? := s.objective?.map fun o =>
      { o with coefficients := clearSmall tolerance o.coefficients } }

/-- Keeping the indices of some elements keeps the elements, in order. -/
theorem filterMap_filter_range {β γ : Type} (xs : List β) (p : β → Bool) (f : β → γ) :
    ((List.range xs.length).filter fun i => xs[i]?.any p).filterMap (fun i => xs[i]?.map f) =
      (xs.filter p).map f := by
  induction xs with
  | nil => rfl
  | cons x xs ih =>
    rw [List.length_cons, List.range_succ_eq_map, List.filter_cons, List.filter_map]
    by_cases hx : p x
    · simp [hx, List.filterMap_map, Function.comp_def, ih]
    · simp [hx, List.filterMap_map, Function.comp_def, ih]

variable {c : Config α}

/-- The system of the rows that a light configuration keeps is the lightened system of all rows. -/
theorem lightened_ofRows (hlevel : c.level = .light) (cols : ℕ) (rows : List (Row α))
    (objective? : Option (LinearObjective α)) :
    ofRows cols (c.simplify rows) (objective?.map fun o =>
        { o with coefficients := c.clear o.coefficients }) =
      (ofRows cols rows objective?).lightened c.tolerance := by
  let p (r : Row α) : Bool :=
    !((clearSmall c.tolerance r.coefficients).all (· == 0) &&
      r.relation.holdsWithin 0 r.rhs c.tolerance)
  -- A row is dropped for what it is once cleared, so dropping can come first.
  have hsimplify : c.simplify rows = (rows.filter p).map fun r =>
      { r with coefficients := clearSmall c.tolerance r.coefficients } := by
    simp only [Config.simplify, Config.clear, hlevel, List.filter_map]
    congr 2
    funext r
    simp [p, Config.keeps, hlevel, Row.isVacuous]
  have hkept : ((List.range rows.length).filter fun row =>
      !(ofRows cols rows objective?).isVacuous c.tolerance row) =
        (List.range rows.length).filter fun row => rows[row]?.any p := by
    refine List.filter_congr fun row hrow => ?_
    have hlt := List.mem_range.mp hrow
    simp [isVacuous, ofRows, hlt, p]
  have hcolumn {β : Type} (f : Row α → β) :
      ((List.range rows.length).filter fun row => rows[row]?.any p).filterMap
        (fun row => rows[row]?.map f) = (rows.filter p).map f := filterMap_filter_range rows p f
  rw [lightened, numRows_ofRows, hkept, hsimplify]
  simp only [ofRows, List.getElem?_map, Option.map_map, List.map_map, hcolumn, Config.clear, hlevel]
  rfl

end LinearSystem

/-! ## Lowering -/

theorem Config.length_simplify_le (c : Config α) (rows : List (Row α)) :
    (c.simplify rows).length ≤ rows.length := by
  simpa [simplify] using List.length_filter_le c.keeps (rows.map _)

namespace Model

variable {m m' : Model α μ}

theorem rows_congr (hvars : m'.vars = m.vars) (hconstraints : m'.constraints = m.constraints) :
    m'.rows = m.rows := by
  simp [rows, order, hvars, hconstraints]

/-- The objective of the system, with the coefficients that the configuration keeps. -/
theorem linearObjective_congr (hvars : m'.vars = m.vars) (hobjective : m'.objective? = m.objective?)
    (hlevel : m.config.level = .off) :
    m'.objectivePart =
      Option.map (fun o => { o with coefficients := m'.config.clear o.coefficients }) <$>
        m.objectivePart := by
  have hclear : m.config.clear = id := funext fun coefficients => by simp [Config.clear, hlevel]
  have horder : m'.order = m.order := by rw [order, hvars, order]
  rcases ho : m.objective? with _ | o
  · simp [objectivePart, hobjective, ho]
  · rcases ha : o.expression.coefficients m.order with cause | a <;>
      simp [objectivePart, linearObjective, hobjective, ho, horder, ha, hclear]

/-- A light model is lowered to the lightened system of the model without simplification. -/
theorem result_linearize_light (hvars : m'.vars = m.vars)
    (hconstraints : m'.constraints = m.constraints) (hobjective : m'.objective? = m.objective?)
    (hoff : m.config.level = .off) (hlight : m'.config.level = .light) :
    m'.linearize.result = (·.lightened m'.config.tolerance) <$> m.linearize.result := by
  rw [result_linearize, result_linearize, rows_congr hvars hconstraints,
    linearObjective_congr hvars hobjective hoff, hvars]
  by_cases hempty : m.vars.isEmpty
  · simp [hempty]
  · cases m.rows.result with
    | error e => simp [hempty]
    | ok all =>
      cases m.objectivePart with
      | error e => simp [hempty]
      | ok objective? =>
        simp [hempty, numVariables, hvars, Config.simplify_of_off hoff,
          ← LinearSystem.lightened_ofRows hlight]

/-- Every slot of every constraint has a row. -/
theorem Sound.length_rows (hm : m.Sound) {all : List (Row α)} (hall : m.rows.result = .ok all) :
    all.length = m.numRows := by
  obtain ⟨blocks, rfl, hforall⟩ := result_rows_eq_ok_iff.mp hall
  have hchecked := hm.checked
  rw [List.length_flatten, numRows]
  clear hall
  generalize m.constraints = constraints at hforall hchecked ⊢
  induction hforall with
  | nil => rfl
  | cons hblock _ ih =>
    obtain ⟨hcheck, hchecked⟩ := List.forall_mem_cons.mp hchecked
    obtain ⟨left, right, hleft, hright, rfl⟩ := Constraint.rows_eq_ok_iff.mp hblock
    have hsides := Constraint.length_sides hcheck
    simp [Constraint.length_block hleft hright hsides, ih hchecked]

/-- The tolerance of a valid configuration is a tolerance, if the default is one. -/
theorem Sound.isTolerance (hm : m.Sound) (hdefault : Config.isTolerance (1e-12 : α)) :
    Config.isTolerance m.config.tolerance := by
  have hvalid := hm.configured
  rcases hchosen : m.config.chosenTolerance with _ | x
  · simpa [Config.tolerance, hchosen] using hdefault
  · by_cases hx : Config.isTolerance x
    · simpa [Config.tolerance, hchosen] using hx
    · simp [Config.validate, hchosen, hx] at hvalid

end Model

/-- **Light simplification against none.** Of two models that differ in their configuration only,
the light one is lowered to the lightened system of the other, and fails with its error. In a
reachable model, the rows of the system and those left out add up to the rows of the model, and the
tolerance is finite and not negative. -/
theorem Workspace.linearize_light {m₀ m₁ : Model Float μ} (hvars : m₁.vars = m₀.vars)
    (hconstraints : m₁.constraints = m₀.constraints) (hobjective : m₁.objective? = m₀.objective?)
    (hoff : m₀.config.level = .off) (hlight : m₁.config.level = .light) :
    m₁.linearize.result = m₀.linearize.result.map (·.lightened m₁.config.tolerance) ∧
      ∀ w : Workspace Float μ, w.Reachable →
        (∀ s, w.model.linearize.result = .ok s → ∃ dropped,
          w.model.linearize.events =
            [.linearized w.model.config.level s.numRows s.numCols dropped s.objective?.isSome] ∧
          s.numRows + dropped = w.model.numRows) ∧
        Scalar.isFinite w.model.config.tolerance ∧ 0 ≤ w.model.config.tolerance := by
  have hlightened := Model.result_linearize_light hvars hconstraints hobjective hoff hlight
  refine ⟨hlightened, fun w hw => ⟨fun s hs => ?_, ?_⟩⟩
  · obtain ⟨all, hall, hrows, hevents⟩ := Model.events_linearize hs
    have hkept := w.model.config.length_simplify_le all
    have htotal := hw.sound.length_rows hall
    exact ⟨_, hevents, by omega⟩
  · have htolerance := hw.sound.isTolerance (by decide)
    simpa [Config.isTolerance] using htolerance

deriving instance DecidableEq for Bounds, Variable, Factor, Monomial, Polynomial, Slots, Expression,
  Constraint, Objective

/-- The constraints `1e-13 * x₁ ≤ 1`, `x₁ ≤ 3` and `1e-13 * x₁ ≤ -5`, and the objective
`2 * x₁ + 1e-13 * x₂ + 7`. Small coefficients become zero. The first row then says nothing and is
left out; the last one stays, because it says `0 ≤ -5`. -/
theorem Workspace.linearize_light_small_coefficient :
    let x₁ : Variable := ⟨⟨1⟩, .unbounded, .continuous⟩
    let x₂ : Variable := ⟨⟨2⟩, .unbounded, .continuous⟩
    let small : Expression Float := .mono (.scalar ⟨1e-13, [⟨x₁, 1⟩]⟩)
    let cost : Expression Float :=
      .poly (.scalar (.ofTerms [⟨2, [⟨x₁, 1⟩]⟩, ⟨1e-13, [⟨x₂, 1⟩]⟩, .const 7]))
    let history : List (Action Float Unit) := [.addContinuous .unbounded, .addContinuous .unbounded,
      .addConstraint ⟨small, .le, .const (.scalar 1), false⟩,
      .addConstraint ⟨.var (.scalar x₁), .le, .const (.scalar 3), false⟩,
      .addConstraint ⟨small, .le, .const (.scalar (-5)), false⟩, .minimize (.expression cost)]
    let w₀ : Workspace Float Unit := ({} : Workspace Float Unit).run history
    let w₁ : Workspace Float Unit :=
      ({ model := { config := { chosenLevel := some .light } } } : Workspace Float Unit).run history
    let s₀ : LinearSystem Float := ⟨⟨2, [[1e-13, 0], [1, 0], [1e-13, 0]]⟩, [1, 3, -5],
      [.le, .le, .le], [⟨1⟩, ⟨2⟩, ⟨3⟩], some ⟨.minimize, [2, 1e-13], 7⟩⟩
    let s₁ : LinearSystem Float :=
      ⟨⟨2, [[1, 0], [0, 0]]⟩, [3, -5], [.le, .le], [⟨2⟩, ⟨3⟩], some ⟨.minimize, [2, 0], 7⟩⟩
    w₀.model.config.level = .off ∧ w₁.model.config.level = .light ∧
      w₀.model.linearize.result = .ok s₀ ∧ w₁.model.linearize.result = .ok s₁ ∧
      w₁.model.linearize.events = [.linearized .light 2 2 1 true] ∧
      0 ≤ w₁.model.config.tolerance := by
  intro x₁ x₂ small cost history w₀ w₁ s₀ s₁
  have hoff : w₀.model.config.level = .off := by decide +kernel
  have hlight : w₁.model.config.level = .light := by decide +kernel
  have hvars : w₁.model.vars = w₀.model.vars := by decide +kernel
  have hconstraints : w₁.model.constraints = w₀.model.constraints := by decide +kernel
  have hobjective : w₁.model.objective? = w₀.model.objective? := by decide +kernel
  have hw₁ : w₁.Reachable := ⟨_, history, ⟨{ chosenLevel := some .light }, rfl⟩, rfl⟩
  obtain ⟨hlightened, hreachable⟩ := linearize_light hvars hconstraints hobjective hoff hlight
  obtain ⟨hdropped, -, htolerance⟩ := hreachable w₁ hw₁
  have h₀ : w₀.model.linearize.result = .ok s₀ := eq_ok_of_toOption (by decide +kernel)
  have h₁ : w₁.model.linearize.result = .ok s₁ := by
    rw [hlightened, h₀]
    exact congrArg Except.ok (by decide +kernel)
  obtain ⟨dropped, hevents, htotal⟩ := hdropped s₁ h₁
  have hrows : w₁.model.numRows = 3 := by decide +kernel
  obtain rfl : dropped = 1 := by
    have hkept : s₁.numRows = 2 := rfl
    omega
  rw [hlight] at hevents
  exact ⟨hoff, hlight, h₀, h₁, hevents, htolerance⟩

end AlgebraicModel
