import Mathlib
import AlgebraicModel.Proofs.Model.Lowering
import AlgebraicModel.Proofs.Model.Reachable
import AlgebraicModel.Proofs.Variable.Distinct

/-!
# The meaning of a lowered model

Without simplification and in exact arithmetic, a row of a lowered model holds at a point exactly
if its slot of its constraint holds under the assignment that the point comes from, and the
objective of the system has the value of the objective of the model. Both sides of a constraint can
be evaluated, as their variables are registered.

## Main definitions

* `Constraint.HoldsWithin`: the sides stand in the relation, slot by slot
* `Row.HoldsWithin`: a row at a point

## Main results

* `Constraint.holdsWithin_of_getElem?_block`: a row and its slot
* `Model.Sound.rowSatisfied_iff`, `satisfiedBy_iff`, `value?_linearObjective`: a system at a point
* `Workspace.linearize_preserves_meaning`: all of them, for reachable models
-/

namespace AlgebraicModel

/-- Terms can be moved to the other side. -/
theorem Relation.within_sub_iff (r : Relation) (t a b c d : ℚ) :
    r.Within t (a - b) (d - c) ↔ r.Within t (a + c) (b + d) := by
  cases r with
  | le =>
    simp only [Within]
    constructor <;> intro h <;> linarith
  | ge =>
    simp only [Within]
    constructor <;> intro h <;> linarith
  | eq =>
    have hdifference : a - b - (d - c) = a + c - (b + d) := by ring
    rw [Within, Within, hdifference]

theorem inner_zipWith_sub {xs ys : List ℚ} (h : xs.length = ys.length) (zs : List ℚ) :
    inner (xs.zipWith (· - ·) ys) zs = inner xs zs - inner ys zs := by
  induction xs generalizing ys zs with
  | nil =>
    obtain rfl : ys = [] := List.length_eq_zero_iff.mp h.symm
    simp
  | cons x xs ih =>
    obtain _ | ⟨y, ys⟩ := ys
    · simp at h
    obtain _ | ⟨z, zs⟩ := zs
    · simp [inner]
    · simp only [List.zipWith_cons_cons, inner_cons, ih (by simpa using h)]
      ring

/-! ## Rows and slots -/

/-- A row at a point, up to a tolerance. -/
def Row.HoldsWithin (r : Row ℚ) (t : ℚ) (x : List ℚ) : Prop :=
  r.relation.Within t (inner r.coefficients x) r.rhs

namespace Constraint

variable {c : Constraint ℚ} {owner : ConstraintId} {order : ColumnOrder} {left right : Matrix ℚ}

/-- The values of the sides under an assignment stand in the relation, slot by slot, up to a
tolerance. -/
def HoldsWithin (c : Constraint ℚ) (t : ℚ) (σ : Assignment ℚ) : Prop :=
  ∃ ls rs, c.lhs.evaluate σ = .ok ls ∧ c.rhs.evaluate σ = .ok rs ∧
    List.Forall₂ (c.relation.Within t) ls rs

/-- A row of a constraint holds at a point exactly if its slot does. -/
theorem holdsWithin_of_getElem?_block {ρ : Valuation} (hleft : c.lhs.coefficients order = .ok left)
    (hright : c.rhs.coefficients order = .ok right) {i : ℕ} {row : Row ℚ}
    (hrow : (c.block owner left right)[i]? = some row) :
    ∃ l r, (c.lhs.denote ρ)[i]? = some l ∧ (c.rhs.denote ρ)[i]? = some r ∧
      ∀ t, row.HoldsWithin t (order.ids.map ρ) ↔ c.relation.Within t l r := by
  obtain ⟨coefficients, b, hcoefficients, hb, rfl⟩ := List.getElem?_zipWith_eq_some.mp hrow
  obtain ⟨ls, rs, hls, hrs, rfl⟩ := List.getElem?_zipWith_eq_some.mp hcoefficients
  obtain ⟨d, c', hd, hc', rfl⟩ := List.getElem?_zipWith_eq_some.mp hb
  obtain ⟨-, -, hleftWidth⟩ := Expression.coefficients_shape hleft
  obtain ⟨-, -, hrightWidth⟩ := Expression.coefficients_shape hright
  have hwidth : ls.length = rs.length := by
    rw [hleftWidth ls (List.mem_of_getElem? hls), hrightWidth rs (List.mem_of_getElem? hrs)]
  refine ⟨inner ls (order.ids.map ρ) + c', inner rs (order.ids.map ρ) + d, ?_, ?_, fun t => ?_⟩
  · rw [Expression.denote_eq_apply_add_constant hleft]
    exact List.getElem?_zipWith_eq_some.mpr ⟨_, _, by simp [Matrix.apply, hls], hc', rfl⟩
  · rw [Expression.denote_eq_apply_add_constant hright]
    exact List.getElem?_zipWith_eq_some.mpr ⟨_, _, by simp [Matrix.apply, hrs], hd, rfl⟩
  · rw [Row.HoldsWithin, inner_zipWith_sub hwidth]
    exact c.relation.within_sub_iff t _ _ _ _

/-- The rows of a constraint hold exactly if the constraint holds slot by slot. -/
theorem forall_mem_block_iff (owner : ConstraintId) {ρ : Valuation}
    (hleft : c.lhs.coefficients order = .ok left) (hright : c.rhs.coefficients order = .ok right)
    (hsides : c.lhs.length = c.rhs.length) (t : ℚ) :
    (∀ row ∈ c.block owner left right, row.HoldsWithin t (order.ids.map ρ)) ↔
      List.Forall₂ (c.relation.Within t) (c.lhs.denote ρ) (c.rhs.denote ρ) := by
  have hlength : (c.block owner left right).length = c.length := length_block hleft hright hsides
  have hslot {i : ℕ} {row : Row ℚ} (hrow : (c.block owner left right)[i]? = some row) :=
    holdsWithin_of_getElem?_block (ρ := ρ) hleft hright hrow
  rw [List.forall₂_iff_get]
  constructor
  · intro h
    refine ⟨by simpa using hsides, fun i hi hi' => ?_⟩
    have hi'' : i < (c.block owner left right).length := by simpa [hlength, length] using hi
    obtain ⟨l, r, hl, hr, hiff⟩ := hslot (List.getElem?_eq_getElem hi'')
    have hl' : (c.lhs.denote ρ)[i] = l := (List.getElem?_eq_some_iff.mp hl).2
    have hr' : (c.rhs.denote ρ)[i] = r := (List.getElem?_eq_some_iff.mp hr).2
    rw [List.get_eq_getElem, List.get_eq_getElem, hl', hr']
    exact (hiff t).mp (h _ (List.getElem_mem hi''))
  · rintro ⟨-, h⟩ row hrow
    obtain ⟨i, hi⟩ := List.mem_iff_getElem?.mp hrow
    obtain ⟨l, r, hl, hr, hiff⟩ := hslot hi
    obtain ⟨hlt, rfl⟩ := List.getElem?_eq_some_iff.mp hl
    obtain ⟨hlt', rfl⟩ := List.getElem?_eq_some_iff.mp hr
    exact (hiff t).mpr (h i hlt hlt')

end Constraint

/-! ## Systems -/

namespace LinearSystem

variable {rows : List (Row ℚ)} {cols : ℕ} {objective? : Option (LinearObjective ℚ)} {x : List ℚ}

theorem rowSatisfied_ofRows (hx : x.length = cols) {j : ℕ} {row : Row ℚ}
    (hrow : rows[j]? = some row) (t : ℚ) :
    (ofRows cols rows objective?).rowSatisfied j x t = true ↔ row.HoldsWithin t x := by
  simp [rowSatisfied, ofRows, hrow, numCols, hx, dot_eq_inner, Relation.holdsWithin_iff,
    Row.HoldsWithin]

theorem satisfiedBy_ofRows (hx : x.length = cols) (t : ℚ) :
    (ofRows cols rows objective?).satisfiedBy x t = true ↔ ∀ row ∈ rows, row.HoldsWithin t x := by
  rw [satisfiedBy, List.all_eq_true]
  simp only [List.mem_range, numRows_ofRows]
  constructor
  · intro h row hrow
    obtain ⟨j, hj⟩ := List.mem_iff_getElem?.mp hrow
    exact (rowSatisfied_ofRows hx hj t).mp (h j (List.getElem?_eq_some_iff.mp hj).1)
  · intro h j hj
    exact (rowSatisfied_ofRows hx (List.getElem?_eq_getElem hj) t).mpr (h _ (List.getElem_mem hj))

end LinearSystem

/-! ## Sound models -/

namespace Model

variable {μ : Type} {m : Model ℚ μ} {σ : Assignment ℚ} {ρ : Valuation}

/-- A point for the variables of a model covers what is registered. -/
theorem gives_of_isRegistered (hρ : σ.Gives ρ m.vars) {vs : List Variable}
    (h : ∀ v ∈ vs, m.isRegistered v.id) : σ.Gives ρ vs :=
  hρ.of_mem_ids fun v hv => List.mem_map.mpr (isRegistered_iff.mp (h v hv))

theorem Sound.evaluate_sides (hm : m.Sound) (hρ : σ.Gives ρ m.vars)
    {p : ConstraintId × Constraint ℚ} (hp : p ∈ m.constraints) :
    p.2.lhs.evaluate σ = .ok (p.2.lhs.denote ρ) ∧ p.2.rhs.evaluate σ = .ok (p.2.rhs.denote ρ) := by
  have hregistered := Variable.forall_distinct_iff (p := fun id => m.isRegistered id = true).mp
    (hm.registered p hp)
  obtain ⟨hleft, hright⟩ := List.forall_mem_append.mp hregistered
  exact ⟨Expression.evaluate_eq_denote (gives_of_isRegistered hρ hleft),
    Expression.evaluate_eq_denote (gives_of_isRegistered hρ hright)⟩

/-- Without simplification, the rows of a sound model are the blocks of its constraints, and the
rows of an identity are found in order in the block of its constraint. -/
theorem Sound.rowsOf_linearize (hm : m.Sound) (hlevel : m.config.level = .off)
    {s : LinearSystem ℚ} (hs : m.linearize.result = .ok s) :
    ∃ rows objective?, s = .ofRows m.numVariables rows objective? ∧
      m.objectivePart = .ok objective? ∧
      (∀ row, row ∈ rows ↔
        ∃ p ∈ m.constraints, ∃ block, p.2.rows p.1 m.order = .ok block ∧ row ∈ block) ∧
      ∀ p ∈ m.constraints, ∃ block, p.2.rows p.1 m.order = .ok block ∧
        (s.rowsOf p.1).map (rows[·]?) = block.map some := by
  obtain ⟨-, all, objective?, hall, hobjective, rfl⟩ := linearize_eq_ok_iff.mp hs
  obtain ⟨blocks, rfl, hforall⟩ := result_rows_eq_ok_iff.mp hall
  rw [Config.simplify_of_off hlevel]
  refine ⟨blocks.flatten, objective?, rfl, hobjective, fun row => ?_, fun p hp => ?_⟩
  · rw [List.mem_flatten]
    constructor
    · rintro ⟨block, hblock, hrow⟩
      obtain ⟨p, hp, hrows⟩ := exists_of_forall₂ hforall hblock
      exact ⟨p, hp, block, hrows, hrow⟩
    · rintro ⟨p, hp, block, hrows, hrow⟩
      obtain ⟨block', hblock', hrows'⟩ := exists_of_forall₂ hforall.flip hp
      obtain rfl := Except.ok.inj (hrows.symm.trans hrows')
      exact ⟨block, hblock', hrow⟩
  · refine ⟨_, filter_flatten_of_forall₂ hforall ?_ hm.nodup_constraints hp, ?_⟩
    · intro q block hblock row hrow
      exact Constraint.owner_of_mem_rows hblock hrow
    · exact LinearSystem.map_rowsOf _ _ _ _

theorem length_point (m : Model ℚ μ) (ρ : Valuation) :
    (m.order.ids.map ρ).length = m.numVariables := by
  simp [order, ColumnOrder.ofVariables, numVariables]

/-- The rows that carry the identity of a constraint are its slots, in order, and hold where the
slots hold. -/
theorem Sound.rowSatisfied_iff (hm : m.Sound) (hlevel : m.config.level = .off)
    {s : LinearSystem ℚ} (hs : m.linearize.result = .ok s) {p : ConstraintId × Constraint ℚ}
    (hp : p ∈ m.constraints) :
    (s.rowsOf p.1).length = p.2.length ∧
      ∀ (i j : ℕ) (l r : ℚ), (s.rowsOf p.1)[i]? = some j → (p.2.lhs.denote ρ)[i]? = some l →
        (p.2.rhs.denote ρ)[i]? = some r →
          ∀ t, s.rowSatisfied j (m.order.ids.map ρ) t = true ↔ p.2.relation.Within t l r := by
  obtain ⟨rows, objective?, rfl, -, -, hrowsOf⟩ := hm.rowsOf_linearize hlevel hs
  obtain ⟨block, hblock, hindices⟩ := hrowsOf p hp
  obtain ⟨left, right, hleft, hright, rfl⟩ := Constraint.rows_eq_ok_iff.mp hblock
  have hlength : (p.2.block p.1 left right).length = p.2.length :=
    Constraint.length_block hleft hright (Constraint.length_sides (hm.checked p hp))
  refine ⟨by simpa [hlength] using congrArg List.length hindices, fun i j l r hj hl hr t => ?_⟩
  have hplace : some rows[j]? = (p.2.block p.1 left right)[i]?.map some := by
    simpa [hj] using congrArg (·[i]?) hindices
  obtain ⟨row, hi, hrow⟩ := Option.map_eq_some_iff.mp hplace.symm
  obtain ⟨l', r', hl', hr', hiff⟩ :=
    Constraint.holdsWithin_of_getElem?_block (ρ := ρ) hleft hright hi
  obtain rfl := Option.some.inj (hl.symm.trans hl')
  obtain rfl := Option.some.inj (hr.symm.trans hr')
  rw [LinearSystem.rowSatisfied_ofRows (m.length_point ρ) hrow.symm]
  exact hiff t

/-- The system holds where every constraint holds slot by slot. -/
theorem Sound.satisfiedBy_iff (hm : m.Sound) (hlevel : m.config.level = .off)
    {s : LinearSystem ℚ} (hs : m.linearize.result = .ok s) (t : ℚ) :
    s.satisfiedBy (m.order.ids.map ρ) t = true ↔ ∀ p ∈ m.constraints,
      List.Forall₂ (p.2.relation.Within t) (p.2.lhs.denote ρ) (p.2.rhs.denote ρ) := by
  obtain ⟨rows, objective?, rfl, -, hmem, hrowsOf⟩ := hm.rowsOf_linearize hlevel hs
  rw [LinearSystem.satisfiedBy_ofRows (m.length_point ρ)]
  simp only [hmem]
  have hblock (p) (hp : p ∈ m.constraints) {block : List (Row ℚ)}
      (hrows : p.2.rows p.1 m.order = .ok block) :
      (∀ row ∈ block, row.HoldsWithin t (m.order.ids.map ρ)) ↔
        List.Forall₂ (p.2.relation.Within t) (p.2.lhs.denote ρ) (p.2.rhs.denote ρ) := by
    obtain ⟨left, right, hleft, hright, rfl⟩ := Constraint.rows_eq_ok_iff.mp hrows
    have hsides := Constraint.length_sides (hm.checked p hp)
    exact Constraint.forall_mem_block_iff p.1 hleft hright hsides t
  constructor
  · intro h p hp
    obtain ⟨block, hrows, -⟩ := hrowsOf p hp
    exact (hblock p hp hrows).mp fun row hrow => h row ⟨p, hp, block, hrows, hrow⟩
  · rintro h row ⟨p, hp, block, hrows, hrow⟩
    exact (hblock p hp hrows).mpr (h p hp) row hrow

/-- The objective of the system has the value of the objective of the model. -/
theorem Sound.value?_linearObjective (hm : m.Sound) (hlevel : m.config.level = .off)
    (hρ : σ.Gives ρ m.vars) {o : Objective ℚ} (ho : m.objective? = some o)
    {lo : LinearObjective ℚ} (hlo : m.linearObjective = .ok lo) :
    lo.direction = o.direction ∧ ∃ v, lo.value? (m.order.ids.map ρ) = some v ∧
      o.expression.evaluate σ = .ok [v] := by
  have hadmits := hm.objective o ho
  simp only [linearObjective, ho] at hlo
  split at hlo
  · cases hlo
  · next a ha =>
    obtain rfl := Except.ok.inj hlo
    obtain ⟨-, hrows, hwidth⟩ := Expression.coefficients_shape ha
    have hconstant := Expression.length_constant o.expression
    have hlength : o.expression.length = 1 := Expression.length_of_scalar hadmits.scalar
    obtain ⟨row, hrow⟩ := List.length_eq_one_iff.mp (hrows.trans hlength)
    obtain ⟨b, hb⟩ := List.length_eq_one_iff.mp (hconstant.trans hlength)
    have hregistered := Variable.forall_distinct_iff (p := fun id => m.isRegistered id = true).mp
      hadmits.registered
    have hevaluate := Expression.evaluate_eq_denote (gives_of_isRegistered hρ hregistered)
    refine ⟨rfl, inner row (m.order.ids.map ρ) + b, ?_, ?_⟩
    · have hcolumns : row.length = m.order.ids.length := hwidth row (by simp [hrow])
      simp [LinearObjective.value?, Config.clear, hlevel, hrow, hb, hcolumns, dot_eq_inner]
    · rw [hevaluate, Expression.denote_eq_apply_add_constant ha]
      simp [Matrix.apply, hrow, hb]

end Model

/-- **Lowering preserves meaning.** Without simplification, and at the point of an assignment that
covers the variables of a reachable model: the rows that carry the identity of a constraint are as
many as its slots, and hold up to a tolerance exactly if their slots do; the system holds exactly if
every constraint does; and the objective has the value of the objective of the model. -/
theorem Workspace.linearize_preserves_meaning {μ : Type} {w : Workspace ℚ μ} (hw : w.Reachable)
    (hlevel : w.model.config.level = .off) {s : LinearSystem ℚ}
    (hs : w.model.linearize.result = .ok s) {σ : Assignment ℚ} {x : List ℚ}
    (hx : σ.point? w.model.vars = some x) (t : ℚ) :
    (∀ p ∈ w.model.constraints, (s.rowsOf p.1).length = p.2.length ∧
      ∃ ls rs, p.2.lhs.evaluate σ = .ok ls ∧ p.2.rhs.evaluate σ = .ok rs ∧
        ls.length = p.2.length ∧ rs.length = p.2.length ∧
        ∀ (i row : ℕ) (l r : ℚ), (s.rowsOf p.1)[i]? = some row → ls[i]? = some l →
          rs[i]? = some r → (s.rowSatisfied row x t = true ↔ p.2.relation.Within t l r)) ∧
    (s.satisfiedBy x t = true ↔ ∀ p ∈ w.model.constraints, p.2.HoldsWithin t σ) ∧
    ∀ o, w.model.objective? = some o → ∃ lo v, s.objective? = some lo ∧
      lo.direction = o.direction ∧ lo.value? x = some v ∧ o.expression.evaluate σ = .ok [v] := by
  have hm := hw.sound
  obtain ⟨ρ, hρ, hpoint⟩ := Assignment.exists_gives hx
  obtain rfl : x = w.model.order.ids.map ρ := hpoint
  refine ⟨fun p hp => ?_, ?_, fun o ho => ?_⟩
  · obtain ⟨hlhs, hrhs⟩ := hm.evaluate_sides hρ hp
    obtain ⟨hlength, hslots⟩ := hm.rowSatisfied_iff (ρ := ρ) hlevel hs hp
    have hleft : (p.2.lhs.denote ρ).length = p.2.length := Expression.length_denote _
    have hright : (p.2.rhs.denote ρ).length = p.2.length :=
      (Expression.length_denote _).trans (Constraint.length_sides (hm.checked p hp)).symm
    exact ⟨hlength, _, _, hlhs, hrhs, hleft, hright,
      fun i row l r hrow hl hr => hslots i row l r hrow hl hr t⟩
  · rw [hm.satisfiedBy_iff hlevel hs]
    refine forall₂_congr fun p hp => ?_
    obtain ⟨hlhs, hrhs⟩ := hm.evaluate_sides hρ hp
    simp [Constraint.HoldsWithin, hlhs, hrhs]
  · obtain ⟨rows, objective?, rfl, hobjective, -⟩ := hm.rowsOf_linearize hlevel hs
    have hsome : w.model.objective?.isSome := by simp [ho]
    simp only [Model.objectivePart, hsome, if_true] at hobjective
    obtain ⟨lo, hlo, rfl⟩ := map_eq_ok_iff.mp hobjective
    obtain ⟨hdirection, v, hvalue, hevaluate⟩ := hm.value?_linearObjective hlevel hρ ho hlo
    exact ⟨lo, v, rfl, hdirection, hvalue, hevaluate⟩

deriving instance DecidableEq for LinearObjective, LinearSystem

/-- The constraint `(x₁, x₂) ≤ (6, 3)` and the objective `x₁`, at the point `(5, 2)`. -/
theorem Workspace.linearize_preserves_meaning_bounds :
    let x₁ : Variable := ⟨⟨1⟩, .unbounded, .continuous⟩
    let x₂ : Variable := ⟨⟨2⟩, .unbounded, .continuous⟩
    let w : Workspace ℚ Unit := ({} : Workspace ℚ Unit).run [.addVector 2,
      .addConstraint ⟨.var (.vector [x₁, x₂]), .le, .const (.vector [6, 3]), true⟩,
      .minimize (.expression (.var (.scalar x₁)))]
    let s : LinearSystem ℚ :=
      ⟨⟨2, [[1, 0], [0, 1]]⟩, [6, 3], [.le, .le], [⟨1⟩, ⟨1⟩], some ⟨.minimize, [1, 0], 0⟩⟩
    let σ : Assignment ℚ := fun id => some (if id = ⟨1⟩ then 5 else 2)
    w.Reachable ∧ w.model.config.level = .off ∧ w.model.linearize.result = .ok s ∧
      σ.point? w.model.vars = some [5, 2] ∧ ∀ p ∈ w.model.constraints, p.2.HoldsWithin 0 σ := by
  intro x₁ x₂ w s σ
  have hw : w.Reachable := ⟨{}, _, ⟨{}, rfl⟩, rfl⟩
  have hlevel : w.model.config.level = .off := by decide +kernel
  have hs : w.model.linearize.result = .ok s := eq_ok_of_toOption (by decide +kernel)
  have hpoint : σ.point? w.model.vars = some [5, 2] := by decide +kernel
  have hsatisfied : s.satisfiedBy [5, 2] 0 = true := by decide +kernel
  exact ⟨hw, hlevel, hs, hpoint,
    (linearize_preserves_meaning hw hlevel hs hpoint 0).2.1.mp hsatisfied⟩

end AlgebraicModel
