import Mathlib
import AlgebraicModel.Proofs.Expression.Widening
import AlgebraicModel.Proofs.Model.Failure
import AlgebraicModel.Proofs.Model.Growth
import AlgebraicModel.Proofs.Model.Simplification

/-!
# The layout of a linear system

The lists of a system run in parallel: a row of coefficients, a right-hand side, a relation and an
owner for each row. Constraints come in the order of their identities, so the owners are ascending,
and the rows of a constraint are consecutive. Wherever two matrices or columns meet on the way,
their shapes agree, so no entry is lost where lists are combined place by place.

## Main definitions

* `Matrix.HasShape`: so many rows, with so many columns each
* `Constraint.Fits`, `Model.Fits`: the shapes that lowering relies on
* `LinearSystem.IsLaidOut`: the layout of the system of a model

## Main results

* `LinearSystem.exists_rowsOf_eq_range'`: the rows of an owner are consecutive
* `Model.Sound.fits`: shapes agree, whether or not lowering succeeds
* `Workspace.linearize_layout`: the layout of the system of a reachable model
-/

namespace AlgebraicModel

variable {α μ : Type}

/-! ## Shapes -/

namespace Matrix

/-- The matrix has so many rows, with so many columns each. -/
structure HasShape (a : Matrix α) (m n : ℕ) : Prop where
  cols : a.cols = n
  rows : a.rows.length = m
  row : ∀ r ∈ a.rows, r.length = n

variable {a b : Matrix α} {m n : ℕ}

/-- Written out row after row, a matrix has an entry for every row and column. -/
theorem HasShape.length_flatten (h : a.HasShape m n) : a.rows.flatten.length = m * n := by
  have hlengths : a.rows.map List.length = List.replicate m n := by
    rw [List.eq_replicate_iff]
    refine ⟨by rw [List.length_map, h.rows], fun length hlength => ?_⟩
    obtain ⟨r, hr, rfl⟩ := List.mem_map.mp hlength
    exact h.row r hr
  rw [List.length_flatten, hlengths, List.sum_replicate, smul_eq_mul]

/-- Matrices of one shape have a difference of that shape. -/
theorem HasShape.sub [Scalar α] (ha : a.HasShape m n) (hb : b.HasShape m n) :
    (a.sub b).HasShape m n where
  cols := ha.cols
  rows := by simp [Matrix.sub, ha.rows, hb.rows]
  row r hr := by
    obtain ⟨i, hi⟩ := List.mem_iff_getElem?.mp hr
    obtain ⟨s, t, hs, ht, rfl⟩ := List.getElem?_zipWith_eq_some.mp hi
    simp [ha.row s (List.mem_of_getElem? hs), hb.row t (List.mem_of_getElem? ht)]

end Matrix

/-! ## The rows of an owner -/

namespace LinearSystem

theorem mem_rowsOf_iff {s : LinearSystem α} {id : ConstraintId} {row : ℕ} :
    row ∈ s.rowsOf id ↔ s.owners[row]? = some id := by
  simp only [rowsOf, List.mem_map, List.mem_filter, decide_eq_true_eq, Prod.exists,
    exists_eq_right, List.mem_zipIdx_iff_getElem?]

theorem mem_rowsOf_ofRows_iff {cols : ℕ} {rows : List (Row α)}
    {objective? : Option (LinearObjective α)} {id : ConstraintId} {row : ℕ} :
    row ∈ (ofRows cols rows objective?).rowsOf id ↔ ∃ r, rows[row]? = some r ∧ r.owner = id := by
  rw [mem_rowsOf_iff, ofRows, List.getElem?_map, Option.map_eq_some_iff]

theorem length_rowsOf_ofRows (cols : ℕ) (rows : List (Row α))
    (objective? : Option (LinearObjective α)) (id : ConstraintId) :
    ((ofRows cols rows objective?).rowsOf id).length = (rows.filter (·.owner = id)).length := by
  simpa using congrArg List.length (map_rowsOf cols rows objective? id)

theorem disjoint_rowsOf (s : LinearSystem α) {id id' : ConstraintId} (h : id ≠ id') :
    (s.rowsOf id).Disjoint (s.rowsOf id') := by
  intro row hrow hrow'
  rw [mem_rowsOf_iff] at hrow hrow'
  exact h (Option.some.inj (hrow.symm.trans hrow'))

/-- In an ascending list of owners, none of them less than `id`, the places of `id` come first. -/
theorem places_eq_range' {owners : List ConstraintId} {id : ConstraintId}
    (hordered : owners.Pairwise (·.value ≤ ·.value)) (hleast : ∀ o ∈ owners, id.value ≤ o.value)
    (k : ℕ) : ∃ n, ((owners.zipIdx k).filter (·.1 = id)).map (·.2) = List.range' k n := by
  induction owners generalizing k with
  | nil => exact ⟨0, rfl⟩
  | cons o owners ih =>
    obtain ⟨ho, hordered⟩ := List.pairwise_cons.mp hordered
    by_cases heq : o = id
    · obtain ⟨n, hn⟩ := ih hordered (fun o' ho' => hleast o' (by simp [ho'])) (k + 1)
      exact ⟨n + 1, by simp [heq, hn, List.range'_succ]⟩
    · have hlt : id.value < o.value :=
        UInt32.lt_of_le_of_ne (hleast o (by simp)) fun h => heq (congrArg ConstraintId.mk h.symm)
      have hgreater : ∀ o' ∈ o :: owners, id.value < o'.value :=
        List.forall_mem_cons.mpr ⟨hlt, fun o' ho' => UInt32.lt_of_lt_of_le hlt (ho o' ho')⟩
      have hnone : ((o :: owners).zipIdx k).filter (·.1 = id) = [] := by
        refine List.filter_eq_nil_iff.mpr fun q hq => ?_
        have hq := hgreater q.1 (List.fst_mem_of_mem_zipIdx hq)
        simpa using fun heq : q.1 = id => UInt32.lt_irrefl _ (heq ▸ hq)
      exact ⟨0, by rw [hnone]; rfl⟩

/-- In an ascending list of owners the places of an owner are consecutive. -/
theorem exists_places_eq_range' {owners : List ConstraintId}
    (hordered : owners.Pairwise (·.value ≤ ·.value)) (id : ConstraintId) (k : ℕ) :
    ∃ start n, ((owners.zipIdx k).filter (·.1 = id)).map (·.2) = List.range' start n := by
  induction owners generalizing k with
  | nil => exact ⟨0, 0, rfl⟩
  | cons o owners ih =>
    by_cases heq : o = id
    · obtain ⟨ho, -⟩ := List.pairwise_cons.mp hordered
      exact ⟨k, places_eq_range' hordered (List.forall_mem_cons.mpr ⟨heq ▸ UInt32.le_refl _,
        heq ▸ ho⟩) k⟩
    · obtain ⟨start, n, hn⟩ := ih (List.pairwise_cons.mp hordered).2 (k + 1)
      exact ⟨start, n, by simpa [heq] using hn⟩

/-- The rows of an owner are consecutive if the owners are ascending. -/
theorem exists_rowsOf_eq_range' {s : LinearSystem α}
    (h : s.owners.Pairwise (·.value ≤ ·.value)) (id : ConstraintId) :
    ∃ start, s.rowsOf id = List.range' start (s.rowsOf id).length := by
  obtain ⟨start, n, hn⟩ := exists_places_eq_range' h id 0
  refine ⟨start, ?_⟩
  rw [rowsOf, hn, List.length_range']

end LinearSystem

variable [Scalar α]

/-! ## Shapes on the way -/

theorem Expression.hasShape_coefficients {e : Expression α} {order : ColumnOrder} {a : Matrix α}
    (h : e.coefficients order = .ok a) : a.HasShape e.length order.width := by
  obtain ⟨hcols, hrows, hrow⟩ := coefficients_shape h
  exact ⟨hcols, hrows, hrow⟩

namespace Constraint

variable {c : Constraint α} {owner : ConstraintId} {order : ColumnOrder}

/-- The shapes that agree while a constraint is lowered: those of the coefficients that are
subtracted, of the constants that are subtracted, and of the rows and their right-hand sides. -/
structure Fits (c : Constraint α) (order : ColumnOrder) : Prop where
  lhs : ∀ a, c.lhs.coefficients order = .ok a → a.HasShape c.length order.width
  rhs : ∀ a, c.rhs.coefficients order = .ok a → a.HasShape c.length order.width
  constants : c.lhs.constant.length = c.length ∧ c.rhs.constant.length = c.length
  parts : ∀ a b, c.linearParts order = .ok (a, b) →
    a.HasShape c.length order.width ∧ b.length = c.length

/-- Sides of equal length are all that it takes. -/
theorem fits (h : c.lhs.length = c.rhs.length) (order : ColumnOrder) : c.Fits order := by
  have hlhs (a : Matrix α) (ha : c.lhs.coefficients order = .ok a) :
      a.HasShape c.length order.width := Expression.hasShape_coefficients ha
  have hrhs (a : Matrix α) (ha : c.rhs.coefficients order = .ok a) :
      a.HasShape c.length order.width := by
    rw [length, h]
    exact Expression.hasShape_coefficients ha
  refine ⟨hlhs, hrhs, by simp [length, h], fun a b hparts => ?_⟩
  obtain ⟨left, hleft, hparts⟩ := bind_eq_ok_iff.mp hparts
  obtain ⟨right, hright, hparts⟩ := bind_eq_ok_iff.mp hparts
  cases hparts
  exact ⟨(hlhs left hleft).sub (hrhs right hright), by simp [length, h]⟩

/-- The rows look like those of a constraint with the identity `owner`: one for each slot, each with
the identity, the relation and an entry for every column. -/
structure IsBlock (c : Constraint α) (owner : ConstraintId) (cols : ℕ) (block : List (Row α)) :
    Prop where
  length : block.length = c.length
  owner : ∀ r ∈ block, r.owner = owner
  relation : ∀ r ∈ block, r.relation = c.relation
  width : ∀ r ∈ block, r.coefficients.length = cols

theorem isBlock_of_rows (hsides : c.lhs.length = c.rhs.length) {block : List (Row α)}
    (h : c.rows owner order = .ok block) : c.IsBlock owner order.width block := by
  obtain ⟨left, right, hleft, hright, rfl⟩ := rows_eq_ok_iff.mp h
  have hfits := fits hsides order
  have hshape := (hfits.lhs left hleft).sub (hfits.rhs right hright)
  refine ⟨length_block hleft hright hsides, fun r hr => (of_mem_block hr).1,
    fun r hr => (of_mem_block hr).2.1, fun r hr => ?_⟩
  exact hshape.row _ (of_mem_block hr).2.2

end Constraint

namespace Config

variable {c : Config α}

@[simp] theorem length_clear (c : Config α) (row : List α) :
    (c.clear row).length = row.length := by
  unfold clear clearSmall
  split
  · rfl
  · exact List.length_map _

/-- Every row that is kept is a row that was there, apart from its coefficients. -/
theorem exists_of_mem_simplify {rows : List (Row α)} {r : Row α} (h : r ∈ c.simplify rows) :
    ∃ r' ∈ rows, r.owner = r'.owner ∧ r.relation = r'.relation ∧
      r.coefficients.length = r'.coefficients.length := by
  obtain ⟨r', hr', rfl⟩ := List.mem_map.mp (List.mem_filter.mp h).1
  exact ⟨r', hr', rfl, rfl, c.length_clear _⟩

/-- The owners that are left stand in their old order. -/
theorem owners_simplify_sublist (c : Config α) (rows : List (Row α)) :
    ((c.simplify rows).map (·.owner)).Sublist (rows.map (·.owner)) := by
  have hmap : (rows.map fun r => ({ r with coefficients := c.clear r.coefficients } : Row α)).map
      (·.owner) = rows.map (·.owner) := by
    rw [List.map_map]
    rfl
  rw [← hmap]
  exact List.filter_sublist.map _

/-- Rows are dropped owner by owner. -/
theorem filter_owner_simplify (c : Config α) (rows : List (Row α)) (id : ConstraintId) :
    (c.simplify rows).filter (·.owner = id) = c.simplify (rows.filter (·.owner = id)) := by
  simp only [simplify, List.filter_map, List.filter_filter, Function.comp_def, Bool.and_comm]

end Config

namespace Model

variable {m : Model α μ} {all : List (Row α)}

/-- The shapes that agree while a model is lowered. -/
structure Fits (m : Model α μ) : Prop where
  width : m.order.width = m.numVariables
  column : ∀ id col, m.order.column? id = some col → col < m.order.width
  constraint : ∀ p ∈ m.constraints, p.2.Fits m.order
  objective : ∀ o, m.objective? = some o → o.expression.constant.length = 1 ∧
    ∀ a, o.expression.coefficients m.order = .ok a → a.HasShape 1 m.order.width

/-- Shapes agree in every sound model, whether or not it can be lowered. -/
theorem Sound.fits (hm : m.Sound) : m.Fits where
  width := ColumnOrder.width_ofVariables m.vars
  column id col := ColumnOrder.lt_width_of_column?
  constraint p hp := Constraint.fits (Constraint.length_sides (hm.checked p hp)) m.order
  objective o ho := by
    have hone := Expression.length_of_scalar (hm.objective o ho).scalar
    refine ⟨by rw [Expression.length_constant, hone], fun a ha => ?_⟩
    exact hone ▸ Expression.hasShape_coefficients ha

/-- The objective of a sound model has a coefficient for every column. -/
theorem Sound.length_objectivePart (hm : m.Sound) {o : LinearObjective α}
    (ho : m.objectivePart = .ok (some o)) : o.coefficients.length = m.numVariables := by
  rcases hobjective : m.objective? with _ | objective
  · simp [objectivePart, hobjective] at ho
  · rcases ha : objective.expression.coefficients m.order with cause | a
    · simp [objectivePart, linearObjective, hobjective, ha] at ho
    · rw [objectivePart_of_coefficients hobjective ha] at ho
      obtain rfl := Option.some.inj (Except.ok.inj ho)
      have hshape := (hm.fits.objective objective hobjective).2 a ha
      obtain ⟨row, hrow⟩ := List.length_eq_one_iff.mp hshape.rows
      have hwidth : row.length = m.order.width := hshape.row row (by simp [hrow])
      rw [Config.length_clear, hrow, List.headD_cons, hwidth, hm.fits.width]

/-! ## The rows of a model -/

/-- The rows of a sound model, block by block. -/
theorem Sound.exists_blocks (hm : m.Sound) (hall : m.rows.result = .ok all) :
    ∃ blocks, all = blocks.flatten ∧
      List.Forall₂ (fun p => p.2.IsBlock p.1 m.numVariables) m.constraints blocks := by
  obtain ⟨blocks, rfl, hforall⟩ := result_rows_eq_ok_iff.mp hall
  refine ⟨blocks, rfl, ?_⟩
  have hchecked := (List.forall₂_and_left _ _).mpr ⟨hm.checked, hforall⟩
  refine hchecked.imp fun p block ⟨hcheck, hrows⟩ => ?_
  exact hm.fits.width ▸ Constraint.isBlock_of_rows (Constraint.length_sides hcheck) hrows

/-- The rows belong to constraints of the model, in the order of their identities, and have an entry
for each of its variables. -/
structure OwnsRows (m : Model α μ) (rows : List (Row α)) : Prop where
  owner : ∀ r ∈ rows, ∃ p ∈ m.constraints, r.owner = p.1 ∧ r.relation = p.2.relation
  width : ∀ r ∈ rows, r.coefficients.length = m.numVariables
  ascending : (rows.map (·.owner)).Pairwise (·.value ≤ ·.value)

omit [Scalar α] in
/-- Blocks that come in the order of their owners have ascending owners. -/
theorem pairwise_owner_flatten {constraints : List (ConstraintId × Constraint α)} {cols : ℕ}
    {blocks : List (List (Row α))}
    (hforall : List.Forall₂ (fun p => p.2.IsBlock p.1 cols) constraints blocks)
    (hordered : constraints.Pairwise fun p q => p.1.value < q.1.value) :
    (blocks.flatten.map (·.owner)).Pairwise (·.value ≤ ·.value) := by
  rw [List.pairwise_map]
  -- A block has one owner, and the blocks after it have greater ones.
  induction hforall with
  | nil => exact List.Pairwise.nil
  | @cons p block constraints blocks hblock hrest ih =>
    obtain ⟨hlater, hordered⟩ := List.pairwise_cons.mp hordered
    rw [List.flatten_cons, List.pairwise_append]
    refine ⟨List.pairwise_of_forall_mem_list fun r hr r' hr' => ?_, ih hordered, ?_⟩
    · rw [hblock.owner r hr, hblock.owner r' hr']
      exact UInt32.le_refl _
    · intro r hr r' hr'
      obtain ⟨block', hblock', hr'⟩ := List.mem_flatten.mp hr'
      obtain ⟨q, hq, hisBlock⟩ := exists_of_forall₂ hrest hblock'
      rw [hblock.owner r hr, hisBlock.owner r' hr']
      exact UInt32.le_of_lt (hlater q hq)

theorem Sound.ownsRows (hm : m.Sound) (hall : m.rows.result = .ok all) : m.OwnsRows all := by
  obtain ⟨blocks, rfl, hforall⟩ := hm.exists_blocks hall
  have hblock : ∀ r ∈ blocks.flatten, ∃ p ∈ m.constraints, ∃ block, r ∈ block ∧
      p.2.IsBlock p.1 m.numVariables block := by
    intro r hr
    obtain ⟨block, hblock, hr⟩ := List.mem_flatten.mp hr
    obtain ⟨p, hp, hisBlock⟩ := exists_of_forall₂ hforall hblock
    exact ⟨p, hp, block, hr, hisBlock⟩
  refine ⟨fun r hr => ?_, fun r hr => ?_, pairwise_owner_flatten hforall hm.pairwise_lt⟩
  · obtain ⟨p, hp, block, hr, hisBlock⟩ := hblock r hr
    exact ⟨p, hp, hisBlock.owner r hr, hisBlock.relation r hr⟩
  · obtain ⟨p, hp, block, hr, hisBlock⟩ := hblock r hr
    exact hisBlock.width r hr

/-- The rows that are kept still belong to their constraints. -/
theorem OwnsRows.simplify (h : m.OwnsRows all) (c : Config α) : m.OwnsRows (c.simplify all) where
  owner r hr := by
    obtain ⟨r', hr', howner, hrelation, -⟩ := Config.exists_of_mem_simplify hr
    rw [howner, hrelation]
    exact h.owner r' hr'
  width r hr := by
    obtain ⟨r', hr', -, -, hlength⟩ := Config.exists_of_mem_simplify hr
    exact hlength.trans (h.width r' hr')
  ascending := h.ascending.sublist (c.owners_simplify_sublist all)

/-- The rows with the identity of a constraint are as many as its slots. -/
theorem Sound.length_filter_owner (hm : m.Sound) (hall : m.rows.result = .ok all)
    {p : ConstraintId × Constraint α} (hp : p ∈ m.constraints) :
    (all.filter (·.owner = p.1)).length = p.2.length := by
  obtain ⟨blocks, rfl, hforall⟩ := hm.exists_blocks hall
  exact (filter_flatten_of_forall₂ hforall (fun q block hblock => hblock.owner)
    hm.nodup_constraints hp).length

end Model

/-! ## The layout -/

/-- The system is laid out as the model prescribes. -/
structure LinearSystem.IsLaidOut (s : LinearSystem α) (m : Model α μ) : Prop where
  shape : s.matrix.HasShape s.numRows m.numVariables
  entries : s.matrix.rows.flatten.length = s.numRows * m.numVariables
  parallel : s.rhs.length = s.numRows ∧ s.relations.length = s.numRows ∧
    s.owners.length = s.numRows
  ascending : s.owners.Pairwise (·.value ≤ ·.value)
  stored : ∀ id ∈ s.owners, ∃ p ∈ m.constraints, p.1 = id
  consecutive : ∀ id, ∃ start, s.rowsOf id = List.range' start (s.rowsOf id).length
  relation : ∀ p ∈ m.constraints, ∀ row ∈ s.rowsOf p.1, s.relations[row]? = some p.2.relation
  disjoint : ∀ id id', id ≠ id' → (s.rowsOf id).Disjoint (s.rowsOf id')
  cover : ∀ row, row < s.numRows ↔ ∃ p ∈ m.constraints, row ∈ s.rowsOf p.1
  atMost : (∀ p ∈ m.constraints, (s.rowsOf p.1).length ≤ p.2.length) ∧ s.numRows ≤ m.numRows
  exactly : m.config.level = .off →
    (∀ p ∈ m.constraints, (s.rowsOf p.1).length = p.2.length) ∧ s.numRows = m.numRows

namespace Model

variable {m : Model α μ} {rows : List (Row α)} {objective? : Option (LinearObjective α)}

omit [Scalar α] in
theorem OwnsRows.hasShape (h : m.OwnsRows rows) :
    (LinearSystem.ofRows m.numVariables rows objective?).matrix.HasShape rows.length
      m.numVariables where
  cols := rfl
  rows := List.length_map _
  row r hr := by
    obtain ⟨row, hrow, rfl⟩ := List.mem_map.mp hr
    exact h.width row hrow

/-- The rows of a constraint carry its relation. -/
theorem OwnsRows.relation (h : m.OwnsRows rows) (hm : m.Sound) {p : ConstraintId × Constraint α}
    (hp : p ∈ m.constraints) {row : ℕ}
    (hrow : row ∈ (LinearSystem.ofRows m.numVariables rows objective?).rowsOf p.1) :
    (LinearSystem.ofRows m.numVariables rows objective?).relations[row]? = some p.2.relation := by
  obtain ⟨r, hr, howner⟩ := LinearSystem.mem_rowsOf_ofRows_iff.mp hrow
  obtain ⟨q, hq, hid, hrelation⟩ := h.owner r (List.mem_of_getElem? hr)
  obtain rfl : p = q := List.inj_on_of_nodup_map hm.nodup_constraints hp hq (howner.symm.trans hid)
  simp [LinearSystem.ofRows, hr, hrelation]

omit [Scalar α] in
/-- Every row is one of a constraint. -/
theorem OwnsRows.lt_length_iff (h : m.OwnsRows rows) {row : ℕ} :
    row < rows.length ↔ ∃ p ∈ m.constraints,
      row ∈ (LinearSystem.ofRows m.numVariables rows objective?).rowsOf p.1 := by
  constructor
  · intro hlt
    obtain ⟨p, hp, howner, -⟩ := h.owner _ (List.getElem_mem hlt)
    exact ⟨p, hp, LinearSystem.mem_rowsOf_ofRows_iff.mpr ⟨_, List.getElem?_eq_getElem hlt, howner⟩⟩
  · rintro ⟨p, -, hrow⟩
    obtain ⟨r, hr, -⟩ := LinearSystem.mem_rowsOf_ofRows_iff.mp hrow
    exact (List.getElem?_eq_some_iff.mp hr).1

/-- The system of a sound model is laid out as the model prescribes. -/
theorem Sound.isLaidOut (hm : m.Sound) {s : LinearSystem α} (hs : m.linearize.result = .ok s) :
    s.IsLaidOut m := by
  obtain ⟨-, all, objective?, hall, -, rfl⟩ := linearize_eq_ok_iff.mp hs
  have hrows := (hm.ownsRows hall).simplify m.config
  have hcount (p) (hp : p ∈ m.constraints) : ((LinearSystem.ofRows m.numVariables
      (m.config.simplify all) objective?).rowsOf p.1).length =
        (m.config.simplify (all.filter (·.owner = p.1))).length := by
    rw [LinearSystem.length_rowsOf_ofRows, Config.filter_owner_simplify]
  refine
    { shape := by simpa using hrows.hasShape
      entries := by simpa using hrows.hasShape.length_flatten
      parallel := by simp [LinearSystem.ofRows, LinearSystem.numRows]
      ascending := hrows.ascending
      stored := fun id hid => ?_
      consecutive := LinearSystem.exists_rowsOf_eq_range' hrows.ascending
      relation := fun p hp row => hrows.relation hm hp
      disjoint := fun id id' => LinearSystem.disjoint_rowsOf _
      cover := fun row => by simpa using hrows.lt_length_iff
      atMost := ⟨fun p hp => ?_, ?_⟩
      exactly := fun hlevel => ⟨fun p hp => ?_, ?_⟩ }
  · obtain ⟨r, hr, rfl⟩ := List.mem_map.mp hid
    obtain ⟨p, hp, howner, -⟩ := hrows.owner r hr
    exact ⟨p, hp, howner.symm⟩
  · rw [hcount p hp, ← hm.length_filter_owner hall hp]
    exact m.config.length_simplify_le _
  · rw [LinearSystem.numRows_ofRows, ← hm.length_rows hall]
    exact m.config.length_simplify_le all
  · rw [hcount p hp, Config.simplify_of_off hlevel, hm.length_filter_owner hall hp]
  · rw [LinearSystem.numRows_ofRows, Config.simplify_of_off hlevel, hm.length_rows hall]

end Model

/-- **The layout of a system.** In every reachable model the shapes agree that meet on the way to a
system, also where there is none in the end. A system has a column for each variable and lists that
run in parallel; its owners are ascending identities of constraints; the rows of a constraint are
consecutive, carry its relation, and are apart from those of any other; together they are all rows.
There are at most as many of them as the constraint has slots, and without simplification just as
many. -/
theorem Workspace.linearize_layout {w : Workspace α μ} (hw : w.Reachable) :
    w.model.Fits ∧ ∀ s, w.model.linearize.result = .ok s → s.IsLaidOut w.model :=
  ⟨hw.sound.fits, fun _ => hw.sound.isLaidOut⟩

/-- The constraints `(x₁, x₂) ≤ (6, 3)`, between two vectors without slots, and between the scalar
`x₁` and the vector of the number one. -/
theorem Workspace.linearize_layout_mixed :
    let x₁ : Variable := ⟨⟨1⟩, .unbounded, .continuous⟩
    let x₂ : Variable := ⟨⟨2⟩, .unbounded, .continuous⟩
    let w : Workspace Float Unit := ({} : Workspace Float Unit).run [.addVector 2,
      .addConstraint ⟨.var (.vector [x₁, x₂]), .le, .const (.vector [6, 3]), true⟩,
      .addConstraint ⟨.poly (.vector []), .eq, .const (.vector []), true⟩,
      .addConstraint ⟨.var (.scalar x₁), .ge, .const (.vector [1]), true⟩]
    let s : LinearSystem Float := ⟨⟨2, [[1, 0], [0, 1], [1, 0]]⟩, [6, 3, 1], [.le, .le, .ge],
      [⟨1⟩, ⟨1⟩, ⟨3⟩], none⟩
    w.Reachable ∧ w.model.Fits ∧ w.model.linearize.result = .ok s ∧
      w.model.constraints.map (·.2.length) = [2, 0, 1] ∧
      (∀ p ∈ w.model.constraints, (s.rowsOf p.1).length = p.2.length) ∧
      s.matrix.rows.flatten.length = s.numRows * 2 := by
  intro x₁ x₂ w s
  have hw : w.Reachable := ⟨{}, _, ⟨{}, rfl⟩, rfl⟩
  have hs : w.model.linearize.result = .ok s := eq_ok_of_toOption (by decide +kernel)
  obtain ⟨hfits, hlayout⟩ := linearize_layout hw
  have hlaidOut := hlayout s hs
  obtain ⟨hlengths, -⟩ := hlaidOut.exactly (by decide +kernel)
  have htwo : w.model.numVariables = 2 := by decide +kernel
  exact ⟨hw, hfits, hs, by decide +kernel, hlengths, htwo ▸ hlaidOut.entries⟩

end AlgebraicModel
