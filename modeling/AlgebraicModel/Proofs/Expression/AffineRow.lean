import Mathlib
import AlgebraicModel.Proofs.Expression.Affinity
import AlgebraicModel.Proofs.Expression.Extraction
import AlgebraicModel.Proofs.Expression.Outcome
import AlgebraicModel.Proofs.Expression.Validity

/-!
# Affine rows, built and read off

A sum of variables with coefficients and a constant is built by an inner product, whose terms are
collected, and is read off as a row again. On the way coefficients of one variable are added up and
zeros are dropped, so that the row has everything a variable was given in its first column. The
values of the sum do not say where it stands, for the columns of one variable have the same
coordinate; that the other columns stay zero does.

## Main definitions

* `gathered id vs cs`: everything that the variable `id` is given in a list of variables

## Main results

* `Expression.entry_of_repeated`: the second column of a variable stays zero
* `entry_of_inner_eq`: a row whose repeated columns are zero is determined by its values
* `Expression.exists_affineSum`: the sum of variables with coefficients and a constant
* `Expression.affine_row_round_trip`: its row
-/

namespace AlgebraicModel

/-! ## Repeated columns -/

section Repeated

variable {α : Type} {order : ColumnOrder} {j : ℕ}

/-- A column that is not the first of its variable is the column of none. -/
theorem ColumnOrder.column?_ne_of_mem_take {id : VariableId} (hid : order.ids[j]? = some id)
    (hmem : id ∈ order.ids.take j) (u : VariableId) : order.column? u ≠ some j := by
  intro hu
  obtain ⟨hlt, hget, hfirst⟩ := List.idxOf?_eq_some_iff.mp hu
  obtain rfl : id = u := by
    rw [List.getElem?_eq_getElem hlt, hget] at hid
    exact (Option.some.inj hid).symm
  obtain ⟨i, hi, heq⟩ := List.mem_take_iff_getElem.mp hmem
  exact hfirst i (by omega) heq

variable [Scalar α] (hcolumn : ∀ u, order.column? u ≠ some j)
include hcolumn

theorem Variable.getElem?_coefficients {v : Variable} {row : List α} (hj : j < order.width)
    (h : v.coefficients order = (.ok row : Except (Expression.Error α) _)) : row[j]? = some 0 := by
  obtain ⟨col, hcol, heq⟩ := bind_eq_ok_iff.mp h
  obtain rfl := Except.ok.inj heq
  have hne : col ≠ j := fun heq => hcolumn v.id (heq ▸ ColumnOrder.column_eq_ok_iff.mp hcol)
  rw [Matrix.unitRow, List.getElem?_set_ne hne, List.getElem?_replicate_of_lt hj]

theorem Polynomial.getElem?_coefficients {p : Polynomial α} {row : List α} (hj : j < order.width)
    (h : p.coefficients order = .ok row) : row[j]? = some 0 := by
  refine foldlM_ok_induction (fun row _ => row[j]? = some 0) h
    (List.getElem?_replicate_of_lt hj) fun row t row' _ hstep hrow => ?_
  rcases Monomial.addCoefficient_eq_ok_iff.mp hstep with ⟨-, rfl⟩ | ⟨v, col, -, hcol, rfl⟩
  · exact hrow
  · have hne : col ≠ j := fun heq => hcolumn v.id (heq ▸ hcol)
    rw [List.getElem?_modify, hrow]
    simp [hne]

end Repeated

/-- **The second column of a variable stays zero**, and so do all the others that are not its
first. -/
theorem Expression.entry_of_repeated {α : Type} [Scalar α] {e : Expression α} {order : ColumnOrder}
    {a : Matrix α} (h : e.coefficients order = .ok a) {row : List α} (hrow : row ∈ a.rows) {j : ℕ}
    {id : VariableId} (hid : order.ids[j]? = some id) (hmem : id ∈ order.ids.take j) :
    row[j]? = some 0 := by
  have hcolumn := ColumnOrder.column?_ne_of_mem_take hid hmem
  have hj : j < order.width := (List.getElem?_eq_some_iff.mp hid).1
  obtain ⟨-, hrows⟩ := coefficients_eq_ok_iff.mp h
  have hslot : .ok row ∈ e.slotCoefficients order := hrows ▸ List.mem_map_of_mem hrow
  cases e <;> obtain ⟨x, -, hx⟩ := List.mem_map.mp hslot
  case const =>
    obtain rfl := Except.ok.inj hx
    exact List.getElem?_replicate_of_lt hj
  case var => exact Variable.getElem?_coefficients hcolumn hj hx
  case mono => exact Polynomial.getElem?_coefficients hcolumn hj hx
  case poly => exact Polynomial.getElem?_coefficients hcolumn hj hx

/-! ## Rows and their values -/

theorem inner_comm (xs ys : List ℚ) : inner xs ys = inner ys xs := by
  rw [inner, inner, List.zipWith_comm_of_comm fun x y => mul_comm x y]

/-- Everything that the variable `id` is given in a list of variables with coefficients. -/
def gathered (id : VariableId) (vs : List Variable) (cs : List ℚ) : ℚ :=
  (((vs.zip cs).filter (·.1.id = id)).map (·.2)).sum

/-- Where one variable is one and all others are zero, a row has the value of what is gathered. -/
theorem inner_indicator (id : VariableId) (vs : List Variable) (cs : List ℚ) :
    inner cs (vs.map fun v => if v.id = id then 1 else 0) = gathered id vs cs := by
  induction vs generalizing cs with
  | nil => simp [inner, gathered]
  | cons v vs ih =>
    cases cs with
    | nil => simp [gathered]
    | cons c cs =>
      rw [List.map_cons, inner_cons, ih]
      by_cases hv : v.id = id <;> simp [gathered, hv]

/-- An inner product with just one product that is not zero. -/
theorem inner_eq_of_single {row x : List ℚ} {i : ℕ} {c : ℚ} (hc : row[i]? = some c)
    (hx : x[i]? = some 1)
    (hzero : ∀ j r y, j ≠ i → row[j]? = some r → x[j]? = some y → r * y = 0) :
    inner row x = c := by
  induction row generalizing x i with
  | nil => simp at hc
  | cons r row ih =>
    obtain _ | ⟨y, x⟩ := x
    · simp at hx
    rw [inner_cons]
    obtain _ | i := i
    · obtain rfl : r = c := by simpa using hc
      obtain rfl : y = 1 := by simpa using hx
      have hrest : inner row x = 0 := by
        refine List.sum_eq_zero fun z hz => ?_
        obtain ⟨j, hj⟩ := List.mem_iff_getElem?.mp hz
        obtain ⟨s, t, hs, ht, rfl⟩ := List.getElem?_zipWith_eq_some.mp hj
        exact hzero (j + 1) s t (Nat.succ_ne_zero j) hs ht
      rw [hrest, mul_one, add_zero]
    · have hhead : r * y = 0 := hzero 0 r y (Nat.succ_ne_zero i).symm rfl rfl
      rw [hhead, zero_add]
      exact ih (by simpa using hc) (by simpa using hx)
        fun j s t hj hs ht => hzero (j + 1) s t (by omega) hs ht

theorem mem_take_of_lt {vs : List Variable} {i j : ℕ} {v : Variable} (hv : vs[i]? = some v)
    (h : i < j) : v.id ∈ (vs.take j).map (·.id) := by
  rw [← List.getElem?_take_of_lt h] at hv
  exact List.mem_map_of_mem (List.mem_of_getElem? hv)

/-- **A row whose repeated columns are zero is determined by its values.** It has everything that a
variable is given in the first column of that variable. -/
theorem entry_of_inner_eq {vs : List Variable} {row cs : List ℚ} (hlength : row.length = vs.length)
    (hrepeated : ∀ j v, vs[j]? = some v → v.id ∈ (vs.take j).map (·.id) → row[j]? = some 0)
    (hvalue : ∀ ρ : Valuation,
      inner row (vs.map fun v => ρ v.id) = inner cs (vs.map fun v => ρ v.id))
    {i : ℕ} {v : Variable} (hv : vs[i]? = some v) (hfirst : v.id ∉ (vs.take i).map (·.id)) :
    row[i]? = some (gathered v.id vs cs) := by
  obtain ⟨c, hc⟩ : ∃ c, row[i]? = some c :=
    ⟨_, List.getElem?_eq_getElem (hlength ▸ (List.getElem?_eq_some_iff.mp hv).1)⟩
  rw [hc, ← inner_indicator]
  have hcolumn := hvalue fun id => if id = v.id then 1 else 0
  rw [← hcolumn, inner_eq_of_single hc (by simp [hv])]
  intro j r y hj hr hy
  rw [List.getElem?_map] at hy
  obtain ⟨u, hu, rfl⟩ := Option.map_eq_some_iff.mp hy
  by_cases hid : u.id = v.id
  · have hlt : i < j := (lt_or_gt_of_ne hj).resolve_left fun hlt =>
      hfirst (hid ▸ mem_take_of_lt hu hlt)
    rw [hrepeated j u hu (hid ▸ mem_take_of_lt hv hlt), Option.some.injEq] at hr
    rw [← hr, zero_mul]
  · rw [if_neg hid, mul_zero]

/-! ## The round trip -/

namespace Expression

variable {vs : List Variable} {cs : List ℚ}

/-- **The sum of variables with coefficients and a constant**: it exists, and is a scalar of these
variables with the meaning that it was built from. -/
theorem exists_affineSum (hlength : vs.length = cs.length) (hvs : ∀ v ∈ vs, v.check = .ok ())
    (k : ℚ) :
    ∃ d e, ((var (.vector vs)).dot (.expression (const (.vector cs)))).result = .ok d ∧
      (d.plus (.number k)).result = .ok e ∧ e.isVector = false ∧ e.IsNormal ∧ e.bases ⊆ vs ∧
      ∀ ρ : Valuation, e.denote ρ = [inner cs (vs.map fun v => ρ v.id) + k] := by
  have hone : ((1 : ℚ) == 0) = false := by decide
  have hvars : (var (.vector vs) : Expression ℚ).IsNormal := trivial
  have hnumbers (xs : Slots ℚ) : (const xs).IsNormal := trivial
  have hcheck : (var (.vector vs) : Expression ℚ).check = .ok () := check_eq_ok_iff.mpr hvs
  have hshape : (var (.vector vs) : Expression ℚ).length = (const (.vector cs)).length := hlength
  have hfree : ¬ (var (.vector vs)).Overflows (const (.vector cs)) := by
    rw [overflows_iff]
    rintro ⟨i, m, n, hm, hn, hlt⟩
    obtain ⟨-, -, rfl⟩ := List.mem_map.mp (List.mem_of_getElem? hm)
    obtain ⟨-, -, rfl⟩ := List.mem_map.mp (List.mem_of_getElem? hn)
    exact absurd hlt (by decide)
  obtain ⟨d, hd⟩ := (outcome_dot hone hvars (hnumbers _)).succeeds.mpr ⟨hcheck, rfl, hshape, hfree⟩
  obtain ⟨hscalar, -, hbases, hdenote⟩ := dot_spec hd
  have hbases : d.bases ⊆ vs := fun v hv => by simpa [bases, Slots.toList] using hbases hv
  have hdcheck : d.check = .ok () := check_eq_ok_iff.mpr fun v hv => hvs v (hbases hv)
  obtain ⟨e, he⟩ := exists_plus_iff.mpr
    (⟨hdcheck, rfl, .inl hscalar⟩ : d.Addable (const (.scalar k)))
  obtain ⟨-, hsum⟩ := plus_expression_iff.mp he
  have hnormal := isNormal_add hone (isNormal_dot hone hd) (hnumbers _) hsum
  refine ⟨d, e, hd, he, ?_, hnormal, ?_, fun ρ => ?_⟩
  · rw [isVector_add hsum, hscalar]
    rfl
  · intro v hv
    exact hbases (by simpa [bases] using bases_add hsum hv)
  · have hvalue := denote_add (ρ := ρ) hsum
    rw [hdenote, inner_comm] at hvalue
    exact (Option.some.inj hvalue).symm

/-- An affine expression has coefficients in every ordering of its variables. -/
theorem IsAffine.exists_coefficients {e : Expression ℚ} {a : Matrix ℚ} {b : List ℚ}
    (h : e.IsAffine vs a b) (he : e.IsNormal) (hbases : e.bases ⊆ vs) :
    ∃ a, e.coefficients (.ofVariables vs) = .ok a := by
  have hdegree : e.degree ≤ 1 := by
    by_contra hlt
    obtain ⟨t, ht, hlt⟩ := (one_lt_degree_iff he).mp (not_le.mp hlt)
    exact absurd (h.degree_le_one he t ht) (not_le.mpr hlt)
  refine (exists_coefficients_iff (by decide) he).mpr ⟨hdegree, fun v hv => ?_⟩
  exact List.mem_map_of_mem (hbases (Variable.distinct_subset hv))

/-- The coefficients and the constant of a scalar are a row and a number, which give its value. -/
theorem coefficients_of_scalar {e : Expression ℚ} {a : Matrix ℚ} (hscalar : e.isVector = false)
    (h : e.coefficients (.ofVariables vs) = .ok a) :
    ∃ row c, a = ⟨vs.length, [row]⟩ ∧ row.length = vs.length ∧ e.constant = [c] ∧
      ∀ ρ : Valuation, e.denote ρ = [inner row (vs.map fun v => ρ v.id) + c] := by
  obtain ⟨cols, rows⟩ := a
  obtain ⟨hcols, hrows, hwidth⟩ := coefficients_shape h
  rw [ColumnOrder.width_ofVariables] at hcols hwidth
  obtain ⟨row, rfl⟩ := List.length_eq_one_iff.mp (hrows.trans (length_of_scalar hscalar))
  obtain ⟨c, hc⟩ := List.length_eq_one_iff.mp ((length_constant e).trans (length_of_scalar hscalar))
  refine ⟨row, c, congrArg (Matrix.mk · _) hcols, hwidth row (by simp), hc, fun ρ => ?_⟩
  have hform := denote_eq_apply_add_constant (ρ := ρ) h
  simpa [Matrix.apply, hc, ColumnOrder.ofVariables, Function.comp_def] using hform

/-- Building an affine row and reading it off is a **round trip**: the constant is the constant, and
the row has everything that a variable is given in its first column and zeros in its other ones. -/
theorem affine_row_round_trip (hlength : vs.length = cs.length) (hvs : ∀ v ∈ vs, v.check = .ok ())
    (k : ℚ) :
    ∃ d e row, ((var (.vector vs)).dot (.expression (const (.vector cs)))).result = .ok d ∧
      (d.plus (.number k)).result = .ok e ∧ e.constant = [k] ∧
      e.coefficients (.ofVariables vs) = .ok ⟨vs.length, [row]⟩ ∧ row.length = vs.length ∧
      ∀ i v, vs[i]? = some v → row[i]? =
        some (if v.id ∈ (vs.take i).map (·.id) then 0 else gathered v.id vs cs) := by
  obtain ⟨d, e, hd, he, hscalar, hnormal, hbases, hdenote⟩ := exists_affineSum hlength hvs k
  -- The row that the sum was built from shows that it is affine, so there is a row to read off.
  have haffine : e.IsAffine vs ⟨vs.length, [cs]⟩ [k] := by
    refine ⟨(length_of_scalar hscalar).symm, rfl, by simpa using hlength.symm,
      (length_of_scalar hscalar).symm, fun σ x hx => ?_⟩
    obtain ⟨ρ, hgives, rfl⟩ := Assignment.exists_gives hx
    rw [evaluate_eq_denote fun v hv => hgives v (hbases hv), hdenote]
    simp [Matrix.apply, ColumnOrder.ofVariables, Function.comp_def]
  obtain ⟨a, ha⟩ := haffine.exists_coefficients hnormal hbases
  obtain ⟨row, c, rfl, hwidth, hc, hrow⟩ := coefficients_of_scalar hscalar ha
  -- Both rows give the values of the sum, and at zero only the constants are left.
  have hvalue (ρ : Valuation) : inner cs (vs.map fun v => ρ v.id) + k =
      inner row (vs.map fun v => ρ v.id) + c :=
    (List.cons.inj ((hdenote ρ).symm.trans (hrow ρ))).1
  have hconstant : k = c := by
    have hzero := hvalue fun _ => 0
    simpa [List.map_const', inner_comm _ (List.replicate _ _), inner_replicate_zero] using hzero
  subst hconstant
  have hrepeated (j : ℕ) (v : Variable) (hv : vs[j]? = some v)
      (hid : v.id ∈ (vs.take j).map (·.id)) : row[j]? = some 0 := by
    have hget : (ColumnOrder.ofVariables vs).ids[j]? = some v.id := by
      simp [ColumnOrder.ofVariables, hv]
    exact entry_of_repeated ha (List.mem_singleton_self row) hget
      (by rwa [ColumnOrder.ofVariables, ← List.map_take])
  refine ⟨d, e, row, hd, he, hc, ha, hwidth, fun i v hv => ?_⟩
  split
  · next hid => exact hrepeated i v hv hid
  · next hid =>
    exact entry_of_inner_eq hwidth hrepeated (fun ρ => add_right_cancel (hvalue ρ).symm) hv hid

/-- The row of `x`, `y` and `x` again, with coefficients that cancel and one that is zero. -/
theorem affine_row_round_trip_cancelled :
    let x : Variable := ⟨⟨1⟩, .unit, .binary⟩
    let y : Variable := ⟨⟨2⟩, .unit, .binary⟩
    let vs := [x, y, x, y]
    let cs : List ℚ := [3, 0, -3, 5]
    (∀ v ∈ vs, v.check = .ok ()) ∧ ∃ d e,
      ((var (.vector vs)).dot (.expression (const (.vector cs)))).result = .ok d ∧
      (d.plus (.number 7)).result = .ok e ∧ e.constant = [7] ∧
      e.coefficients (.ofVariables vs) = .ok ⟨4, [[0, 5, 0, 0]]⟩ := by
  intro x y vs cs
  have hvs : ∀ v ∈ vs, v.check = .ok () := by
    have hx : x.check = .ok () := eq_ok_of_isOk (by decide +kernel)
    have hy : y.check = .ok () := eq_ok_of_isOk (by decide +kernel)
    simp [vs, hx, hy]
  obtain ⟨d, e, row, hd, he, hconstant, hcoefficients, hlength, hrow⟩ :=
    affine_row_round_trip (show vs.length = cs.length from rfl) hvs 7
  refine ⟨hvs, d, e, hd, he, hconstant, ?_⟩
  have hentries : row = [0, 5, 0, 0] := by
    refine List.ext_getElem? fun i => ?_
    match i with
    | 0 => exact (hrow 0 x rfl).trans (by decide +kernel)
    | 1 => exact (hrow 1 y rfl).trans (by decide +kernel)
    | 2 => exact (hrow 2 x rfl).trans (by decide +kernel)
    | 3 => exact (hrow 3 y rfl).trans (by decide +kernel)
    | i + 4 =>
      have hwidth : row.length = 4 := hlength
      rw [List.getElem?_eq_none (by omega), List.getElem?_eq_none (by simp)]
  rw [hcoefficients, hentries]
  rfl

end Expression

end AlgebraicModel
