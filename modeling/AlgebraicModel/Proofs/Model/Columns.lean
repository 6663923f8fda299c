import Mathlib
import AlgebraicModel.Proofs.Expression.AffineForm
import AlgebraicModel.Proofs.Model.Reachable

/-!
# The columns of a model

A model is asked for the column of a variable in one way, and places coefficients in another: the
first finds the last variable of an identity, the second the first. Both agree, and columns never
change, exactly as long as every variable from the supply has an identity that is new to the model.
An adopted variable is checked for that; a variable from the supply is not, so that it repeats the
identity of a variable that was adopted before the supply had got so far.

## Main definitions

* `Model.ColumnsAgree`: identities are distinct, and reported columns are those in use
* `Model.IsFresh`, `Workspace.DrawsFresh`: variables from the supply are new to the model

## Main results

* `Model.columnsAgree_of_nodup`: distinct identities are all that is needed
* `Workspace.drawsFresh_iff_nodup`: identities stay distinct exactly as long as draws are fresh
* `Workspace.columns_agree_iff_drawsFresh`: the same for the columns, along every run
-/

namespace AlgebraicModel

variable {α μ : Type}

/-! ## Both ways to a column -/

namespace Model

variable {m : Model α μ}

/-- The identities of the variables, in the order of their columns. -/
def ids (m : Model α μ) : List VariableId :=
  m.vars.map (·.id)

/-- The identities are distinct, and the reported columns are the places of the variables and the
columns of their coefficients. -/
structure ColumnsAgree (m : Model α μ) : Prop where
  distinct : m.ids.Nodup
  columnOf?_eq_some_iff : ∀ id j, m.columnOf? id = some j ↔ ∃ v, m.vars[j]? = some v ∧ v.id = id
  columnOf?_eq_column? : ∀ id, m.columnOf? id = m.order.column? id

theorem getElem?_ids_eq_some_iff {id : VariableId} {j : ℕ} :
    m.ids[j]? = some id ↔ ∃ v, m.vars[j]? = some v ∧ v.id = id := by
  rw [ids, List.getElem?_map, Option.map_eq_some_iff]

/-- A reported column is a place of the variable. -/
theorem getElem?_of_columnOf? {id : VariableId} {j : ℕ} (h : m.columnOf? id = some j) :
    m.ids[j]? = some id := by
  obtain ⟨⟨v, i⟩, hfind, rfl⟩ := Option.map_eq_some_iff.mp h
  rw [List.findRev?_eq_find?_reverse] at hfind
  have hmem := List.mem_reverse.mp (List.mem_of_find?_eq_some hfind)
  have hid : v.id = id := by simpa using List.find?_some hfind
  rw [getElem?_ids_eq_some_iff]
  exact ⟨v, (List.mem_zipIdx_iff_getElem?.mp hmem), hid⟩

theorem columnOf?_isSome_iff {id : VariableId} : (m.columnOf? id).isSome ↔ id ∈ m.ids := by
  constructor
  · intro h
    obtain ⟨j, hj⟩ := Option.isSome_iff_exists.mp h
    exact List.mem_of_getElem? (getElem?_of_columnOf? hj)
  · intro h
    obtain ⟨v, hv, hid⟩ := List.mem_map.mp h
    obtain ⟨j, hj⟩ := List.mem_iff_getElem?.mp hv
    rw [columnOf?, Option.isSome_map, List.findRev?_eq_find?_reverse, List.find?_isSome]
    exact ⟨(v, j), List.mem_reverse.mpr (List.mem_zipIdx_iff_getElem?.mpr hj), by simpa using hid⟩

/-- A way to find columns that finds a place of every identity finds the place, where identities are
distinct. -/
theorem eq_some_iff_of_nodup (hdistinct : m.ids.Nodup) {f : VariableId → Option ℕ}
    (hplace : ∀ id j, f id = some j → m.ids[j]? = some id)
    (hsome : ∀ id, (f id).isSome ↔ id ∈ m.ids) (id : VariableId) (j : ℕ) :
    f id = some j ↔ m.ids[j]? = some id := by
  refine ⟨hplace id j, fun hj => ?_⟩
  obtain ⟨i, hi⟩ := Option.isSome_iff_exists.mp ((hsome id).mpr (List.mem_of_getElem? hj))
  have hlt : i < m.ids.length := (List.getElem?_eq_some_iff.mp (hplace id i hi)).1
  rw [hi, (List.getElem?_inj hlt hdistinct).mp ((hplace id i hi).trans hj.symm)]

/-- Where identities are distinct, both ways find the same column. -/
theorem columnsAgree_of_nodup (hdistinct : m.ids.Nodup) : m.ColumnsAgree := by
  have hreported := eq_some_iff_of_nodup hdistinct (fun _ _ => getElem?_of_columnOf?)
    fun _ => columnOf?_isSome_iff
  have hused := eq_some_iff_of_nodup (f := m.order.column?) hdistinct
    (fun _ _ => ColumnOrder.getElem?_of_column?) fun _ => ColumnOrder.column?_isSome_iff
  refine ⟨hdistinct, fun id j => ?_, fun id => Option.ext fun j => ?_⟩
  · rw [hreported, getElem?_ids_eq_some_iff]
  · rw [hreported, hused]

/-! ## New identities -/

theorem isRegistered_iff_mem_ids {id : VariableId} : m.isRegistered id ↔ id ∈ m.ids := by
  rw [isRegistered_iff, ids, List.mem_map]

/-- The identities of the variables are distinct, and new to the model. -/
structure IsFresh (m : Model α μ) (vs : List Variable) : Prop where
  distinct : (vs.map (·.id)).Nodup
  unregistered : ∀ v ∈ vs, m.isRegistered v.id = false

theorem isFresh_nil : m.IsFresh [] := ⟨by simp, by simp⟩

/-- Variables in the next columns repeat no identity when they are fresh. -/
theorem nodup_append_iff (hm : m.ids.Nodup) (vs : List Variable) :
    ({ m with vars := m.vars ++ vs } : Model α μ).ids.Nodup ↔ m.IsFresh vs := by
  have hids : ({ m with vars := m.vars ++ vs } : Model α μ).ids = m.ids ++ vs.map (·.id) :=
    List.map_append
  have hdisjoint : List.Disjoint m.ids (vs.map (·.id)) ↔
      ∀ v ∈ vs, m.isRegistered v.id = false := by
    simp only [List.disjoint_right, List.forall_mem_map, ← isRegistered_iff_mem_ids,
      Bool.not_eq_true]
  rw [hids, List.nodup_append']
  constructor
  · rintro ⟨-, hdistinct, h⟩
    exact ⟨hdistinct, hdisjoint.mp h⟩
  · rintro ⟨hdistinct, h⟩
    exact ⟨hm, hdistinct, hdisjoint.mpr h⟩

theorem nodup_of_isPrefix {m' : Model α μ} (h : m.vars <+: m'.vars) (hm : m'.ids.Nodup) :
    m.ids.Nodup :=
  hm.sublist (h.map _).sublist

end Model

/-! ## Fresh draws -/

namespace Workspace

variable [Scalar α] {w w' : Workspace α μ}

/-- Along a history, what is taken from the supply for the model is fresh. -/
def DrawsFresh (w : Workspace α μ) : List (Action α μ) → Prop
  | [] => True
  | a :: history => w.model.IsFresh (w.drawn a) ∧ (w.step a).DrawsFresh history

/-- An effect only adds variables at the end. -/
theorem Effect.isPrefix_vars {a : Action α μ} {vs : List Variable} (h : w.Effect a vs w') :
    w.model.vars <+: w'.model.vars := by
  cases h with
  | draw | adopt => exact List.prefix_append _ _
  | constrain | objective | label => exact List.prefix_rfl

/-- An effect keeps identities distinct exactly if what it draws is fresh. -/
theorem Effect.nodup_iff {a : Action α μ} {vs : List Variable} (h : w.Effect a vs w')
    (hw : w.model.ids.Nodup) : w'.model.ids.Nodup ↔ w.model.IsFresh vs := by
  cases h with
  | draw vs hids hvs => exact Model.nodup_append_iff hw vs
  | adopt v hcheck hnew =>
    -- An adopted variable is new to the model, so this effect repeats no identity.
    have hfresh : w.model.IsFresh [v] := ⟨by simp, by simpa using hnew⟩
    exact iff_of_true ((Model.nodup_append_iff hw [v]).mpr hfresh) Model.isFresh_nil
  | constrain | objective | label => exact iff_of_true hw Model.isFresh_nil

theorem run_append (w : Workspace α μ) (before after : List (Action α μ)) :
    w.run (before ++ after) = (w.run before).run after := by
  simp [run]

theorem isPrefix_vars_run (w : Workspace α μ) (history : List (Action α μ)) :
    w.model.vars <+: (w.run history).model.vars := by
  induction history generalizing w with
  | nil => exact List.prefix_rfl
  | cons a history ih => exact (effect_step w a).isPrefix_vars.trans (ih (w.step a))

theorem isPrefix_vars_of_isPrefix {before after : List (Action α μ)} (h : before <+: after) :
    (w.run before).model.vars <+: (w.run after).model.vars := by
  obtain ⟨rest, rfl⟩ := h
  rw [run_append]
  exact isPrefix_vars_run _ rest

/-- Identities stay distinct exactly as long as draws are fresh. -/
theorem drawsFresh_iff_nodup (hw : w.model.ids.Nodup) (history : List (Action α μ)) :
    w.DrawsFresh history ↔ (w.run history).model.ids.Nodup := by
  -- The induction follows the run; a repeated identity stays, as variables are only added.
  induction history generalizing w with
  | nil => exact iff_of_true trivial hw
  | cons a history ih =>
    have hstep := (effect_step w a).nodup_iff hw
    constructor
    · rintro ⟨hfresh, hrest⟩
      exact (ih (hstep.mpr hfresh)).mp hrest
    · intro h
      have hnodup := Model.nodup_of_isPrefix (isPrefix_vars_run (w.step a) history) h
      exact ⟨hstep.mp hnodup, (ih hnodup).mpr h⟩

/-- **Columns agree exactly as long as draws are fresh.** Along a run of a new model, identities are
distinct, reported columns are those in use, and no later operation changes them, if and only if no
variable from the supply repeats an identity. -/
theorem columns_agree_iff_drawsFresh (hw : w.Initial) (history : List (Action α μ)) :
    ((∀ before, before <+: history → (w.run before).model.ColumnsAgree) ∧
      ∀ before after, before <+: after → after <+: history → ∀ id j,
        (w.run before).model.columnOf? id = some j → (w.run after).model.columnOf? id = some j) ↔
      w.DrawsFresh history := by
  have hempty : w.model.ids.Nodup := by
    obtain ⟨config, -, hmodel⟩ := hw.exists_config
    simp [hmodel, Model.ids]
  rw [drawsFresh_iff_nodup hempty]
  constructor
  · rintro ⟨hagree, -⟩
    exact (hagree history List.prefix_rfl).distinct
  · intro hdistinct
    have hagree (before : List (Action α μ)) (h : before <+: history) :
        (w.run before).model.ColumnsAgree :=
      Model.columnsAgree_of_nodup (Model.nodup_of_isPrefix (isPrefix_vars_of_isPrefix h) hdistinct)
    refine ⟨hagree, fun before after hbefore hafter id j hj => ?_⟩
    obtain ⟨v, hv, hid⟩ := ((hagree before (hbefore.trans hafter)).columnOf?_eq_some_iff id j).mp hj
    rw [(hagree after hafter).columnOf?_eq_some_iff]
    obtain ⟨rest, hrest⟩ := isPrefix_vars_of_isPrefix (w := w) hbefore
    have hlt := (List.getElem?_eq_some_iff.mp hv).1
    exact ⟨v, by rw [← hrest, List.getElem?_append_left hlt, hv], hid⟩

/-- Adopting `x₇` among variables from the supply is harmless. Adopting `x₁` before the supply has
given it out is not: `x₁` is reported in the second column and used in the first. -/
theorem columns_agree_iff_drawsFresh_adopted :
    let w : Workspace ℚ Unit := {}
    let late : List (Action ℚ Unit) :=
      [.addVector 2, .registerVariable ⟨⟨7⟩, {}, .integer⟩, .addBinary]
    let early : List (Action ℚ Unit) := [.registerVariable ⟨⟨1⟩, {}, .integer⟩, .addBinary]
    w.Initial ∧ (w.run late).model.ColumnsAgree ∧ ¬ w.DrawsFresh early ∧
      (w.run early).model.columnOf? ⟨1⟩ = some 1 ∧
      (w.run early).model.order.column? ⟨1⟩ = some 0 := by
  intro w late early
  have hinitial : w.Initial := ⟨{}, rfl⟩
  have hnodup : (w.run late).model.ids.Nodup := by decide +kernel
  have hfresh : w.DrawsFresh late := (drawsFresh_iff_nodup (w := w) (by decide) late).mpr hnodup
  have hreported : (w.run early).model.columnOf? ⟨1⟩ = some 1 := by decide +kernel
  have hused : (w.run early).model.order.column? ⟨1⟩ = some 0 := by decide +kernel
  have hagree := ((columns_agree_iff_drawsFresh hinitial late).mpr hfresh).1 late List.prefix_rfl
  refine ⟨hinitial, hagree, fun hfresh' => ?_, hreported, hused⟩
  have hruns := (columns_agree_iff_drawsFresh hinitial early).mpr hfresh'
  have hsame := (hruns.1 early List.prefix_rfl).columnOf?_eq_column? ⟨1⟩
  rw [hreported, hused] at hsame
  cases hsame

end Workspace

end AlgebraicModel
