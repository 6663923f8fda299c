import Mathlib
import AlgebraicModel.Proofs.Model.Journal

/-!
# What a model shows of its history

A model keeps its constraints and variables for good, in the order in which they came, and its
objective until another one is set. Each of its stores is therefore a projection of the journal of
the run: the accepted constraints, numbered from one; the listed variables, as they were listed; the
last objective; and its last name, unless the objective is newer.

## Main definitions

* `Model.accepted`, `listed`, `posed`: the constraints, variables and objectives of a journal
* `Model.Reflects`: the stores of a model are those of a journal

## Main results

* `Model.Sound.getConstraint_eq_ok_iff`: a constraint is found under its identity
* `Workspace.stores_reflect_history`: the stores of a model reflect its history
-/

namespace AlgebraicModel

variable {α μ : Type}

namespace Model

/-! ## Stores of a journal -/

namespace Entry

/-- The variables that were listed. -/
def vars : Entry α μ → List Variable
  | .listed vs => vs
  | _ => []

/-- The constraint that was accepted. -/
def constraint? : Entry α μ → Option (Constraint α)
  | .constrained _ c => some c
  | _ => none

/-- The objective that was set. -/
def objective? : Entry α μ → Option (Objective α)
  | .posed o => some o
  | _ => none

/-- What becomes of the name of the objective: a new objective has none. -/
def title? : Entry α μ → Option (Option String)
  | .posed _ => some none
  | .titled n => some n
  | _ => none

theorem eq_titled_of_title? {e : Entry α μ} {n : String} (h : e.title? = some (some n)) :
    e = .titled (some n) := by
  cases e with
  | titled n' => rw [Option.some.inj h]
  | posed o => cases Option.some.inj h
  | _ => cases h

theorem objective?_of_title? {e : Entry α μ} (h : e.title? = none) : e.objective? = none := by
  cases e with
  | posed o => cases h
  | _ => rfl

end Entry

/-- The constraints of a journal, in the order in which they were accepted. -/
def accepted (j : List (Entry α μ)) : List (Constraint α) :=
  j.filterMap Entry.constraint?

/-- The variables of a journal, in the order in which they were listed. -/
def listed (j : List (Entry α μ)) : List Variable :=
  j.flatMap Entry.vars

/-- The objectives of a journal, in the order in which they were set. -/
def posed (j : List (Entry α μ)) : List (Objective α) :=
  j.filterMap Entry.objective?

/-! ## Entering a journal -/

variable (m : Model α μ) (j : List (Entry α μ))

theorem vars_foldl_enter : (j.foldl enter m).vars = m.vars ++ listed j :=
  foldl_append_of_step Model.vars
    (fun m e => by cases e <;> simp [enter, Entry.vars]) m j

theorem constraints_foldl_enter :
    (j.foldl enter m).constraints.map (·.2) = m.constraints.map (·.2) ++ accepted j := by
  have hstep (m : Model α μ) (e : Entry α μ) : (m.enter e).constraints.map (·.2) =
      m.constraints.map (·.2) ++ e.constraint?.toList := by
    cases e <;> simp [enter, Entry.constraint?]
  have hflat : accepted j = j.flatMap fun e => e.constraint?.toList :=
    List.filterMap_eq_flatMap_toList _ _
  rw [hflat]
  exact foldl_append_of_step (fun m => m.constraints.map (·.2)) hstep m j

theorem objective?_foldl_enter :
    (j.foldl enter m).objective? = (posed j).getLast?.or m.objective? :=
  foldl_getLast?_of_step Model.objective?
    (fun m e => by cases e <;> simp [enter, Entry.objective?]) m j

theorem objectiveName?_foldl_enter : some (j.foldl enter m).objectiveName? =
    (j.filterMap Entry.title?).getLast?.or (some m.objectiveName?) :=
  foldl_getLast?_of_step (fun m => some m.objectiveName?)
    (fun m e => by cases e <;> simp [enter, Entry.title?]) m j

theorem posed_append (before after : List (Entry α μ)) :
    posed (before ++ after) = posed before ++ posed after :=
  List.filterMap_append

/-- The name of the objective is the last one that was given, and no objective is newer. -/
theorem exists_titled_of_foldl_enter {m : Model α μ} {j : List (Entry α μ)} {n : String}
    (hm : m.objectiveName? = none) (h : (j.foldl enter m).objectiveName? = some n) :
    ∃ before after, j = before ++ .titled (some n) :: after ∧ posed after = [] := by
  have htitle := m.objectiveName?_foldl_enter j
  rw [hm, h] at htitle
  have hlast : (j.filterMap Entry.title?).getLast? = some (some n) := by
    cases hget : (j.filterMap Entry.title?).getLast? with
    | none => simp [hget] at htitle
    | some t => simpa [hget, eq_comm] using htitle
  obtain ⟨before, e, after, rfl, he, hafter⟩ := getLast?_filterMap_eq_some_iff.mp hlast
  obtain rfl := Entry.eq_titled_of_title? he
  refine ⟨before, after, rfl, List.filterMap_eq_nil_iff.mpr fun e he => ?_⟩
  exact Entry.objective?_of_title? (hafter e he)

/-! ## Constraints by identity -/

variable [Scalar α] {m} {id : ConstraintId} {c : Constraint α}

/-- A constraint is found under its identity. -/
theorem Sound.getConstraint_eq_ok_iff (hm : m.Sound) :
    m.getConstraint id = .ok c ↔ (id, c) ∈ m.constraints := by
  have hconstraint : m.constraint? id = some c ↔ (id, c) ∈ m.constraints := by
    rw [constraint?, Option.map_eq_some_iff]
    constructor
    · rintro ⟨⟨id', c⟩, hfind, rfl⟩
      obtain rfl : id' = id := by simpa using List.find?_some hfind
      exact List.mem_of_find?_eq_some hfind
    · intro hmem
      have hsome : (m.constraints.find? (·.1 = id)).isSome :=
        List.find?_isSome.mpr ⟨_, hmem, by simp⟩
      obtain ⟨p, hp⟩ := Option.isSome_iff_exists.mp hsome
      obtain rfl : p = (id, c) := List.inj_on_of_nodup_map hm.nodup_constraints
        (List.mem_of_find?_eq_some hp) hmem (by simpa using List.find?_some hp)
      exact ⟨_, hp, rfl⟩
  rw [← hconstraint, getConstraint]
  cases m.constraint? id <;> simp

theorem Sound.getConstraint_eq_error_iff (hm : m.Sound) :
    m.getConstraint id = .error (.unknownConstraint id) ↔ ∀ c, (id, c) ∉ m.constraints := by
  simp only [← hm.getConstraint_eq_ok_iff, getConstraint]
  cases m.constraint? id <;> simp

/-! ## Stores and journals -/

/-- The stores of the model are those of the journal. -/
structure Reflects (m : Model α μ) (j : List (Entry α μ)) : Prop where
  constraints : m.constraints.map (fun p => (p.2, p.1.value.toNat)) = (accepted j).zipIdx 1
  found : ∀ k c id, (accepted j)[k]? = some c → id.value.toNat = k + 1 → m.getConstraint id = .ok c
  notFound : ∀ id, (∀ k < (accepted j).length, id.value.toNat ≠ k + 1) →
    m.getConstraint id = .error (.unknownConstraint id)
  vars : m.vars = listed j
  objective : m.objective? = (posed j).getLast?
  objectiveName : ∀ n, m.objectiveName? = some n → ∃ o before after,
    j = before ++ .titled (some n) :: after ∧ m.objective? = some o ∧
      (posed before).getLast? = some o ∧ posed after = []

omit [Scalar α] in
/-- Where constraints are numbered from one, the number of a constraint is its place. -/
theorem mem_constraints_iff {cs : List (Constraint α)}
    (h : m.constraints.map (fun p => (p.2, p.1.value.toNat)) = cs.zipIdx 1) :
    (id, c) ∈ m.constraints ↔ ∃ k, cs[k]? = some c ∧ id.value.toNat = k + 1 := by
  have hinjective : Function.Injective
      fun p : ConstraintId × Constraint α => (p.2, p.1.value.toNat) := by
    rintro ⟨⟨i⟩, c⟩ ⟨⟨i'⟩, c'⟩ heq
    obtain ⟨rfl, hvalue⟩ := Prod.mk.inj heq
    obtain rfl : i = i' := UInt32.toNat_inj.mp hvalue
    rfl
  rw [← List.mem_map_of_injective hinjective, h, List.mk_mem_zipIdx_iff_le_and_getElem?_sub]
  constructor
  · rintro ⟨hone, hc⟩
    have hone : 1 ≤ id.value.toNat := hone
    exact ⟨id.value.toNat - 1, hc, by omega⟩
  · rintro ⟨k, hc, hk⟩
    rw [hk]
    exact ⟨by omega, hc⟩

theorem Sound.constraints_eq_zipIdx (hm : m.Sound) :
    m.constraints.map (fun p => (p.2, p.1.value.toNat)) = (m.constraints.map (·.2)).zipIdx 1 := by
  have hlength : m.constraints.length = m.lastConstraint.toNat := by
    simpa using congrArg List.length hm.numbered
  rw [List.zipIdx_eq_zip_range', List.length_map, hlength, ← hm.numbered, List.zip_map']

end Model

/-! ## Histories -/

namespace Workspace

open Model (Entry)

variable [Scalar α] {w : Workspace α μ}

/-- Only an objective that is set is given a name. -/
theorem isSome_objective?_of_titled {a : Action α μ} {n : Option String}
    (h : w.entryOf? a = some (.titled n)) : w.model.objective?.isSome := by
  cases a with
  | nameObjective n' =>
    obtain ⟨⟨⟩, hanswer, -⟩ := Option.map_eq_some_iff.mp h
    rcases Build.nameObjective_spec (w := w) n' with ⟨⟨cause, herror⟩, -⟩ | ⟨hsome, -⟩
    · simp [herror, Except.toOption] at hanswer
    · exact hsome
  | _ => simp [entryOf?, Build.posed?, Option.bind_eq_some_iff] at h

theorem isSome_objective?_of_name (hw : w.Initial) (history : List (Action α μ))
    (h : (w.run history).model.objectiveName?.isSome) :
    (w.run history).model.objective?.isSome := by
  induction history using List.reverseRecOn with
  | nil =>
    obtain ⟨config, -, hmodel⟩ := hw.exists_config
    simp [hmodel] at h
  | append_singleton history a ih =>
    rw [run_concat, model_step] at h ⊢
    cases hentry : (w.run history).entryOf? a with
    | none =>
      rw [hentry] at h
      exact ih h
    | some e =>
      rw [hentry] at h
      cases e with
      | posed o => rfl
      | titled n => exact isSome_objective?_of_titled hentry
      | _ => exact ih h

theorem reflects_run (hw : w.Initial) (history : List (Action α μ)) :
    (w.run history).model.Reflects (w.journal history) := by
  have hm : (w.run history).model.Sound := Reachable.sound ⟨w, history, hw, rfl⟩
  have hname := isSome_objective?_of_name hw history
  obtain ⟨config, -, hmodel⟩ := hw.exists_config
  have hjournal := w.model_run history
  have haccepted := w.model.constraints_foldl_enter (w.journal history)
  have hvars := w.model.vars_foldl_enter (w.journal history)
  have hobjective := w.model.objective?_foldl_enter (w.journal history)
  rw [← hjournal, hmodel] at haccepted hvars hobjective
  simp only [List.map_nil, List.nil_append, Option.or_none] at haccepted hvars hobjective
  have hconstraints := hm.constraints_eq_zipIdx
  rw [haccepted] at hconstraints
  refine ⟨hconstraints, ?_, ?_, hvars, hobjective, ?_⟩
  · intro k c id hc hid
    exact hm.getConstraint_eq_ok_iff.mpr ((Model.mem_constraints_iff hconstraints).mpr ⟨k, hc, hid⟩)
  · intro id hid
    refine hm.getConstraint_eq_error_iff.mpr fun c hmem => ?_
    obtain ⟨k, hc, hk⟩ := (Model.mem_constraints_iff hconstraints).mp hmem
    exact hid k (List.getElem?_eq_some_iff.mp hc).1 hk
  · intro n hn
    obtain ⟨before, after, hsplit, hnone⟩ :=
      Model.exists_titled_of_foldl_enter (by rw [hmodel]) (hjournal ▸ hn)
    -- No objective comes after the name, so the present one came before it.
    have hposed : Model.posed (w.journal history) = Model.posed before := by
      have hsingle : Model.posed [(.titled (some n) : Entry α μ)] = [] := rfl
      rw [hsplit, List.append_cons, Model.posed_append, Model.posed_append, hsingle, hnone,
        List.append_nil, List.append_nil]
    obtain ⟨o, ho⟩ := Option.isSome_iff_exists.mp (hname (by simp [hn]))
    exact ⟨o, before, after, hsplit, ho, by rw [← hposed, ← hobjective, ho], hnone⟩

/-- A constraint that is found under an identity is found there after any later operations. -/
theorem getConstraint_run_append (hw : w.Initial) {history : List (Action α μ)}
    (later : List (Action α μ)) {id : ConstraintId} {c : Constraint α}
    (h : (w.run history).model.getConstraint id = .ok c) :
    (w.run (history ++ later)).model.getConstraint id = .ok c := by
  have hm : (w.run history).model.Sound := Reachable.sound ⟨w, history, hw, rfl⟩
  have hbefore := (reflects_run hw history).constraints
  obtain ⟨k, hc, hid⟩ := (Model.mem_constraints_iff hbefore).mp (hm.getConstraint_eq_ok_iff.mp h)
  refine (reflects_run hw (history ++ later)).found k c id ?_ hid
  have haccepted : Model.accepted (w.journal (history ++ later)) =
      Model.accepted (w.journal history) ++
        Model.accepted ((w.run history).journal later) := by
    rw [journal_append]
    exact List.filterMap_append
  rw [haccepted, List.getElem?_append_left (List.getElem?_eq_some_iff.mp hc).1, hc]

/-- **The stores of a model reflect its history.** After any run of a new model, in which operations
may fail: the constraints are those that were accepted, numbered from one, and found under their
numbers and no others, also after any later operations; the variables are those that were listed,
as they were listed, and later ones come after them; the objective is the last one that was set;
and a name of the objective was given after that. One more action adds its entry to the journal,
and has none if and only if it fails or only draws from the supply. -/
theorem stores_reflect_history (hw : w.Initial) (history later : List (Action α μ)) :
    (w.run history).model.Reflects (w.journal history) ∧
      (∀ id c, (w.run history).model.getConstraint id = .ok c →
        (w.run (history ++ later)).model.getConstraint id = .ok c) ∧
      (w.run history).model.vars <+: (w.run (history ++ later)).model.vars ∧
      ∀ a, w.journal (history ++ [a]) =
          w.journal history ++ ((w.run history).entryOf? a).toList ∧
        ((w.run history).entryOf? a = none ↔
          (∃ n, a = .draw n) ∨ ∃ cause, (w.run history).error? a = some cause) := by
  refine ⟨reflects_run hw history, fun id c => getConstraint_run_append hw later, ?_, fun a => ?_⟩
  · exact isPrefix_vars_of_isPrefix (List.prefix_append history later)
  · exact ⟨w.journal_concat history a, entryOf?_eq_none_iff⟩

/-- Two constraints are accepted and one between them is not; `x₇` is adopted, and not a second time
with other bounds; a maximization fails, an objective replaces the first one, and the name of the
first one is gone. -/
theorem stores_reflect_history_failures :
    let x₁ : Expression Float := .var (.scalar ⟨⟨1⟩, .unit, .binary⟩)
    let x₇ : Expression Float := .var (.scalar ⟨⟨7⟩, {}, .integer⟩)
    let x₉ : Expression Float := .var (.scalar ⟨⟨9⟩, {}, .integer⟩)
    let w : Workspace Float Unit := {}
    let history : List (Action Float Unit) := [.addBinary, .addConstraint ⟨x₁, .le, x₁, false⟩,
      .addConstraint ⟨x₁, .eq, x₉, false⟩, .registerVariable ⟨⟨7⟩, {}, .integer⟩,
      .registerVariable ⟨⟨7⟩, .unit, .binary⟩, .addConstraint ⟨x₇, .ge, x₁, false⟩,
      .minimize (.expression x₁), .nameObjective (some "first"), .maximize (.expression x₇),
      .setObjective .maximize (.expression x₇)]
    let m := (w.run history).model
    w.Initial ∧ (Model.accepted (w.journal history)).map (·.relation) = [.le, .ge] ∧
      (∃ c, c.relation = .ge ∧
        ∀ later, (w.run (history ++ later)).model.getConstraint ⟨2⟩ = .ok c) ∧
      m.getConstraint ⟨3⟩ = .error (.unknownConstraint ⟨3⟩) ∧
      (m.vars.map fun v => (v.id, v.integrality)) = [(⟨1⟩, .binary), (⟨7⟩, .integer)] ∧
      m.objective?.map (·.direction) = some .maximize ∧ m.objectiveName? = none := by
  intro x₁ x₇ x₉ w history m
  have hw : w.Initial := ⟨{}, rfl⟩
  have hrelations : (Model.accepted (w.journal history)).map (·.relation) = [.le, .ge] := by
    decide +kernel
  have hlength : (Model.accepted (w.journal history)).length = 2 := by
    simpa using congrArg List.length hrelations
  have hreflects : m.Reflects (w.journal history) := (stores_reflect_history hw history []).1
  obtain ⟨c, hc, hrelation⟩ : ∃ c, (Model.accepted (w.journal history))[1]? = some c ∧
      c.relation = .ge := by
    rw [← Option.map_eq_some_iff, ← List.getElem?_map, hrelations]
    rfl
  have hfound : m.getConstraint ⟨2⟩ = .ok c := hreflects.found 1 c ⟨2⟩ hc rfl
  refine ⟨hw, hrelations, ⟨c, hrelation, fun later => ?_⟩, ?_, ?_, ?_, by decide +kernel⟩
  · exact (stores_reflect_history hw history later).2.1 ⟨2⟩ c hfound
  · refine hreflects.notFound ⟨3⟩ fun k hk => ?_
    have hthree : (⟨3⟩ : ConstraintId).value.toNat = 3 := rfl
    omega
  · rw [hreflects.vars]
    decide +kernel
  · rw [hreflects.objective]
    decide +kernel

end Workspace

end AlgebraicModel
