import Mathlib
import AlgebraicModel.Proofs.Model.Naming

/-!
# Names that are carried

A name is found through the thing that it was last given to, and several things may carry it. So
whether a name that is carried is found depends on that thing alone: it is found while that thing
keeps it, and once that thing has got another name it is not found through an older carrier either,
until it is given again.

## Main definitions

* `Labels.lastThing?`: the thing that a name was last given to
* `Labels.FindsCarried`: every name that is carried is found
* `Labels.FindsLastGiven`: a name that is carried is found as long as the thing that it was last
  given to carries it

## Main results

* `Labels.carries_iff`: a name was last given to a thing, which has it as its last name
* `Labels.Tracks.findsLastGiven`: which of the names that are carried are found
* `Workspace.carried_names_found`: the same along every run
* `Workspace.carried_name_not_found`: a carried name that is not found
-/

namespace AlgebraicModel

namespace Labels

variable {ι μ : Type} [DecidableEq ι] {given : List (ι × String)} {n m : String} {i j : ι}

/-! ## The last thing of a name -/

omit [DecidableEq ι] in
/-- The thing that a name was last given to. -/
def lastThing? (given : List (ι × String)) (n : String) : Option ι :=
  (given.filter (·.2 = n)).getLast?.map (·.1)

omit [DecidableEq ι] in
theorem lastThing?_concat :
    lastThing? (given ++ [(j, m)]) n = if m = n then some j else lastThing? given n := by
  by_cases h : m = n <;> simp [lastThing?, List.filter_append, h]

/-- A name that is carried was given to something. -/
theorem exists_lastThing? (h : lastName? given i = some n) : ∃ j, lastThing? given n = some j := by
  induction given using List.reverseRecOn with
  | nil => cases h
  | append_singleton given p ih =>
    obtain ⟨j, m⟩ := p
    rw [lastName?_concat] at h
    rw [lastThing?_concat]
    by_cases hm : m = n
    · exact ⟨j, if_pos hm⟩
    · have hji : j ≠ i := by
        rintro rfl
        rw [if_pos rfl] at h
        exact hm (Option.some.inj h)
      rw [if_neg hji] at h
      rw [if_neg hm]
      exact ih h

/-- A thing carries a name that was last given to it and that is the last one that it was given. -/
theorem carries_iff :
    Carries given n i ↔ lastThing? given n = some i ∧ lastName? given i = some n := by
  induction given using List.reverseRecOn with
  | nil => exact iff_of_false not_carries_nil fun h => by cases h.1
  | append_singleton given p ih =>
    obtain ⟨j, m⟩ := p
    rw [carries_concat_iff, lastThing?_concat, lastName?_concat]
    by_cases hm : m = n <;> by_cases hj : j = i <;> simp [hm, hj, ih]

/-! ## Which names are found -/

/-- Every name that is carried is found, by a thing that carries it. -/
def FindsCarried (l : Labels ι μ) : Prop :=
  ∀ n i, l.name? i = some n → ∃ j, l.named? n = some j ∧ l.name? j = some n

/-- A name that is carried is found by the thing that it was last given to, as long as that thing
carries it, and by no thing afterwards. -/
def FindsLastGiven (l : Labels ι μ) (given : List (ι × String)) : Prop :=
  ∀ n i, l.name? i = some n → ∃ j, lastThing? given n = some j ∧
    (l.name? j = some n → l.named? n = some j) ∧ (l.name? j ≠ some n → l.named? n = none)

variable {l : Labels ι μ}

/-- What is found by a name is the thing that it was last given to, if that is still its name. -/
theorem Tracks.named?_eq_some_iff (h : l.Tracks given) :
    l.named? n = some i ↔ lastThing? given n = some i ∧ l.name? i = some n := by
  rw [h.follows.named, carries_iff, h.name]

/-- **A carried name is found as long as the thing that it was last given to carries it.** -/
theorem Tracks.findsLastGiven (h : l.Tracks given) : l.FindsLastGiven given := by
  intro n i hi
  rw [h.name] at hi
  obtain ⟨j, hj⟩ := exists_lastThing? hi
  refine ⟨j, hj, fun hname => h.named?_eq_some_iff.mpr ⟨hj, hname⟩, fun hname => ?_⟩
  refine Option.eq_none_iff_forall_ne_some.mpr fun k hk => hname ?_
  obtain ⟨hlast, hk⟩ := h.named?_eq_some_iff.mp hk
  obtain rfl := Option.some.inj (hj.symm.trans hlast)
  exact hk

end Labels

/-! ## Histories -/

namespace Workspace

variable {α μ : Type} [Scalar α] {w : Workspace α μ}

/-- **A carried name is found unless it was passed on and given up.** After any run of a new model,
a name that a variable carries is found, by the variable that it was last given to, unless that
variable has got another name since; then it is not found at all. The same holds of constraints. -/
theorem carried_names_found (hw : w.Initial) (history : List (Action α μ)) :
    (w.run history).model.variableLabels.FindsLastGiven
        (Model.variableNames (w.journal history)) ∧
      (w.run history).model.constraintLabels.FindsLastGiven
        (Model.constraintNames (w.journal history)) := by
  obtain ⟨hvariables, hconstraints⟩ := tracks_run hw history
  exact ⟨hvariables.findsLastGiven, hconstraints.findsLastGiven⟩

/-- Both variables are called `a` and both constraints `c`, which the second of each is found by.
Once the second variable is called `b`, no variable is found by `a`. -/
theorem carried_names_found_shared :
    let x₁ : Expression Float := .var (.scalar ⟨⟨1⟩, {}, .continuous⟩)
    let w : Workspace Float Unit := {}
    let history : List (Action Float Unit) := [.addVector 2, .nameVariable ⟨1⟩ "a",
      .nameVariable ⟨2⟩ "a", .addConstraint ⟨x₁, .le, x₁, false⟩,
      .addConstraint ⟨x₁, .ge, x₁, false⟩, .nameConstraint ⟨1⟩ "c", .nameConstraint ⟨2⟩ "c"]
    let m := (w.run history).model
    let m' := (w.run (history ++ [.nameVariable ⟨2⟩ "b"])).model
    w.Initial ∧ m.variableLabels.name? ⟨1⟩ = some "a" ∧ m.variableLabels.named? "a" = some ⟨2⟩ ∧
      m.constraintLabels.name? ⟨1⟩ = some "c" ∧ m.constraintLabels.named? "c" = some ⟨2⟩ ∧
      m'.variableLabels.name? ⟨1⟩ = some "a" ∧ m'.variableLabels.named? "a" = none := by
  intro x₁ w history m m'
  have hw : w.Initial := ⟨{}, rfl⟩
  have hvariable : m.variableLabels.name? ⟨1⟩ = some "a" := by decide +kernel
  have hconstraint : m.constraintLabels.name? ⟨1⟩ = some "c" := by decide +kernel
  have hvariable' : m'.variableLabels.name? ⟨1⟩ = some "a" := by decide +kernel
  have hvariables : m.variableLabels.FindsLastGiven (Model.variableNames (w.journal history)) :=
    (carried_names_found hw history).1
  have hconstraints : m.constraintLabels.FindsLastGiven
      (Model.constraintNames (w.journal history)) := (carried_names_found hw history).2
  have hvariables' : m'.variableLabels.FindsLastGiven
      (Model.variableNames (w.journal (history ++ [.nameVariable ⟨2⟩ "b"]))) :=
    (carried_names_found hw _).1
  obtain ⟨i, hi, hfound, -⟩ := hvariables "a" ⟨1⟩ hvariable
  obtain ⟨j, hj, hfound', -⟩ := hconstraints "c" ⟨1⟩ hconstraint
  obtain ⟨k, hk, -, hlost⟩ := hvariables' "a" ⟨1⟩ hvariable'
  have hlast : Labels.lastThing? (Model.variableNames (w.journal history)) "a" = some ⟨2⟩ := by
    decide +kernel
  have hlast' : Labels.lastThing? (Model.constraintNames (w.journal history)) "c" = some ⟨2⟩ := by
    decide +kernel
  have hlast'' : Labels.lastThing? (Model.variableNames
      (w.journal (history ++ [.nameVariable ⟨2⟩ "b"]))) "a" = some ⟨2⟩ := by decide +kernel
  obtain rfl := Option.some.inj (hi.symm.trans hlast)
  obtain rfl := Option.some.inj (hj.symm.trans hlast')
  obtain rfl := Option.some.inj (hk.symm.trans hlast'')
  have hkept : m.variableLabels.name? ⟨2⟩ = some "a" := by decide +kernel
  have hkept' : m.constraintLabels.name? ⟨2⟩ = some "c" := by decide +kernel
  have hrenamed : m'.variableLabels.name? ⟨2⟩ ≠ some "a" := by decide +kernel
  exact ⟨hw, hvariable, hfound hkept, hconstraint, hfound' hkept', hvariable', hlost hrenamed⟩

/-- **A name that is carried may not be found**, among variables and among constraints alike: it was
passed on to another thing, which got a different name afterwards. -/
theorem carried_name_not_found :
    let x₁ : Expression Float := .var (.scalar ⟨⟨1⟩, {}, .continuous⟩)
    let w : Workspace Float Unit := {}
    let m := (w.run [.addVector 2, .nameVariable ⟨1⟩ "a", .nameVariable ⟨2⟩ "a",
      .nameVariable ⟨2⟩ "b", .addConstraint ⟨x₁, .le, x₁, false⟩,
      .addConstraint ⟨x₁, .ge, x₁, false⟩, .nameConstraint ⟨1⟩ "c", .nameConstraint ⟨2⟩ "c",
      .nameConstraint ⟨2⟩ "d"]).model
    w.Initial ∧ ¬ m.variableLabels.FindsCarried ∧ ¬ m.constraintLabels.FindsCarried := by
  intro x₁ w m
  have hvariable : m.variableLabels.name? ⟨1⟩ = some "a" := by decide +kernel
  have hconstraint : m.constraintLabels.name? ⟨1⟩ = some "c" := by decide +kernel
  have hlost : m.variableLabels.named? "a" = none := by decide +kernel
  have hlost' : m.constraintLabels.named? "c" = none := by decide +kernel
  refine ⟨⟨{}, rfl⟩, fun hfinds => ?_, fun hfinds => ?_⟩
  · obtain ⟨j, hj, -⟩ := hfinds "a" ⟨1⟩ hvariable
    rw [hlost] at hj
    cases hj
  · obtain ⟨j, hj, -⟩ := hfinds "c" ⟨1⟩ hconstraint
    rw [hlost'] at hj
    cases hj

end Workspace

end AlgebraicModel
