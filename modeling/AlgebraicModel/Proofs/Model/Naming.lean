import Mathlib
import AlgebraicModel.Proofs.Model.Journal

/-!
# Lookup by name

Labels keep two maps: the name of each thing, and for each name the thing that is found by it.
Naming changes both, and takes back the old name of a thing only if the thing is still found by it.
So both maps follow the list of the names that were given: a thing carries its last name, and is
found by a name that was last given to it, until it gets a different one.

## Main definitions

* `Labels.Carries`: a name was last given to a thing, which got no other name since
* `Labels.Tracks`, `Labels.Follows`: both maps against the names that were given
* `Model.variableNames`, `constraintNames`: the names that were given along a journal

## Main results

* `Labels.Tracks.setName`: naming keeps both maps in step
* `Workspace.tracks_run`: both maps against the names that were given along a run
* `Workspace.lookup_follows_names`: lookup by name along every run
-/

namespace AlgebraicModel

namespace Labels

variable {ι μ : Type} [DecidableEq ι]

/-! ## Names that were given -/

/-- The name was last given to the thing, which was given no different one later. -/
def Carries (given : List (ι × String)) (n : String) (i : ι) : Prop :=
  ∃ before after, given = before ++ (i, n) :: after ∧
    (∀ p ∈ after, p.2 ≠ n) ∧ ∀ p ∈ after, p.1 = i → p.2 = n

variable {given : List (ι × String)} {n m : String} {i j : ι}

omit [DecidableEq ι] in
theorem not_carries_nil : ¬ Carries ([] : List (ι × String)) n i := by
  rintro ⟨before, after, hsplit, -⟩
  simp at hsplit

omit [DecidableEq ι] in
/-- Giving a name changes who carries it, and takes the old name of the thing that gets it. -/
theorem carries_concat_iff : Carries (given ++ [(j, m)]) n i ↔
    if m = n then j = i else j ≠ i ∧ Carries given n i := by
  constructor
  · rintro ⟨before, after, hsplit, hname, hthing⟩
    rcases List.eq_nil_or_concat after with rfl | ⟨after, p, rfl⟩
    · obtain ⟨rfl, hlast⟩ := List.append_inj' hsplit rfl
      cases hlast
      rw [if_pos rfl]
    · rw [List.concat_eq_append, ← List.cons_append, ← List.append_assoc] at hsplit
      obtain ⟨rfl, hlast⟩ := List.append_inj' hsplit rfl
      obtain rfl := List.singleton_inj.mp hlast
      rw [List.concat_eq_append, List.forall_mem_append, List.forall_mem_singleton] at hname hthing
      rw [if_neg hname.2]
      exact ⟨fun h => hname.2 (hthing.2 h), before, after, rfl, hname.1, hthing.1⟩
  · split
    · next heq =>
      rintro rfl
      exact ⟨given, [], by rw [heq], by simp, by simp⟩
    · next hne =>
      rintro ⟨hother, before, after, rfl, hname, hthing⟩
      refine ⟨before, after ++ [(j, m)], by simp, ?_, ?_⟩
      · exact List.forall_mem_append.mpr ⟨hname, by simpa using hne⟩
      · exact List.forall_mem_append.mpr ⟨hthing, by simp [hother]⟩

/-- The last name that was given to a thing. -/
def lastName? (given : List (ι × String)) (i : ι) : Option String :=
  (given.filter (·.1 = i)).getLast?.map (·.2)

theorem lastName?_concat :
    lastName? (given ++ [(j, m)]) i = if j = i then some m else lastName? given i := by
  by_cases h : j = i <;> simp [lastName?, List.filter_append, h]

/-- The name that a thing carries is the last one that it was given. -/
theorem lastName?_of_carries (h : Carries given n i) : lastName? given i = some n := by
  induction given using List.reverseRecOn with
  | nil => exact (not_carries_nil h).elim
  | append_singleton given p ih =>
    rw [carries_concat_iff] at h
    rw [lastName?_concat]
    split at h
    · next heq => rw [if_pos h, heq]
    · rw [if_neg h.1, ih h.2]

/-! ## Both maps -/

/-- Both maps are those of the names that were given. -/
structure Tracks (l : Labels ι μ) (given : List (ι × String)) : Prop where
  name : ∀ i, l.name? i = lastName? given i
  holder : ∀ n i, l.holder? n = some i ↔ Carries given n i

variable {l : Labels ι μ}

theorem name?_setName (l : Labels ι μ) (i j : ι) (m : String) :
    (l.setName j m).name? i = if i = j then some m else l.name? i := rfl

theorem holder?_setName (l : Labels ι μ) (j : ι) (m n : String) :
    (l.setName j m).holder? n = if n = m then some j else (l.release j).holder? n := rfl

theorem tracks_empty : ({} : Labels ι μ).Tracks [] where
  name _ := rfl
  holder _ _ := iff_of_false (by simp) not_carries_nil

/-- What is found by a name carries it. -/
theorem Tracks.name?_of_holder? (h : l.Tracks given) (hi : l.holder? n = some i) :
    l.name? i = some n := by
  rw [h.name, lastName?_of_carries ((h.holder n i).mp hi)]

/-- A thing that gives up its name is not found any more, and every other one is found as before. -/
theorem Tracks.holder?_release (h : l.Tracks given) :
    (l.release j).holder? n = some i ↔ j ≠ i ∧ l.holder? n = some i := by
  have hname (hj : l.holder? n = some j) : l.name? j = some n := h.name?_of_holder? hj
  -- Only the name that the thing carries can change hands, and only if the thing is found by it.
  have hrelease : (l.release j).holder? n =
      if l.holder? n = some j then none else l.holder? n := by
    unfold release
    split
    · next hnone => rw [if_neg fun hj => by simp [hname hj] at hnone]
    · next m hm =>
      by_cases hmn : m = n
      · subst hmn
        split <;> simp_all [updateAt]
      · have hnot : l.holder? n ≠ some j := by
          intro hj
          exact hmn (Option.some.inj (hm.symm.trans (hname hj)))
        rw [if_neg hnot]
        split <;> simp [updateAt, Ne.symm hmn]
  rw [hrelease]
  by_cases hj : l.holder? n = some j
  · simp [hj]
  · rw [if_neg hj]
    refine ⟨fun hi => ⟨?_, hi⟩, And.right⟩
    rintro rfl
    exact hj hi

/-- Naming keeps both maps in step. -/
theorem Tracks.setName (h : l.Tracks given) (j : ι) (m : String) :
    (l.setName j m).Tracks (given ++ [(j, m)]) where
  name i := by
    rw [lastName?_concat, ← h.name, name?_setName]
    by_cases hi : j = i
    · rw [if_pos hi, if_pos hi.symm]
    · rw [if_neg hi, if_neg (Ne.symm hi)]
  holder n i := by
    rw [carries_concat_iff, ← h.holder, ← h.holder?_release, holder?_setName]
    by_cases hn : m = n
    · rw [if_pos hn, if_pos hn.symm, Option.some.injEq]
    · rw [if_neg hn, if_neg (Ne.symm hn)]

theorem Tracks.setMetadata (h : l.Tracks given) (i : ι) (x : μ) :
    (l.setMetadata i x).Tracks given :=
  ⟨h.name, h.holder⟩

/-- Lookups follow the names that were given: a thing has the last name that it was given, and a
name finds the thing that carries it. -/
structure Follows (l : Labels ι μ) (given : List (ι × String)) : Prop where
  name : ∀ i, l.name? i = lastName? given i
  named : ∀ n i, l.named? n = some i ↔ Carries given n i
  current : ∀ n i, l.named? n = some i → l.name? i = some n

theorem Tracks.follows (h : l.Tracks given) : l.Follows given := by
  have hnamed (n : String) (i : ι) : l.named? n = some i ↔ l.holder? n = some i := by
    rw [named?, Option.filter_eq_some_iff]
    refine ⟨And.left, fun hi => ⟨hi, ?_⟩⟩
    simpa using h.name?_of_holder? hi
  refine ⟨h.name, fun n i => (hnamed n i).trans (h.holder n i), fun n i hi => ?_⟩
  exact h.name?_of_holder? ((hnamed n i).mp hi)

end Labels

/-! ## Journals -/

namespace Model

variable {α μ ι : Type}

namespace Entry

/-- The name that a variable was given. -/
def variableName? : Entry α μ → Option (VariableId × String)
  | .variableNamed id n => some (id, n)
  | _ => none

/-- The name that a constraint was given. -/
def constraintName? : Entry α μ → Option (ConstraintId × String)
  | .constraintNamed id n => some (id, n)
  | _ => none

end Entry

/-- The names that variables were given, in order. -/
def variableNames (j : List (Entry α μ)) : List (VariableId × String) :=
  j.filterMap Entry.variableName?

/-- The names that constraints were given, in order. -/
def constraintNames (j : List (Entry α μ)) : List (ConstraintId × String) :=
  j.filterMap Entry.constraintName?

variable {m : Model α μ}

/-- Labels that keep in step with every entry keep in step with a journal. -/
theorem tracks_foldl_enter [DecidableEq ι] {labels : Model α μ → Labels ι μ}
    {name? : Entry α μ → Option (ι × String)}
    (hstep : ∀ m e given, (labels m).Tracks given →
      (labels (m.enter e)).Tracks (given ++ (name? e).toList))
    {given : List (ι × String)} (h : (labels m).Tracks given) (j : List (Entry α μ)) :
    (labels (j.foldl enter m)).Tracks (given ++ j.filterMap name?) := by
  induction j generalizing m given with
  | nil => simpa using h
  | cons e j ih =>
    have hrest := ih (hstep m e given h)
    rw [List.append_assoc] at hrest
    cases he : name? e <;> simpa [he] using hrest

theorem variableLabels_enter (m : Model α μ) (e : Entry α μ) (given : List (VariableId × String))
    (h : m.variableLabels.Tracks given) :
    (m.enter e).variableLabels.Tracks (given ++ e.variableName?.toList) := by
  cases e with
  | variableNamed id n => exact h.setName id n
  | variableAnnotated id x => simpa [enter, Entry.variableName?] using h.setMetadata id x
  | _ => simpa [enter, Entry.variableName?] using h

theorem constraintLabels_enter (m : Model α μ) (e : Entry α μ)
    (given : List (ConstraintId × String)) (h : m.constraintLabels.Tracks given) :
    (m.enter e).constraintLabels.Tracks (given ++ e.constraintName?.toList) := by
  cases e with
  | constraintNamed id n => exact h.setName id n
  | constraintAnnotated id x => simpa [enter, Entry.constraintName?] using h.setMetadata id x
  | _ => simpa [enter, Entry.constraintName?] using h

end Model

/-! ## Histories -/

namespace Workspace

variable {α μ : Type} [Scalar α] {w : Workspace α μ}

/-- Naming a variable leaves the labels of constraints alone. -/
theorem constraintLabels_step_nameVariable (w : Workspace α μ) (id : VariableId) (n : String) :
    (w.step (.nameVariable id n)).model.constraintLabels = w.model.constraintLabels := by
  rw [model_step, entryOf?]
  cases (Build.nameVariable id n).answer w <;> rfl

/-- Naming a constraint leaves the labels of variables alone. -/
theorem variableLabels_step_nameConstraint (w : Workspace α μ) (id : ConstraintId) (n : String) :
    (w.step (.nameConstraint id n)).model.variableLabels = w.model.variableLabels := by
  rw [model_step, entryOf?]
  cases (Build.nameConstraint id n).answer w <;> rfl

/-- Along every run, the labels of variables and of constraints keep in step with the names that
were given. -/
theorem tracks_run (hw : w.Initial) (history : List (Action α μ)) :
    (w.run history).model.variableLabels.Tracks (Model.variableNames (w.journal history)) ∧
      (w.run history).model.constraintLabels.Tracks
        (Model.constraintNames (w.journal history)) := by
  obtain ⟨config, -, hmodel⟩ := hw.exists_config
  have hvariables : w.model.variableLabels.Tracks [] := by
    rw [hmodel]
    exact Labels.tracks_empty
  have hconstraints : w.model.constraintLabels.Tracks [] := by
    rw [hmodel]
    exact Labels.tracks_empty
  rw [model_run]
  exact ⟨Model.tracks_foldl_enter Model.variableLabels_enter hvariables _,
    Model.tracks_foldl_enter Model.constraintLabels_enter hconstraints _⟩

/-- **Lookup by name follows the history of names.** After any run of a new model, in which things
are renamed and names change hands among any other operations, a thing has the last name that it
was given with success, and a name finds a thing if and only if it was last given to it and the
thing got no different one since; so what a name finds has that name. Variables and constraints have
names of their own. -/
theorem lookup_follows_names (hw : w.Initial) (history : List (Action α μ)) :
    (w.run history).model.variableLabels.Follows (Model.variableNames (w.journal history)) ∧
      (w.run history).model.constraintLabels.Follows (Model.constraintNames (w.journal history)) ∧
      (∀ id n, ((w.run history).step (.nameVariable id n)).model.constraintLabels =
        (w.run history).model.constraintLabels) ∧
      ∀ id n, ((w.run history).step (.nameConstraint id n)).model.variableLabels =
        (w.run history).model.variableLabels := by
  obtain ⟨hvariables, hconstraints⟩ := tracks_run hw history
  exact ⟨hvariables.follows, hconstraints.follows, constraintLabels_step_nameVariable _,
    variableLabels_step_nameConstraint _⟩

/-- Both variables are called `a`, then the second one `b`: no variable is found by `a`, though the
first one has that name, until it is given the name again. The constraint called `a` is found all
along, and the variable `x₉` cannot be named. -/
theorem lookup_follows_names_passed_on :
    let e : Expression Float := .var (.scalar ⟨⟨1⟩, {}, .continuous⟩)
    let w : Workspace Float Unit := {}
    let history : List (Action Float Unit) := [.addVector 2, .addConstraint ⟨e, .le, e, false⟩,
      .nameVariable ⟨1⟩ "a", .nameConstraint ⟨1⟩ "a", .nameVariable ⟨9⟩ "a", .nameVariable ⟨2⟩ "a",
      .nameVariable ⟨2⟩ "b"]
    let m := (w.run history).model
    let m' := (w.run (history ++ [.nameVariable ⟨1⟩ "a"])).model
    w.Initial ∧
      Model.variableNames (w.journal history) = [(⟨1⟩, "a"), (⟨2⟩, "a"), (⟨2⟩, "b")] ∧
      m.variableLabels.name? ⟨1⟩ = some "a" ∧ m.variableLabels.named? "a" = none ∧
      m.variableLabels.named? "b" = some ⟨2⟩ ∧ m'.variableLabels.named? "a" = some ⟨1⟩ ∧
      m'.constraintLabels.named? "a" = some ⟨1⟩ := by
  intro e w history m m'
  have hw : w.Initial := ⟨{}, rfl⟩
  have hnames : Model.variableNames (w.journal history) =
      [(⟨1⟩, "a"), (⟨2⟩, "a"), (⟨2⟩, "b")] := by decide +kernel
  have hnames' : Model.variableNames (w.journal (history ++ [.nameVariable ⟨1⟩ "a"])) =
      [(⟨1⟩, "a"), (⟨2⟩, "a"), (⟨2⟩, "b"), (⟨1⟩, "a")] := by decide +kernel
  have hvariables : m.variableLabels.Follows _ := hnames ▸ (lookup_follows_names hw history).1
  have hvariables' : m'.variableLabels.Follows _ := hnames' ▸ (lookup_follows_names hw _).1
  have hconstraints' : m'.constraintLabels.Follows _ := (lookup_follows_names hw _).2.1
  have hone : m.variableLabels.name? ⟨1⟩ = some "a" := by
    rw [hvariables.name]
    decide +kernel
  refine ⟨hw, hnames, hone, by decide +kernel, ?_, ?_, ?_⟩
  · exact (hvariables.named "b" ⟨2⟩).mpr ⟨[(⟨1⟩, "a"), (⟨2⟩, "a")], [], rfl, by simp, by simp⟩
  · exact (hvariables'.named "a" ⟨1⟩).mpr
      ⟨[(⟨1⟩, "a"), (⟨2⟩, "a"), (⟨2⟩, "b")], [], rfl, by simp, by simp⟩
  · refine (hconstraints'.named "a" ⟨1⟩).mpr ⟨[], [], ?_, by simp, by simp⟩
    decide +kernel

end Workspace

end AlgebraicModel
