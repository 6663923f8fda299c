import Mathlib

/-!
# Computations that may fail, one after the other

When a sequence of computations succeeds, and with which answers: a step after a step, a list of
them, and a fold.

## Main results

* `bind_eq_ok_iff`, `bind_eq_error_iff`: both steps of a sequence succeed, or one of them fails
* `mapM_eq_ok_iff`, `mapM_eq_some_iff`: every element of a list has its answer
* `forM_eq_ok_iff`: every check of a list passes
* `mapM_eq_none_iff`, `mapM_eq_error_iff`: some element has none
* `mapM_eq_ok_map`, `foldlM_eq_ok_foldl`: computations that never fail on a list
* `mapM_congr`, `foldlM_congr`: computations that agree on a list
-/

namespace AlgebraicModel

variable {ε β γ δ : Type}

theorem bind_eq_ok_iff {x : Except ε β} {f : β → Except ε γ} {c : γ} :
    x >>= f = .ok c ↔ ∃ b, x = .ok b ∧ f b = .ok c := by
  cases x with
  | error e => simp [bind, Except.bind]
  | ok b => simp [bind, Except.bind]

theorem bind_eq_error_iff {x : Except ε β} {f : β → Except ε γ} {e : ε} :
    x >>= f = .error e ↔ x = .error e ∨ ∃ b, x = .ok b ∧ f b = .error e := by
  cases x with
  | error e => simp [bind, Except.bind]
  | ok b => simp [bind, Except.bind]

theorem map_eq_error_iff {x : Except ε β} {f : β → γ} {e : ε} :
    f <$> x = .error e ↔ x = .error e := by
  cases x with
  | error e => simp
  | ok b => simp

theorem map_eq_ok_iff {x : Except ε β} {f : β → γ} {c : γ} :
    f <$> x = .ok c ↔ ∃ b, x = .ok b ∧ f b = c := by
  cases x with
  | error e => simp
  | ok b => simp

@[simp] theorem ok_bind (b : β) (f : β → Except ε γ) : (Except.ok b : Except ε β) >>= f = f b := rfl

@[simp] theorem error_bind (e : ε) (f : β → Except ε γ) :
    (Except.error e : Except ε β) >>= f = .error e := rfl

theorem mapError_eq_ok_iff {ε' : Type} {x : Except ε β} {wrap : ε → ε'} {b : β} :
    x.mapError wrap = .ok b ↔ x = .ok b := by
  cases x <;> simp [Except.mapError]

theorem eq_ok_of_toOption {x : Except ε β} {b : β} (h : x.toOption = some b) : x = .ok b := by
  cases x with
  | error e => cases h
  | ok b' => exact congrArg Except.ok (Option.some.inj h)

theorem eq_ok_of_isOk {x : Except ε Unit} (h : x.isOk) : x = .ok () := by
  cases x with
  | error e => cases h
  | ok b => rfl

/-! ## Lists of computations -/

/-- A traversal succeeds when every element has an answer, and answers in order. -/
theorem mapM_eq_ok_iff {f : β → Except ε γ} {xs : List β} {ys : List γ} :
    xs.mapM f = .ok ys ↔ List.Forall₂ (fun x y => f x = .ok y) xs ys := by
  induction xs generalizing ys with
  | nil => cases ys <;> simp [pure, Except.pure]
  | cons x xs ih =>
    rw [List.mapM_cons, bind_eq_ok_iff]
    constructor
    · rintro ⟨y, hy, hrest⟩
      obtain ⟨zs, hzs, heq⟩ := bind_eq_ok_iff.mp hrest
      obtain rfl := Except.ok.inj heq
      exact .cons hy (ih.mp hzs)
    · rintro (_ | ⟨hy, hrest⟩)
      exact ⟨_, hy, bind_eq_ok_iff.mpr ⟨_, ih.mpr hrest, rfl⟩⟩

theorem mapM_eq_ok_map {f : β → Except ε γ} {g : β → γ} {xs : List β}
    (h : ∀ x ∈ xs, f x = .ok (g x)) : xs.mapM f = .ok (xs.map g) := by
  rw [mapM_eq_ok_iff, List.forall₂_map_right_iff, List.forall₂_same]
  exact h

theorem foldlM_eq_ok_foldl {f : γ → β → Except ε γ} {g : γ → β → γ} {xs : List β}
    (h : ∀ c, ∀ x ∈ xs, f c x = .ok (g c x)) (c : γ) :
    xs.foldlM f c = .ok (xs.foldl g c) := by
  induction xs generalizing c with
  | nil => rfl
  | cons x xs ih =>
    rw [List.foldlM_cons, h c x (by simp), ok_bind,
      ih (fun c y hy => h c y (by simp [hy])), List.foldl_cons]

/-- Computations that agree on a list have the same answers. -/
theorem mapM_congr {f g : β → Except ε γ} {xs : List β} (h : ∀ x ∈ xs, f x = g x) :
    xs.mapM f = xs.mapM g := by
  induction xs with
  | nil => rfl
  | cons x xs ih =>
    obtain ⟨hx, hxs⟩ := List.forall_mem_cons.mp h
    rw [List.mapM_cons, List.mapM_cons, hx, ih hxs]

theorem foldlM_congr {f g : γ → β → Except ε γ} {xs : List β}
    (h : ∀ c, ∀ x ∈ xs, f c x = g c x) (c : γ) : xs.foldlM f c = xs.foldlM g c := by
  induction xs generalizing c with
  | nil => rfl
  | cons x xs ih =>
    rw [List.foldlM_cons, List.foldlM_cons, h c x (by simp)]
    congr 1
    funext c'
    exact ih (fun c y hy => h c y (by simp [hy])) c'

/-- Checks in a row pass if each of them does. -/
theorem forM_eq_ok_iff {f : β → Except ε Unit} {xs : List β} :
    xs.forM f = .ok () ↔ ∀ x ∈ xs, f x = .ok () := by
  induction xs with
  | nil => simp [pure, Except.pure]
  | cons x xs ih =>
    rw [List.forM_eq_forM, List.forM_cons, bind_eq_ok_iff, Unique.exists_iff,
      List.forall_mem_cons]
    exact and_congr_right fun _ => ih

theorem mapM_eq_some_iff {f : β → Option γ} {xs : List β} {ys : List γ} :
    xs.mapM f = some ys ↔ List.Forall₂ (fun x y => f x = some y) xs ys := by
  induction xs generalizing ys with
  | nil => cases ys <;> simp
  | cons x xs ih =>
    rw [List.mapM_cons, Option.bind_eq_bind, Option.bind_eq_some_iff]
    constructor
    · rintro ⟨y, hy, hrest⟩
      obtain ⟨zs, hzs, heq⟩ := Option.bind_eq_some_iff.mp hrest
      obtain rfl := Option.some.inj heq
      exact .cons hy (ih.mp hzs)
    · rintro (_ | ⟨hy, hrest⟩)
      exact ⟨_, hy, Option.bind_eq_some_iff.mpr ⟨_, ih.mpr hrest, rfl⟩⟩

theorem mapM_eq_none_iff {f : β → Option γ} {xs : List β} :
    xs.mapM f = none ↔ ∃ x ∈ xs, f x = none := by
  induction xs with
  | nil => simp
  | cons x xs ih =>
    rw [List.mapM_cons]
    cases hx : f x with
    | none => simp [hx]
    | some y => cases hxs : xs.mapM f <;> simp [hx, ← ih, hxs]

/-- A traversal whose elements can only have one error has it if one of them has. -/
theorem mapM_eq_error_iff {f : β → Except ε γ} {p : β → Prop} {cause : ε} {xs : List β}
    (h : ∀ x ∈ xs, ∀ e, f x = .error e ↔ p x ∧ e = cause) {e : ε} :
    xs.mapM f = .error e ↔ (∃ x ∈ xs, p x) ∧ e = cause := by
  induction xs with
  | nil => simp [pure, Except.pure]
  | cons x xs ih =>
    obtain ⟨hx, hxs⟩ := List.forall_mem_cons.mp h
    have hrest (y : γ) : (do return y :: (← xs.mapM f)) = .error e ↔ xs.mapM f = .error e :=
      map_eq_error_iff
    rw [List.mapM_cons, bind_eq_error_iff, hx]
    simp only [hrest, ih hxs, List.exists_mem_cons_iff]
    cases hfx : f x with
    | error e' =>
      obtain ⟨hp, rfl⟩ := (hx e').mp hfx
      simp [hp]
    | ok y =>
      have hp : ¬ p x := fun hp => by simpa [hfx] using (hx cause).mpr ⟨hp, rfl⟩
      simp [hp]

/-- Every answer of a traversal belongs to an element. -/
theorem exists_of_forall₂ {r : β → γ → Prop} {xs : List β} {ys : List γ}
    (h : List.Forall₂ r xs ys) {y : γ} (hy : y ∈ ys) : ∃ x ∈ xs, r x y := by
  induction h with
  | nil => simp at hy
  | cons hxy _ ih =>
    rcases List.mem_cons.mp hy with rfl | hy
    · exact ⟨_, by simp, hxy⟩
    · obtain ⟨x, hx, hr⟩ := ih hy
      exact ⟨x, by simp [hx], hr⟩

/-- What every step of a successful fold keeps holds of its answer. -/
theorem foldlM_ok_induction {f : γ → β → Except ε γ} {xs : List β} {c d : γ}
    (motive : γ → List β → Prop) (h : xs.foldlM f c = .ok d) (hc : motive c xs)
    (hstep : ∀ c x xs c', f c x = .ok c' → motive c (x :: xs) → motive c' xs) : motive d [] := by
  induction xs generalizing c with
  | nil =>
    obtain rfl := Except.ok.inj h
    exact hc
  | cons x xs ih =>
    rw [List.foldlM_cons] at h
    obtain ⟨c', hc', hrest⟩ := bind_eq_ok_iff.mp h
    exact ih hrest (hstep c x xs c' hc' hc)

end AlgebraicModel
