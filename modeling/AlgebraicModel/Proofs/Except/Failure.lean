import Mathlib
import AlgebraicModel.Proofs.Except.Traversal

/-!
# The error of a computation

A sequence of computations fails with the first error that is met. Which one that is does not depend
on what the computations before it answered, as long as each of them fails for its own reasons.

## Main definitions

* `failure?`: the error of a computation, if it fails

## Main results

* `failure?_mapM`, `failure?_forM`, `failure?_foldlM`: the first error of a list of computations
-/

namespace AlgebraicModel

variable {ε β γ : Type}

/-- The error, if there is one. -/
def failure? : Except ε β → Option ε
  | .error e => some e
  | .ok _ => none

@[simp] theorem failure?_ok (b : β) : failure? (.ok b : Except ε β) = none := rfl

@[simp] theorem failure?_error (e : ε) : failure? (.error e : Except ε β) = some e := rfl

theorem failure?_eq_some_iff {x : Except ε β} {e : ε} : failure? x = some e ↔ x = .error e := by
  cases x <;> simp

theorem failure?_eq_none_iff {x : Except ε β} : failure? x = none ↔ ∃ b, x = .ok b := by
  cases x <;> simp

@[simp] theorem failure?_map (f : β → γ) (x : Except ε β) : failure? (f <$> x) = failure? x := by
  cases x <;> rfl

@[simp] theorem failure?_mapError {ε' : Type} (wrap : ε → ε') (x : Except ε β) :
    failure? (x.mapError wrap) = (failure? x).map wrap := by
  cases x <;> rfl

/-- Of two steps, the second one fails if the first does not. -/
theorem failure?_bind {x : Except ε β} {f : β → Except ε γ} {second : Option ε}
    (h : ∀ b, x = .ok b → failure? (f b) = second) :
    failure? (x >>= f) = (failure? x).or second := by
  cases x with
  | error e => rfl
  | ok b => exact h b rfl

/-- A second step that never fails does not change the error. -/
theorem failure?_bind_of_ok {x : Except ε β} {f : β → Except ε γ}
    (h : ∀ b, x = .ok b → failure? (f b) = none) : failure? (x >>= f) = failure? x := by
  rw [failure?_bind h, Option.or_none]

/-! ## Lists of computations -/

/-- A traversal fails with its first error. -/
theorem failure?_mapM {f : β → Except ε γ} {g : β → Option ε} {xs : List β}
    (h : ∀ x ∈ xs, failure? (f x) = g x) : failure? (xs.mapM f) = xs.findSome? g := by
  induction xs with
  | nil => rfl
  | cons x xs ih =>
    have hrest (y : γ) : failure? (do return y :: (← xs.mapM f)) = xs.findSome? g := by
      rw [← ih fun y hy => h y (by simp [hy])]
      exact failure?_map (y :: ·) _
    rw [List.mapM_cons, failure?_bind fun y _ => hrest y, h x (by simp), List.findSome?_cons]
    cases g x <;> rfl

/-- Checks in a row fail with the first one that does. -/
theorem failure?_forM {f : β → Except ε Unit} (xs : List β) :
    failure? (xs.forM f) = xs.findSome? fun x => failure? (f x) := by
  induction xs with
  | nil => rfl
  | cons x xs ih =>
    have hrest : ∀ u, f x = .ok u → failure? (forM xs f) = xs.findSome? fun x => failure? (f x) :=
      fun _ _ => ih
    rw [List.forM_eq_forM, List.forM_cons, failure?_bind hrest, List.findSome?_cons]
    cases failure? (f x) <;> rfl

/-- A fold fails with its first error, if what was found so far does not decide who fails. -/
theorem failure?_foldlM {f : γ → β → Except ε γ} {g : β → Option ε} {xs : List β}
    (h : ∀ c, ∀ x ∈ xs, failure? (f c x) = g x) (c : γ) :
    failure? (xs.foldlM f c) = xs.findSome? g := by
  induction xs generalizing c with
  | nil => rfl
  | cons x xs ih =>
    have hrest (c' : γ) : failure? (xs.foldlM f c') = xs.findSome? g :=
      ih (fun c y hy => h c y (by simp [hy])) c'
    rw [List.foldlM_cons, failure?_bind fun c' _ => hrest c', h c x (by simp), List.findSome?_cons]
    cases g x <;> rfl

theorem findSome?_congr {f g : β → Option γ} {xs : List β} (h : ∀ x ∈ xs, f x = g x) :
    xs.findSome? f = xs.findSome? g := by
  induction xs with
  | nil => rfl
  | cons x xs ih =>
    obtain ⟨hx, hxs⟩ := List.forall_mem_cons.mp h
    rw [List.findSome?_cons, List.findSome?_cons, hx, ih hxs]

/-- The first answer for a list of lists, one after the other. -/
theorem findSome?_flatMap {δ : Type} (f : β → List γ) (g : γ → Option δ) (xs : List β) :
    (xs.flatMap f).findSome? g = xs.findSome? fun x => (f x).findSome? g := by
  induction xs with
  | nil => rfl
  | cons x xs ih =>
    rw [List.flatMap_cons, List.findSome?_append, ih, List.findSome?_cons]
    cases (f x).findSome? g <;> rfl

/-- The first answer of a partial function that is defined on the elements with a property. -/
theorem findSome?_ite {p : β → Prop} [DecidablePred p] (f : β → γ) (xs : List β) :
    (xs.findSome? fun x => if p x then some (f x) else none) = (xs.find? (p ·)).map f := by
  induction xs with
  | nil => rfl
  | cons x xs ih => by_cases hx : p x <;> simp [hx, ih]

end AlgebraicModel
