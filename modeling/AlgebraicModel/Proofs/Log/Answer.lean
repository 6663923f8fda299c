import Mathlib
import AlgebraicModel.Log.Logged
import AlgebraicModel.Proofs.Except.Traversal

/-!
# The answer of a computation that records events

Leaving the events aside, a computation that records is a computation that may fail.

## Main results

* `Logged.result_bind`, `result_lift`: answers are those of the computations without events
* `Logged.events_bind`: what is recorded by two steps
* `Logged.result_mapM`, `events_mapM_eq_nil`: traversals
-/

namespace AlgebraicModel.Logged

variable {ω ε β γ : Type}

@[simp] theorem result_pure (b : β) : (pure b : Logged ω ε β).result = .ok b := rfl

@[simp] theorem events_pure (b : β) : (pure b : Logged ω ε β).events = [] := rfl

@[simp] theorem result_lift (x : Except ε β) : (liftM x : Logged ω ε β).result = x := rfl

@[simp] theorem events_lift (x : Except ε β) : (liftM x : Logged ω ε β).events = [] := rfl

@[simp] theorem result_record (event : ω) : (record event : Logged ω ε Unit).result = .ok () := rfl

@[simp] theorem events_record (event : ω) : (record event : Logged ω ε Unit).events = [event] := rfl

@[simp] theorem result_fail (e : ε) : (fail e : Logged ω ε β).result = .error e := rfl

@[simp] theorem events_fail (e : ε) : (fail e : Logged ω ε β).events = [] := rfl

@[simp] theorem result_bind (x : Logged ω ε β) (f : β → Logged ω ε γ) :
    (x >>= f).result = x.result >>= fun b => (f b).result := by
  obtain ⟨events, result⟩ := x
  cases result <;> rfl

/-- A step that answers hands over to the next one. -/
theorem events_bind {x : Logged ω ε β} {b : β} (h : x.result = .ok b) (f : β → Logged ω ε γ) :
    (x >>= f).events = x.events ++ (f b).events := by
  obtain ⟨events, result⟩ := x
  obtain rfl : result = .ok b := h
  rfl

/-! ## Traversals -/

instance : LawfulMonad (Logged ω ε) :=
  .mk' _
    (fun ⟨events, result⟩ => by
      cases result with
      | error e => rfl
      | ok b => simp [Functor.map, Logged.bind, ofExcept])
    (fun b f => by simp [bind, Logged.bind, pure, ofExcept])
    (fun ⟨events, result⟩ f g => by
      cases result with
      | error e => rfl
      | ok b =>
        rcases hf : f b with ⟨events', e | c⟩ <;> simp [bind, Logged.bind, hf])

@[simp] theorem result_map (f : β → γ) (x : Logged ω ε β) : (f <$> x).result = f <$> x.result := by
  rw [map_eq_pure_bind, result_bind, map_eq_pure_bind]
  rfl

/-- A traversal answers as the traversal of the answers. -/
theorem result_mapM {δ : Type} (f : δ → Logged ω ε β) (xs : List δ) :
    (xs.mapM f).result = xs.mapM fun x => (f x).result := by
  induction xs with
  | nil => rfl
  | cons x xs ih => simp [List.mapM_cons, ih]

/-- A successful traversal records nothing if no successful element does. -/
theorem events_mapM_eq_nil {δ : Type} {f : δ → Logged ω ε β} {xs : List δ} {ys : List β}
    (hquiet : ∀ x ∈ xs, ∀ y, (f x).result = .ok y → (f x).events = [])
    (h : (xs.mapM f).result = .ok ys) : (xs.mapM f).events = [] := by
  induction xs generalizing ys with
  | nil => rfl
  | cons x xs ih =>
    rw [List.mapM_cons, result_bind] at h
    obtain ⟨y, hy, hrest⟩ := bind_eq_ok_iff.mp h
    rw [result_bind] at hrest
    obtain ⟨zs, hzs, -⟩ := bind_eq_ok_iff.mp hrest
    rw [List.mapM_cons, events_bind hy, events_bind hzs, hquiet x (by simp) y hy,
      ih (fun x' hx' => hquiet x' (by simp [hx'])) hzs]
    rfl

end AlgebraicModel.Logged
