import Mathlib
import AlgebraicModel.Expression.Validity
import AlgebraicModel.Proofs.Except.Traversal

/-!
# Valid expressions

The check of an expression reports the place of the first invalid variable. Whether there is one
does not depend on the places: an expression is valid if every record of a variable in it is.

## Main results

* `Variable.check_eq_ok_iff`: what a record of a variable has to be
* `Expression.check_eq_ok_iff`: an expression is valid if its records of variables are
-/

namespace AlgebraicModel

/-- A variable that passes its check has an identity, and bounds in order. -/
theorem Variable.check_eq_ok_iff {v : Variable} :
    v.check = .ok () ↔ v.id.isInitialized ∧ v.bounds.isValid := by
  unfold check
  by_cases hid : v.id.isInitialized
  · by_cases hbounds : v.bounds.isValid <;> simp [hid, hbounds]
  · simp [hid]

theorem checkEach_eq_ok_iff {β ε : Type} {wrap : ℕ → ε → ε} {check : β → Except ε Unit}
    {xs : List β} : checkEach wrap check xs = .ok () ↔ ∀ x ∈ xs, check x = .ok () := by
  unfold checkEach
  rw [forM_eq_ok_iff]
  simp only [mapError_eq_ok_iff]
  constructor
  · intro h x hx
    obtain ⟨i, hi⟩ := List.mem_iff_getElem?.mp hx
    exact h (x, i) (List.mem_zipIdx_iff_getElem?.mpr hi)
  · intro h p hp
    exact h p.1 (List.mem_of_getElem? (List.mem_zipIdx_iff_getElem?.mp hp))

theorem Slots.check_eq_ok_iff {α β : Type} {check : β → Except (Expression.Error α) Unit}
    {s : Slots β} : s.check check = .ok () ↔ ∀ x ∈ s.toList, check x = .ok () := by
  cases s with
  | scalar x => simp [Slots.check, toList]
  | vector xs => exact checkEach_eq_ok_iff

namespace Expression

variable {α : Type}

theorem checkVariable_eq_ok_iff {v : Variable} :
    (checkVariable v : Except (Error α) Unit) = .ok () ↔ v.check = .ok () :=
  mapError_eq_ok_iff

theorem checkMonomial_eq_ok_iff {m : Monomial α} :
    checkMonomial m = .ok () ↔ ∀ v ∈ m.bases, v.check = .ok () :=
  mapError_eq_ok_iff.trans forM_eq_ok_iff

theorem checkPolynomial_eq_ok_iff {p : Polynomial α} :
    checkPolynomial p = .ok () ↔ ∀ t ∈ p.terms, ∀ v ∈ t.bases, v.check = .ok () := by
  rw [checkPolynomial, checkEach_eq_ok_iff]
  simp only [checkMonomial_eq_ok_iff]

/-- **An expression is valid if every record of a variable in it is.** -/
theorem check_eq_ok_iff {e : Expression α} :
    e.check = .ok () ↔ ∀ v ∈ e.bases, v.check = .ok () := by
  cases e with
  | const xs => simp [check, bases]
  | var vs =>
    rw [check, Slots.check_eq_ok_iff]
    simp only [checkVariable_eq_ok_iff]
    rfl
  | mono ms =>
    rw [check, Slots.check_eq_ok_iff, bases]
    simp only [checkMonomial_eq_ok_iff, List.mem_flatMap, forall_exists_index, and_imp]
    exact ⟨fun h v m hm hv => h m hm v hv, fun h m hm v hv => h v m hm hv⟩
  | poly ps =>
    rw [check, Slots.check_eq_ok_iff, bases]
    simp only [checkPolynomial_eq_ok_iff, List.mem_flatMap, forall_exists_index, and_imp]
    exact ⟨fun h v p hp t ht hv => h p hp t ht v hv, fun h p hp t ht v hv => h v p hp t ht hv⟩

end Expression

end AlgebraicModel
