import Mathlib
import AlgebraicModel.Slots

/-!
# Slots and broadcasting

## Main definitions

* `operandSlot`: which slot of an operand goes into a slot of the result

## Main results

* `Slots.toList_ofList`: the values a scalar or a vector was made of
* `exists_of_mem_broadcast?`: what is combined slot by slot comes from both sides
* `isSome_broadcast?_iff`, `length_broadcast?`: which operands combine, and to how many slots
* `getElem?_broadcast?`, `mem_broadcast?_iff`: every slot of the result
* `broadcast?_map`, `broadcast?_swap`: slots that are read differently, and sides swapped
* `broadcast?_eq_iff`: when two ways of combining agree
-/

namespace AlgebraicModel

variable {β γ δ β' γ' δ' : Type}

@[simp] theorem Slots.toList_scalar (x : β) : (scalar x).toList = [x] := rfl

@[simp] theorem Slots.toList_map (f : β → γ) (s : Slots β) : (s.map f).toList = s.toList.map f := by
  cases s <;> rfl

@[simp] theorem Slots.toList_ofList (isVector : Bool) (xs : List β) :
    (ofList isVector xs).toList = xs := by
  match xs with
  | [] => rfl
  | [x] => cases isVector <;> rfl
  | _ :: _ :: _ => rfl

/-- Only a scalar and no vector has one slot by its shape; a vector may happen to have one. -/
theorem Slots.isVector_ofList {isVector : Bool} {xs : List β}
    (h : isVector = false → xs.length = 1) : (ofList isVector xs).isVector = isVector := by
  cases isVector with
  | true => rcases xs with _ | ⟨x, _ | ⟨y, xs⟩⟩ <;> rfl
  | false =>
    obtain ⟨x, rfl⟩ := List.length_eq_one_iff.mp (h rfl)
    rfl

/-! ## Broadcasting -/

/-- The slot of an operand with so many slots that goes into a slot of the result: its only one, or
the one of the same place. -/
def operandSlot (length i : ℕ) : ℕ :=
  if length = 1 then 0 else i

/-- A slot that an operand has is taken where it stands. -/
theorem operandSlot_of_lt {length i : ℕ} (h : i < length) : operandSlot length i = i := by
  unfold operandSlot
  split <;> omega

theorem exists_of_mem_broadcast? {f : β → γ → δ} {xs : List β} {ys : List γ} {zs : List δ}
    (h : broadcast? f xs ys = some zs) {z : δ} (hz : z ∈ zs) :
    ∃ x ∈ xs, ∃ y ∈ ys, f x y = z := by
  unfold broadcast? at h
  split at h
  · obtain rfl := Option.some.inj h
    obtain ⟨i, hi⟩ := List.mem_iff_getElem?.mp hz
    obtain ⟨x, y, hx, hy, rfl⟩ := List.getElem?_zipWith_eq_some.mp hi
    exact ⟨x, List.mem_of_getElem? hx, y, List.mem_of_getElem? hy, rfl⟩
  · split at h
    · obtain rfl := Option.some.inj h
      obtain ⟨x, hx, rfl⟩ := List.mem_map.mp hz
      exact ⟨x, hx, _, by simp, rfl⟩
    · obtain rfl := Option.some.inj h
      obtain ⟨y, hy, rfl⟩ := List.mem_map.mp hz
      exact ⟨_, by simp, y, hy, rfl⟩
    · simp at h

/-- The result has the slots of an operand that has not just one. -/
theorem length_broadcast? {f : β → γ → δ} {xs : List β} {ys : List γ} {zs : List δ}
    (h : broadcast? f xs ys = some zs) :
    (xs.length ≠ 1 → zs.length = xs.length) ∧ (ys.length ≠ 1 → zs.length = ys.length) ∧
      (xs.length = 1 → ys.length = 1 → zs.length = 1) := by
  unfold broadcast? at h
  split at h
  · obtain rfl := Option.some.inj h
    simp_all
  · split at h
    · obtain rfl := Option.some.inj h
      simp_all
    · obtain rfl := Option.some.inj h
      simp_all
    · cases h

/-- Every slot of the result combines a slot of each operand. -/
theorem getElem?_broadcast? {f : β → γ → δ} {xs : List β} {ys : List γ} {zs : List δ}
    (h : broadcast? f xs ys = some zs) {i : ℕ} (hi : i < zs.length) :
    ∃ x y, xs[operandSlot xs.length i]? = some x ∧ ys[operandSlot ys.length i]? = some y ∧
      zs[i]? = some (f x y) := by
  unfold broadcast? at h
  unfold operandSlot
  split at h
  · next hlength =>
    obtain rfl := Option.some.inj h
    rw [List.length_zipWith, ← hlength, min_self] at hi
    have hslot : (if xs.length = 1 then 0 else i) = i := by
      split <;> omega
    rw [← hlength, hslot]
    exact ⟨xs[i], ys[i], List.getElem?_eq_getElem hi, List.getElem?_eq_getElem (hlength ▸ hi),
      by simp [hi, hlength ▸ hi]⟩
  · next hlength =>
    split at h
    · next y =>
      obtain rfl := Option.some.inj h
      rw [List.length_map] at hi
      have hmany : xs.length ≠ 1 := hlength
      rw [if_neg hmany]
      exact ⟨xs[i], y, List.getElem?_eq_getElem hi, rfl, by simp [hi]⟩
    · next x _ =>
      obtain rfl := Option.some.inj h
      rw [List.length_map] at hi
      have hmany : ys.length ≠ 1 := fun h => hlength h.symm
      rw [if_neg hmany]
      exact ⟨x, ys[i], rfl, List.getElem?_eq_getElem hi, by simp [hi]⟩
    · cases h

/-- The slots of the result are those that combine a slot of each operand. -/
theorem mem_broadcast?_iff {f : β → γ → δ} {xs : List β} {ys : List γ} {zs : List δ}
    (h : broadcast? f xs ys = some zs) {z : δ} :
    z ∈ zs ↔ ∃ i x y, xs[operandSlot xs.length i]? = some x ∧
      ys[operandSlot ys.length i]? = some y ∧ f x y = z := by
  constructor
  · intro hz
    obtain ⟨i, hi, rfl⟩ := List.mem_iff_getElem.mp hz
    obtain ⟨x, y, hx, hy, hslot⟩ := getElem?_broadcast? h hi
    rw [List.getElem?_eq_getElem hi, Option.some.injEq] at hslot
    exact ⟨i, x, y, hx, hy, hslot.symm⟩
  · rintro ⟨i, x, y, hx, hy, rfl⟩
    obtain ⟨hleft, hright, hone⟩ := length_broadcast? h
    obtain ⟨hi, -⟩ := List.getElem?_eq_some_iff.mp hx
    obtain ⟨hi', -⟩ := List.getElem?_eq_some_iff.mp hy
    have hslot : ∃ j < zs.length, operandSlot xs.length j = operandSlot xs.length i ∧
        operandSlot ys.length j = operandSlot ys.length i := by
      unfold operandSlot at hi hi' ⊢
      by_cases hxs : xs.length = 1
      · by_cases hys : ys.length = 1
        · exact ⟨0, by rw [hone hxs hys]; exact Nat.one_pos, by simp [hxs, hys]⟩
        · rw [if_neg hys] at hi'
          exact ⟨i, by rwa [hright hys], rfl, rfl⟩
      · rw [if_neg hxs] at hi
        exact ⟨i, by rwa [hleft hxs], rfl, rfl⟩
    obtain ⟨j, hj, hjx, hjy⟩ := hslot
    obtain ⟨x', y', hx', hy', hz⟩ := getElem?_broadcast? h hj
    rw [hjx, hx, Option.some.injEq] at hx'
    rw [hjy, hy, Option.some.injEq] at hy'
    subst hx' hy'
    exact List.mem_of_getElem? hz

theorem broadcast?_of_length_eq {f : β → γ → δ} {xs : List β} {ys : List γ}
    (h : xs.length = ys.length) : broadcast? f xs ys = some (xs.zipWith f ys) :=
  if_pos h

/-- Slots can be read in another family before they are combined, or after. -/
theorem broadcast?_map {f : β → γ → δ} {g : β' → γ' → δ'} {u : β → β'} {v : γ → γ'} {w : δ → δ'}
    (h : ∀ x y, g (u x) (v y) = w (f x y)) (xs : List β) (ys : List γ) :
    broadcast? g (xs.map u) (ys.map v) = (broadcast? f xs ys).map (List.map w) := by
  unfold broadcast?
  rw [List.length_map, List.length_map]
  by_cases hlength : xs.length = ys.length
  · simp only [hlength, if_true, Option.map_some, List.zipWith_map, List.map_zipWith, h]
  · rw [if_neg hlength, if_neg hlength]
    rcases xs with _ | ⟨x, _ | ⟨x', xs⟩⟩ <;> rcases ys with _ | ⟨y, _ | ⟨y', ys⟩⟩ <;> simp_all

/-- Slots can be paired first and combined pair by pair. -/
theorem broadcast?_eq_map (f : β → γ → δ) (xs : List β) (ys : List γ) :
    broadcast? f xs ys = (broadcast? Prod.mk xs ys).map (List.map fun p => f p.1 p.2) := by
  have hpairs := broadcast?_map (f := Prod.mk) (g := f) (u := id) (v := id)
    (w := fun p => f p.1 p.2) (fun _ _ => rfl) xs ys
  rwa [List.map_id, List.map_id] at hpairs

/-- The sides can be swapped, if what combines them takes them in the other order. -/
theorem broadcast?_swap (f : β → γ → δ) (xs : List β) (ys : List γ) :
    broadcast? f xs ys = broadcast? (fun y x => f x y) ys xs := by
  by_cases hlength : xs.length = ys.length
  · rw [broadcast?_of_length_eq hlength, broadcast?_of_length_eq hlength.symm, List.zipWith_comm]
  · unfold broadcast?
    rw [if_neg hlength, if_neg fun h => hlength h.symm]
    rcases xs with _ | ⟨x, _ | ⟨x', xs⟩⟩ <;> rcases ys with _ | ⟨y, _ | ⟨y', ys⟩⟩ <;> simp_all

theorem broadcast?_comm {f : β → β → γ} (h : ∀ x y, f x y = f y x) (xs ys : List β) :
    broadcast? f xs ys = broadcast? f ys xs := by
  rw [broadcast?_swap]
  exact congrArg (broadcast? · ys xs) (funext₂ fun y x => h x y)

theorem isSome_broadcast?_iff {f : β → γ → δ} {xs : List β} {ys : List γ} :
    (broadcast? f xs ys).isSome ↔ xs.length = ys.length ∨ xs.length = 1 ∨ ys.length = 1 := by
  unfold broadcast?
  by_cases hlength : xs.length = ys.length
  · simp [hlength]
  · rw [if_neg hlength]
    rcases xs with _ | ⟨x, _ | ⟨x', xs⟩⟩ <;> rcases ys with _ | ⟨y, _ | ⟨y', ys⟩⟩ <;> simp_all

/-- Two ways of combining agree if they agree on the slots that are paired. -/
theorem broadcast?_eq_iff {f g : β → γ → δ} {xs : List β} {ys : List γ}
    (h : xs.length = ys.length ∨ xs.length = 1 ∨ ys.length = 1) :
    broadcast? f xs ys = broadcast? g xs ys ↔
      ∀ i x y, xs[operandSlot xs.length i]? = some x → ys[operandSlot ys.length i]? = some y →
        f x y = g x y := by
  obtain ⟨pairs, hpairs⟩ := Option.isSome_iff_exists.mp
    (isSome_broadcast?_iff (f := Prod.mk).mpr h)
  rw [broadcast?_eq_map f, broadcast?_eq_map g, hpairs, Option.map_some, Option.map_some,
    Option.some.injEq, List.map_inj_left]
  simp only [mem_broadcast?_iff hpairs]
  constructor
  · intro hall i x y hx hy
    exact hall (x, y) ⟨i, x, y, hx, hy, rfl⟩
  · rintro hall _ ⟨i, x, y, hx, hy, rfl⟩
    exact hall i x y hx hy

end AlgebraicModel
