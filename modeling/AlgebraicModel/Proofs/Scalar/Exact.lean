import Mathlib
import AlgebraicModel.Relation
import AlgebraicModel.Scalar.Rational

/-!
# Sums and comparisons of rationals

At the rationals the order in which a computation adds up does not show: a sum from the left, and
a sum of products in eight lanes, are the sum. A comparison up to a tolerance is the inequality
that it stands for.

## Main definitions

* `inner xs ys`: the sum of the products of two lists
* `Relation.Within`: a relation between two rationals, up to a tolerance

## Main results

* `total_eq_sum`, `dot_eq_inner`: sums of rationals
* `Relation.holdsWithin_iff`: the comparison decides the relation
-/

namespace AlgebraicModel

/-! ## Sums -/

theorem total_eq_sum (xs : List ℚ) : total xs = xs.sum :=
  List.sum_eq_foldl.symm

/-- The sum of the products of two lists, place by place. -/
def inner (xs ys : List ℚ) : ℚ :=
  (xs.zipWith (· * ·) ys).sum

@[simp] theorem inner_nil_left (ys : List ℚ) : inner [] ys = 0 := rfl

@[simp] theorem inner_cons (x y : ℚ) (xs ys : List ℚ) :
    inner (x :: xs) (y :: ys) = x * y + inner xs ys := by
  simp [inner]

/-- The sum of the products of pairs. -/
def pairSum (pairs : List (ℚ × ℚ)) : ℚ :=
  (pairs.map fun p => p.1 * p.2).sum

theorem pairSum_zip (xs ys : List ℚ) : pairSum (xs.zip ys) = inner xs ys := by
  simp [pairSum, inner, List.zip, List.map_zipWith]

theorem pairSum_take_add_drop (n : ℕ) (pairs : List (ℚ × ℚ)) :
    pairSum (pairs.take n) + pairSum (pairs.drop n) = pairSum pairs := by
  rw [pairSum, pairSum, ← List.sum_append, ← List.map_append, List.take_append_drop, pairSum]

theorem foldl_addProduct (acc : ℚ) (pairs : List (ℚ × ℚ)) :
    pairs.foldl (fun acc p => acc + p.1 * p.2) acc = acc + pairSum pairs := by
  induction pairs generalizing acc with
  | nil => simp [pairSum]
  | cons p pairs ih => rw [List.foldl_cons, ih]; simp [pairSum, add_assoc]

/-- A block moves the products of its pairs into the lanes. -/
theorem sum_addBlock (lanes : List ℚ) (block : List (ℚ × ℚ)) (h : block.length = lanes.length) :
    (lanes.zipWith (fun a p => a + p.1 * p.2) block).sum = lanes.sum + pairSum block := by
  -- Both lists have the same length, so the induction takes a lane and a pair at a time.
  induction lanes generalizing block with
  | nil => simp_all [pairSum]
  | cons a lanes ih =>
    obtain _ | ⟨p, block⟩ := block
    · simp at h
    · simp only [List.zipWith_cons_cons, List.sum_cons, pairSum, List.map_cons,
        ih block (by simpa using h)]
      ring

/-- The lanes and the pairs left over hold what was in the lanes and the pairs. -/
theorem sumBlocks_spec (lanes : List ℚ) (pairs : List (ℚ × ℚ)) (h : lanes.length = 8) :
    (sumBlocks lanes pairs).1.length = 8 ∧
      (sumBlocks lanes pairs).1.sum + pairSum (sumBlocks lanes pairs).2 =
        lanes.sum + pairSum pairs := by
  fun_induction sumBlocks lanes pairs with
  | case1 lanes pairs hshort => exact ⟨h, rfl⟩
  | case2 lanes pairs hlong ih =>
    -- A full block goes into the lanes, and the rest of the pairs is shorter.
    have hblock : (pairs.take 8).length = lanes.length := by simp; omega
    obtain ⟨hlength, hsum⟩ := ih (by simp; omega)
    refine ⟨hlength, ?_⟩
    rw [hsum, sum_addBlock lanes _ hblock, add_assoc, pairSum_take_add_drop]

theorem joinLanes_eq_sum (lanes : List ℚ) (h : lanes.length = 8) : joinLanes lanes = lanes.sum := by
  have hsplit : (lanes.take 4).length = (lanes.drop 4).length := by simp; omega
  calc joinLanes lanes
      = ((lanes.take 4).zipWith (· + ·) (lanes.drop 4)).sum := List.sum_eq_foldl.symm
    _ = (lanes.take 4).sum + (lanes.drop 4).sum :=
        (List.sum_add_sum_eq_sum_zipWith_of_length_eq _ _ hsplit).symm
    _ = lanes.sum := by rw [← List.sum_append, List.take_append_drop]

/-- The sum of products in eight lanes is the sum of products. -/
theorem dot_eq_inner (xs ys : List ℚ) : dot xs ys = inner xs ys := by
  obtain ⟨hlength, hsum⟩ := sumBlocks_spec (List.replicate 8 0) (xs.zip ys) (by simp)
  calc dot xs ys
      = joinLanes (sumBlocks (List.replicate 8 0) (xs.zip ys)).1 +
          pairSum (sumBlocks (List.replicate 8 0) (xs.zip ys)).2 := foldl_addProduct _ _
    _ = (List.replicate 8 (0 : ℚ)).sum + pairSum (xs.zip ys) := by
        rw [joinLanes_eq_sum _ hlength, hsum]
    _ = inner xs ys := by simp [pairSum_zip]

/-! ## Comparisons -/

namespace Relation

/-- `x` stands in the relation to `y`, up to the tolerance `t`. -/
def Within (r : Relation) (t x y : ℚ) : Prop :=
  match r with
  | le => x ≤ y + t
  | ge => y - t ≤ x
  | eq => |x - y| ≤ t

theorem scalarAbs_eq_abs (x : ℚ) : Scalar.abs x = |x| := by
  change Rat.abs x = |x|
  rcases le_total 0 x with h | h
  · rw [Rat.abs_of_nonneg h, abs_of_nonneg h]
  · rw [Rat.abs_of_nonpos h, abs_of_nonpos h]

theorem holdsWithin_iff (r : Relation) (x y t : ℚ) :
    r.holdsWithin x y t = true ↔ r.Within t x y := by
  cases r
  · exact decide_eq_true_iff
  · exact decide_eq_true_iff
  · refine decide_eq_true_iff.trans ?_
    rw [scalarAbs_eq_abs]
    exact Iff.rfl

end Relation

end AlgebraicModel
