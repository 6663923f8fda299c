import Mathlib
import AlgebraicModel.Proofs.Expression.Constructed
import AlgebraicModel.Proofs.Grouping
import AlgebraicModel.Proofs.Variable.Distinct
import AlgebraicModel.Scalar.Double

/-!
# Factors merged and bounded

Exponents are bounded, and a product can exceed the bound in two ways: within one variable, while its
powers are merged, or in total. Both are one condition on the exponents as they were given, since
merging moves exponents and loses none. An addition of exponents that would exceed the bound can
therefore be refused wherever it comes up, and refusing it there rejects the same products as one
look at the sum of all exponents.

Once a monomial exists its exponents are positive and its degree is within the bound. Lowering an
exponent is then a subtraction that never runs below zero, and adding the exponents up to the bound
gives their sum.

## Main definitions

* `Factor.exponentOf`, `Factor.grouped`: the powers of each variable brought together
* `Factor.merge?`, `Factor.degree?`: merging and adding up with every addition checked
* `Monomial.ofChecked?`: the construction with every addition checked
* `Factor.saturatingDegree`: the exponents added up to the bound

## Main results

* `Factor.merge_eq_grouped`: what merging gives
* `Monomial.ofChecked?_eq`: checking every addition is checking the sum
* `Monomial.construction`: what is constructed, and what holds of it afterwards
-/

namespace AlgebraicModel

namespace Factor

theorem degree_eq_sum (fs : List Factor) : degree fs = (fs.map (·.exponent)).sum := by
  induction fs with
  | nil => rfl
  | cons f fs ih => rw [degree_cons, ih, List.map_cons, List.sum_cons]

/-! ## The powers of each variable -/

/-- The exponents of one variable, added up. -/
def exponentOf (fs : List Factor) (id : VariableId) : ℕ :=
  ((fs.filter (·.base.id = id)).map (·.exponent)).sum

/-- One power for each variable: where the variable occurs first, of its first record, and with all
its exponents. -/
def grouped (fs : List Factor) : List Factor :=
  (Variable.distinct (fs.map (·.base))).map fun v => ⟨v, exponentOf fs v.id⟩

/-- The power of the first record, with both exponents. -/
def join (g f : Factor) : Factor :=
  { g with exponent := g.exponent + f.exponent }

theorem insert_eq_grouping (f : Factor) (fs : List Factor) :
    f.insert fs = Grouping.insert (·.base.id) join f fs := by
  induction fs with
  | nil => rfl
  | cons g gs ih => rw [insert, Grouping.insert, ih, join]

theorem foldl_insert_eq_grouping (fs merged : List Factor) :
    fs.foldl (fun merged f => f.insert merged) merged =
      fs.foldl (fun merged f => Grouping.insert (·.base.id) join f merged) merged := by
  congr 1
  funext merged f
  exact insert_eq_grouping f merged

theorem merge_concat (fs : List Factor) (f : Factor) : merge (fs ++ [f]) = f.insert (merge fs) := by
  simp [merge]

theorem foldl_join (fs : List Factor) (g : Factor) :
    fs.foldl join g = ⟨g.base, g.exponent + (fs.map (·.exponent)).sum⟩ := by
  induction fs generalizing g with
  | nil => rfl
  | cons f fs ih =>
    rw [List.foldl_cons, ih, List.map_cons, List.sum_cons, ← Nat.add_assoc]
    rfl

/-- **What merging gives**: the powers of each variable, brought together. -/
theorem merge_eq_grouped (fs : List Factor) : merge fs = grouped fs := by
  have hjoined : merge fs =
      (Grouping.leaders (·.base.id) fs).map (Grouping.joined (·.base.id) join fs) := by
    rw [merge, foldl_insert_eq_grouping]
    apply Grouping.foldl_insert_eq
    exact fun _ _ => rfl
  rw [hjoined, grouped, Variable.distinct_eq_leaders, Grouping.leaders_map, List.map_map]
  apply List.map_congr_left
  intro f hf
  obtain ⟨gs, hgs⟩ := Grouping.exists_filter_eq_cons hf
  show Grouping.joined _ join fs f = ⟨f.base, exponentOf fs f.base.id⟩
  rw [Grouping.joined, exponentOf, hgs, List.tail_cons, foldl_join, List.map_cons, List.sum_cons]

/-! ## Checked additions -/

/-- The sum of two exponents, or `none` if it exceeds the bound. -/
def checkedAdd (m n : ℕ) : Option ℕ :=
  if m + n ≤ maxDegree then some (m + n) else none

/-- Multiply by one more power, unless the exponent of its variable exceeds the bound. -/
def insert? (f : Factor) : List Factor → Option (List Factor)
  | [] => some [f]
  | g :: gs =>
    if g.base.id = f.base.id then
      (checkedAdd g.exponent f.exponent).map fun n => { g with exponent := n } :: gs
    else
      (insert? f gs).map (g :: ·)

/-- One factor per variable, unless the exponent of one of them exceeds the bound on the way. -/
def merge? (fs : List Factor) : Option (List Factor) :=
  fs.foldlM (fun merged f => insert? f merged) []

/-- The sum of the exponents, or `none` as soon as it exceeds the bound. -/
def degree? (fs : List Factor) : Option ℕ :=
  fs.foldlM (fun total f => checkedAdd total f.exponent) 0

/-- The sum of the exponents, held at the bound. -/
def saturatingDegree (fs : List Factor) : ℕ :=
  fs.foldl (fun total f => min (total + f.exponent) maxDegree) 0

/-- A power that cannot be joined makes the whole product too large. -/
theorem insert?_cases (f : Factor) (fs : List Factor) :
    insert? f fs = some (f.insert fs) ∨
      insert? f fs = none ∧ maxDegree < degree (f.insert fs) := by
  induction fs with
  | nil => exact .inl rfl
  | cons g gs ih =>
    rw [insert?, insert]
    split
    · rw [checkedAdd]
      split
      · exact .inl rfl
      · next hlarge =>
        refine .inr ⟨rfl, ?_⟩
        show maxDegree < g.exponent + f.exponent + degree gs
        omega
    · rcases ih with h | ⟨h, hlarge⟩
      · exact .inl (by rw [h, Option.map_some])
      · refine .inr ⟨by rw [h, Option.map_none], ?_⟩
        rw [degree_cons]
        omega

/-- Merging stops early only if the product is too large. -/
theorem merge?_cases (fs : List Factor) :
    merge? fs = some (merge fs) ∨ merge? fs = none ∧ maxDegree < degree (merge fs) := by
  induction fs using List.reverseRecOn with
  | nil => exact .inl rfl
  | append_singleton fs f ih =>
    have hmerge? : merge? (fs ++ [f]) = (merge? fs).bind (insert? f) := by
      simp only [merge?, List.foldlM_append, List.foldlM_cons, List.foldlM_nil, bind_pure]
      rfl
    rw [merge_concat, hmerge?]
    rcases ih with h | ⟨h, hlarge⟩
    · rw [h, Option.bind_some]
      exact insert?_cases f (merge fs)
    · -- One more power makes a product that is too large no smaller.
      refine .inr ⟨by rw [h, Option.bind_none], ?_⟩
      rw [degree_insert]
      omega

theorem degree?_eq (fs : List Factor) :
    degree? fs = if degree fs ≤ maxDegree then some (degree fs) else none := by
  have hrun (fs : List Factor) : ∀ total ≤ maxDegree,
      fs.foldlM (fun total f => checkedAdd total f.exponent) total =
        if total + degree fs ≤ maxDegree then some (total + degree fs) else none := by
    induction fs with
    | nil =>
      intro total htotal
      rw [degree_nil, Nat.add_zero, if_pos htotal]
      rfl
    | cons f fs ih =>
      intro total htotal
      rw [List.foldlM_cons, degree_cons, ← Nat.add_assoc, checkedAdd]
      -- What exceeds the bound here is not made smaller by the exponents still to come.
      split
      · next hle => exact ih _ hle
      · next hlarge =>
        rw [if_neg (by omega)]
        rfl
  simpa [degree?] using hrun fs 0 (Nat.zero_le _)

/-- Adding up within the bound never reaches past it. -/
theorem saturatingDegree_eq {fs : List Factor} (h : degree fs ≤ maxDegree) :
    saturatingDegree fs = degree fs := by
  have hrun (fs : List Factor) : ∀ total, total + degree fs ≤ maxDegree →
      fs.foldl (fun total f => min (total + f.exponent) maxDegree) total = total + degree fs := by
    induction fs with
    | nil => exact fun _ _ => rfl
    | cons f fs ih =>
      intro total hle
      rw [degree_cons, ← Nat.add_assoc] at hle
      have hfits : min (total + f.exponent) maxDegree = total + f.exponent :=
        Nat.min_eq_left (by omega)
      rw [List.foldl_cons, hfits, ih _ hle, degree_cons, Nat.add_assoc]
  simpa [saturatingDegree] using hrun fs 0 (by simpa using h)

/-- Lowering a positive exponent takes exactly one off the degree. -/
theorem degree_lower_add_one {fs : List Factor} (hfs : ∀ f ∈ fs, f.exponent ≠ 0) {id : VariableId}
    (hid : id ∈ fs.map (·.base.id)) : degree (lower id fs) + 1 = degree fs := by
  induction fs with
  | nil => cases hid
  | cons f fs ih =>
    obtain ⟨hf, hfs⟩ := List.forall_mem_cons.mp hfs
    rw [lower]
    split
    · show f.exponent - 1 + degree fs + 1 = f.exponent + degree fs
      omega
    · next hne =>
      have hid : id ∈ fs.map (·.base.id) :=
        (List.mem_cons.mp hid).resolve_left fun heq => hne heq.symm
      rw [degree_cons, degree_cons, Nat.add_assoc, ih hfs hid]

end Factor

/-! ## Monomials -/

namespace Monomial

variable {α : Type} [Scalar α]

/-- The product of a coefficient and powers of variables, with every addition of exponents checked:
first those of each variable, then the total. -/
def ofChecked? (c : α) (fs : List Factor) : Option (Monomial α) := do
  let merged ← Factor.merge? fs
  let _ ← Factor.degree? merged
  return normalize c merged

/-- **Checking every addition is checking the sum.** -/
theorem ofChecked?_eq (c : α) (fs : List Factor) : ofChecked? c fs = ofFactors? c fs := by
  rw [ofChecked?, ofFactors?]
  rcases Factor.merge?_cases fs with h | ⟨h, hlarge⟩
  · rw [h, Option.bind_eq_bind, Option.bind_some, Factor.degree?_eq]
    split
    · rfl
    · rfl
  · rw [h]
    exact (if_neg hlarge.not_ge).symm

theorem ofFactors?_eq_none_iff (c : α) (fs : List Factor) :
    ofFactors? c fs = none ↔ maxDegree < (fs.map (·.exponent)).sum := by
  rw [← Factor.degree_eq_sum, ← Factor.degree_merge, ofFactors?]
  split
  · next hle => simpa using hle
  · next hlarge => simpa using hlarge

theorem ofFactors?_eq_some {fs : List Factor} (h : (fs.map (·.exponent)).sum ≤ maxDegree) (c : α) :
    ofFactors? c fs =
      some (if c == 0 then const 0 else ⟨c, (Factor.grouped fs).filter (·.exponent ≠ 0)⟩) := by
  rw [← Factor.degree_eq_sum, ← Factor.degree_merge] at h
  rw [ofFactors?, ← Factor.merge_eq_grouped]
  exact if_pos h

end Monomial

/-- **What is constructed from powers of variables, and what holds of every monomial afterwards.**

Whatever the coefficient, there is no monomial exactly if the exponents add up to more than the
bound, and it makes no difference whether they are compared once or addition by addition. Otherwise
a zero coefficient gives the constant zero, and any other gives one factor for each variable whose
exponents do not all vanish, with the first record and all the exponents of the variable, in the
order in which the variables occur first.

A monomial that comes out of constructors and operations has no variable twice, no exponent zero, a
degree within the bound, and no factors if its coefficient is zero. So its exponents can be added up
with the sum held at the bound, and the exponent of each of its variables can be lowered by one. -/
theorem Monomial.construction :
    (∀ (c : Float) (fs : List Factor),
      (ofFactors? c fs = none ↔ maxDegree < (fs.map (·.exponent)).sum) ∧
      ((fs.map (·.exponent)).sum ≤ maxDegree → ofFactors? c fs =
        some (if c == 0 then const 0 else ⟨c, (Factor.grouped fs).filter (·.exponent ≠ 0)⟩)) ∧
      ofChecked? c fs = ofFactors? c fs) ∧
    ∀ m : Monomial Float, (Expression.mono (.scalar m)).Constructed →
      (m.factors.map (·.base.id)).Nodup ∧ (∀ f ∈ m.factors, 1 ≤ f.exponent) ∧
      (m.factors.map (·.exponent)).sum ≤ maxDegree ∧
      ((m.coefficient == 0) = true → m.factors = []) ∧
      Factor.saturatingDegree m.factors = (m.factors.map (·.exponent)).sum ∧
      ∀ id ∈ m.factors.map (·.base.id),
        Factor.degree (Factor.lower id m.factors) + 1 = m.degree := by
  refine ⟨fun c fs => ⟨ofFactors?_eq_none_iff c fs, fun h => ofFactors?_eq_some h c,
    ofChecked?_eq c fs⟩, fun m hm => ?_⟩
  have hnormal : m.IsNormal := Expression.isNormal_mono_scalar.mp (hm.isNormal (by decide))
  have hbounded := hnormal.factors.bounded
  refine ⟨hnormal.factors.distinct, ?_, ?_, hnormal.collapsed, ?_, ?_⟩
  · intro f hf
    exact Nat.one_le_iff_ne_zero.mpr (hnormal.factors.positive f hf)
  · rw [← Factor.degree_eq_sum]
    exact hbounded
  · rw [Factor.saturatingDegree_eq hbounded, Factor.degree_eq_sum]
  · intro id hid
    exact Factor.degree_lower_add_one hnormal.factors.positive hid

/-- The product `1.5 * y ^ 0 * x ^ 2 * x ^ 3`, in which `x` occurs with two records, and a product
that is too large only in total. -/
theorem Monomial.construction_repeated :
    let x : Variable := ⟨⟨1⟩, .unit, .integer⟩
    let x' : Variable := ⟨⟨1⟩, .unbounded, .continuous⟩
    let y : Variable := ⟨⟨2⟩, .unbounded, .continuous⟩
    let m : Monomial Float := ⟨1.5, [⟨x, 5⟩]⟩
    ofFactors? (1.5 : Float) [⟨y, 0⟩, ⟨x, 2⟩, ⟨x', 3⟩] = some m ∧
      ofFactors? (0 : Float) [⟨x, maxDegree⟩, ⟨y, 1⟩] = none ∧
      Factor.saturatingDegree m.factors = 5 ∧
      Factor.degree (Factor.lower ⟨1⟩ m.factors) + 1 = m.degree := by
  intro x x' y m
  obtain ⟨-, hsome, -⟩ := construction.1 1.5 [⟨y, 0⟩, ⟨x, 2⟩, ⟨x', 3⟩]
  obtain ⟨hnone, -, -⟩ := construction.1 0 [⟨x, maxDegree⟩, ⟨y, 1⟩]
  have hm : ofFactors? (1.5 : Float) [⟨y, 0⟩, ⟨x, 2⟩, ⟨x', 3⟩] = some m := by
    rw [hsome (by decide), if_neg (by decide)]
    rfl
  obtain ⟨-, -, -, -, hdegree, hlower⟩ := construction.2 m (.monomial hm)
  refine ⟨hm, hnone.mpr ?_, hdegree, hlower ⟨1⟩ (by decide)⟩
  show maxDegree < maxDegree + (1 + 0)
  omega

end AlgebraicModel
