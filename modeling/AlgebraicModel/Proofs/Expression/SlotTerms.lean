import Mathlib
import AlgebraicModel.Proofs.Expression.Outcome
import AlgebraicModel.Proofs.Expression.Validity
import AlgebraicModel.Proofs.Scalar.Arithmetic

/-!
# Columns are computed slot by slot

A sum or a product of columns is, in every slot, the sum or the product of the slots themselves:
with the same terms in the same order, the same factors in the same order and the same
coefficients. For products this is an equation of expressions. For sums it is one of terms only: two
like monomials have a monomial as their sum when they are scalars, and a polynomial of one term, or
of none, when they are slots of a column. Read as polynomials the two agree, but a coefficient that
is zero takes a law of the arithmetic: it is dropped before the terms are added in one of the ways,
and added in the other.

## Main definitions

* `Expression.AgreesInSlot op a b e i`: slot `i` of `e` has the terms that `op` gives for the slots

## Main results

* `Polynomial.add_ofMonomial`: like monomials have the sum of their polynomials
* `Expression.IsSum.polynomials_eq`: every way of adding is the sum of the slots as polynomials
* `Expression.add_slot`, `mul_slot`: the slots of a sum and of a product
* `Expression.arithmetic_agrees_in_slots`: the checked operations, and which of them overflow
-/

namespace AlgebraicModel

/-! ## Like monomials as polynomials -/

namespace Polynomial

variable {α : Type} [Scalar α] {m n : Monomial α}

theorem ofMonomial_of_zero (h : (m.coefficient == 0) = true) : ofMonomial m = empty := by
  simp [ofMonomial, ofTerms, Monomial.insert, bne, h, empty]

theorem ofMonomial_of_ne (h : (m.coefficient == 0) = false) : ofMonomial m = ⟨[m]⟩ := by
  simp [ofMonomial, ofTerms, Monomial.insert, bne, h]

/-- Whether a zero coefficient collapses does not show once it is dropped. -/
theorem ofMonomial_normalize (hzeros : NeutralZeros α) (c : α) {fs : List Factor}
    (hfs : ∀ f ∈ fs, f.exponent ≠ 0) :
    ofMonomial (.normalize c fs) = ofMonomial ⟨c, fs⟩ := by
  unfold Monomial.normalize
  split
  · next hc =>
    rw [ofMonomial_of_zero hzeros.zero, ofMonomial_of_zero (m := ⟨c, fs⟩) hc]
  · rw [List.filter_eq_self.mpr fun f hf => by simpa using hfs f hf]

/-- A zero in normal form is like constants only. -/
theorem factors_eq_nil_of_isLike (hm : m.IsNormal) (hlike : m.isLike n)
    (hzero : (m.coefficient == 0) = true) : n.factors = [] := by
  have hpowers := Monomial.isLike_iff.mp hlike
  rw [Monomial.powers, hm.collapsed hzero, List.map_nil, List.nil_perm, Monomial.powers,
    List.map_eq_nil_iff] at hpowers
  exact hpowers

/-- **Like monomials have the sum of their polynomials**, also where one of them is zero and has no
term. -/
theorem add_ofMonomial (hzeros : NeutralZeros α) (hm : m.IsNormal) (hlike : m.isLike n) :
    (ofMonomial m).add (ofMonomial n) =
      ofMonomial ⟨m.coefficient + n.coefficient, m.factors⟩ := by
  cases hmzero : m.coefficient == 0 with
  | true =>
    have hmfactors := hm.collapsed hmzero
    have hnfactors := factors_eq_nil_of_isLike hm hlike hmzero
    rw [ofMonomial_of_zero hmzero, hmfactors]
    cases hnzero : n.coefficient == 0 with
    | true =>
      rw [ofMonomial_of_zero hnzero, ofMonomial_of_zero (hzeros.add_zeros hmzero hnzero)]
      rfl
    | false =>
      have hsum : (⟨m.coefficient + n.coefficient, []⟩ : Monomial α) = n := by
        rw [hzeros.add_left hmzero hnzero, ← hnfactors]
      rw [hsum, ofMonomial_of_ne hnzero]
      exact ofMonomial_of_ne hnzero
  | false =>
    rw [ofMonomial_of_ne hmzero]
    cases hnzero : n.coefficient == 0 with
    | true =>
      have hsum : (⟨m.coefficient + n.coefficient, m.factors⟩ : Monomial α) = m := by
        rw [hzeros.add_right hnzero hmzero]
      rw [ofMonomial_of_zero hnzero, hsum, ofMonomial_of_ne hmzero]
      exact ofMonomial_of_ne hmzero
    | false =>
      rw [ofMonomial_of_ne hnzero]
      simp [add, ofTerms, ofMonomial, Monomial.insert, hlike]

end Polynomial

namespace Expression

variable {α : Type} {a b e x y z : Expression α} {i : ℕ}

/-! ## The slots of an expression -/

theorem slot_const_iff {xs : Slots α} :
    (const xs).slot i = .ok x ↔ ∃ c, xs.toList[i]? = some c ∧ const (.scalar c) = x := by
  simp [slot_eq_ok_iff, slot?, Slots.at?]

theorem slot_var_iff {vs : Slots Variable} :
    (var vs).slot i = .ok x ↔ ∃ v, vs.toList[i]? = some v ∧ var (.scalar v) = x := by
  simp [slot_eq_ok_iff, slot?, Slots.at?]

theorem slot_mono_iff {ms : Slots (Monomial α)} :
    (mono ms).slot i = .ok x ↔ ∃ m, ms.toList[i]? = some m ∧ mono (.scalar m) = x := by
  simp [slot_eq_ok_iff, slot?, Slots.at?]

theorem slot_poly_iff {ps : Slots (Polynomial α)} :
    (poly ps).slot i = .ok x ↔ ∃ p, ps.toList[i]? = some p ∧ poly (.scalar p) = x := by
  simp [slot_eq_ok_iff, slot?, Slots.at?]

theorem slot_var_scalar_iff {vs : Slots Variable} {v : Variable} :
    (var vs : Expression α).slot i = .ok (var (.scalar v)) ↔ vs.toList[i]? = some v := by
  simp [slot_var_iff]

theorem slot_mono_scalar_iff {ms : Slots (Monomial α)} {m : Monomial α} :
    (mono ms).slot i = .ok (mono (.scalar m)) ↔ ms.toList[i]? = some m := by
  simp [slot_mono_iff]

/-- A slot stays in its family. -/
theorem family_slot (h : e.slot i = .ok x) : x.family = e.family := by
  cases e with
  | const xs =>
    obtain ⟨c, -, rfl⟩ := slot_const_iff.mp h
    rfl
  | var vs =>
    obtain ⟨v, -, rfl⟩ := slot_var_iff.mp h
    rfl
  | mono ms =>
    obtain ⟨m, -, rfl⟩ := slot_mono_iff.mp h
    rfl
  | poly ps =>
    obtain ⟨p, -, rfl⟩ := slot_poly_iff.mp h
    rfl

theorem family_eq_const_iff : e.family = .const ↔ ∃ xs, e = const xs := by
  cases e <;> simp [family]

theorem family_eq_var_iff : e.family = .var ↔ ∃ vs, e = var vs := by
  cases e <;> simp [family]

theorem family_eq_mono_iff : e.family = .mono ↔ ∃ ms, e = mono ms := by
  cases e <;> simp [family]

/-- A slot of a valid expression is valid. -/
theorem check_slot (h : e.slot i = .ok x) (he : e.check = .ok ()) : x.check = .ok () :=
  check_eq_ok_iff.mpr fun v hv => check_eq_ok_iff.mp he v (bases_slot h hv)

theorem length_slot (h : e.slot i = .ok x) : x.length = 1 :=
  length_of_scalar (isVector_slot h)

section Read

variable [Scalar α]

/-- A slot by itself is read as the polynomial that it is read as in its place. -/
theorem polynomials_slot (h : e.slot i = .ok x) :
    ∃ p, e.polynomials[i]? = some p ∧ x.polynomials = [p] := by
  cases e with
  | const xs =>
    obtain ⟨c, hc, rfl⟩ := slot_const_iff.mp h
    exact ⟨_, by simp [polynomials, hc], rfl⟩
  | var vs =>
    obtain ⟨v, hv, rfl⟩ := slot_var_iff.mp h
    exact ⟨_, by simp [polynomials, hv], rfl⟩
  | mono ms =>
    obtain ⟨m, hm, rfl⟩ := slot_mono_iff.mp h
    exact ⟨_, by simp [polynomials, hm], rfl⟩
  | poly ps =>
    obtain ⟨p, hp, rfl⟩ := slot_poly_iff.mp h
    exact ⟨p, hp, rfl⟩

theorem monomials?_slot {ms : List (Monomial α)} (hms : e.monomials? = some ms)
    (h : e.slot i = .ok x) : ∃ m, ms[i]? = some m ∧ x.monomials? = some [m] := by
  cases e with
  | const xs =>
    obtain rfl := Option.some.inj hms
    obtain ⟨c, hc, rfl⟩ := slot_const_iff.mp h
    exact ⟨_, by simp [hc], rfl⟩
  | var vs =>
    obtain rfl := Option.some.inj hms
    obtain ⟨v, hv, rfl⟩ := slot_var_iff.mp h
    exact ⟨_, by simp [hv], rfl⟩
  | mono ms =>
    obtain rfl := Option.some.inj hms
    obtain ⟨m, hm, rfl⟩ := slot_mono_iff.mp h
    exact ⟨m, hm, rfl⟩
  | poly ps => cases hms

theorem monomials?_eq_none_iff : e.monomials? = none ↔ e.family = .poly := by
  cases e <;> simp [monomials?, family]

end Read

/-! ## Which slots are paired -/

/-- An operand has the slot that goes into a slot of the result. -/
theorem operandSlot_lt {n k : ℕ} (hlength : n ≠ 1 → k = n) (hi : i < k) : operandSlot n i < n := by
  unfold operandSlot
  split <;> omega

variable [Scalar α]

theorem IsSum.length_eq (h : IsSum a b e) :
    (a.length ≠ 1 → e.length = a.length) ∧ (b.length ≠ 1 → e.length = b.length) := by
  cases h with
  | numbers ha hb h =>
    obtain ⟨hleft, hright, -⟩ := length_broadcast? h
    subst ha hb
    simpa [length, Slots.length] using ⟨hleft, hright⟩
  | like ha hb =>
    subst ha
    exact ⟨fun h => absurd rfl h, fun h => absurd (length_of_scalar hb) h⟩
  | polynomials h =>
    obtain ⟨hleft, hright, -⟩ := length_broadcast? h
    simpa [length, Slots.length] using And.intro hleft hright

theorem IsProduct.length_eq (h : IsProduct a b e) :
    (a.length ≠ 1 → e.length = a.length) ∧ (b.length ≠ 1 → e.length = b.length) := by
  cases h with
  | numbers ha hb h =>
    obtain ⟨hleft, hright, -⟩ := length_broadcast? h
    subst ha hb
    simpa [length, Slots.length] using ⟨hleft, hright⟩
  | monomials ha hb h =>
    obtain ⟨hleft, hright, -⟩ := length_broadcast? h
    rw [List.length_map, length_monomials? ha] at hleft
    rw [List.length_map, length_monomials? hb] at hright
    simpa [length, Slots.length] using And.intro hleft hright
  | polynomials h =>
    obtain ⟨hleft, hright, -⟩ := length_broadcast? h
    simpa [length, Slots.length] using And.intro hleft hright

omit [Scalar α] in
/-- Every slot of a result has a slot of each operand. -/
theorem exists_slots
    (hlength : (a.length ≠ 1 → e.length = a.length) ∧ (b.length ≠ 1 → e.length = b.length))
    (hi : i < e.length) :
    ∃ x y z, a.slot (operandSlot a.length i) = .ok x ∧ b.slot (operandSlot b.length i) = .ok y ∧
      e.slot i = .ok z := by
  obtain ⟨x, hx⟩ := exists_slot_iff.mpr (operandSlot_lt hlength.1 hi)
  obtain ⟨y, hy⟩ := exists_slot_iff.mpr (operandSlot_lt hlength.2 hi)
  obtain ⟨z, hz⟩ := exists_slot_iff.mpr hi
  exact ⟨x, y, z, hx, hy, hz⟩

theorem length_add (h : a.add b = .ok e) :
    (a.length ≠ 1 → e.length = a.length) ∧ (b.length ≠ 1 → e.length = b.length) := by
  rcases isSum_of_add h with h | h
  · exact h.length_eq
  · exact h.length_eq.symm

theorem length_mul (h : a.mul b = .ok e) :
    (a.length ≠ 1 → e.length = a.length) ∧ (b.length ≠ 1 → e.length = b.length) := by
  rcases isProduct_of_mul h with h | h
  · exact h.length_eq
  · exact h.length_eq.symm

/-! ## Sums -/

/-- **Every way of adding is the sum of the slots as polynomials.** -/
theorem IsSum.polynomials_eq (h : IsSum a b e) (hzeros : NeutralZeros α) (ha : a.IsNormal) :
    broadcast? Polynomial.add a.polynomials b.polynomials = some e.polynomials := by
  cases h with
  | @numbers xs ys sums haconst hbconst h =>
    subst haconst hbconst
    have hconst (c d : α) : (Polynomial.ofMonomial (.const c)).add (.ofMonomial (.const d)) =
        Polynomial.ofMonomial (.const (c + d)) :=
      Polynomial.add_ofMonomial hzeros (Monomial.isNormal_const c) rfl
    have hsums := broadcast?_map (f := (· + ·)) (g := Polynomial.add)
      (u := fun c => .ofMonomial (.const c)) (v := fun c => .ofMonomial (.const c))
      (w := fun c => .ofMonomial (.const c)) hconst xs.toList ys.toList
    rw [h] at hsums
    simpa [Expression.polynomials] using hsums
  | @like m n hm hscalar hn hlike =>
    subst hm
    have hmnormal : m.IsNormal := ha m (by simp)
    have hsum : (Polynomial.ofMonomial m).add (.ofMonomial n) =
        Polynomial.ofMonomial (.normalize (m.coefficient + n.coefficient) m.factors) := by
      rw [Polynomial.add_ofMonomial hzeros hmnormal hlike,
        Polynomial.ofMonomial_normalize hzeros _ hmnormal.factors.positive]
    rw [polynomials_eq_map hn]
    exact congrArg (fun p => some [p]) hsum
  | polynomials h =>
    rw [h]
    simp [Expression.polynomials]

/-- The sum of two slots has the terms of the slot of the sum. -/
theorem addToHigher_slot (hzeros : NeutralZeros α) (ha : a.IsNormal) (h : addToHigher a b = .ok e)
    (hx : a.slot (operandSlot a.length i) = .ok x) (hy : b.slot (operandSlot b.length i) = .ok y)
    (hz : e.slot i = .ok z) :
    ∃ r, addToHigher x y = .ok r ∧ r.polynomials = z.polynomials := by
  obtain ⟨r, hr⟩ : ∃ r, addToHigher x y = .ok r := exists_addToHigher (.inl (isVector_slot hx))
  refine ⟨r, hr, ?_⟩
  have hslots := (isSum_of_addToHigher h).polynomials_eq hzeros ha
  have hslot := (isSum_of_addToHigher hr).polynomials_eq hzeros (isNormal_slot ha hx)
  obtain ⟨p, hp, hxp⟩ := polynomials_slot hx
  obtain ⟨q, hq, hyq⟩ := polynomials_slot hy
  obtain ⟨s, hs, hzs⟩ := polynomials_slot hz
  have hi : i < e.polynomials.length := (List.getElem?_eq_some_iff.mp hs).1
  obtain ⟨p', q', hp', hq', hs'⟩ := getElem?_broadcast? hslots hi
  rw [length_polynomials, hp, Option.some.injEq] at hp'
  rw [length_polynomials, hq, Option.some.injEq] at hq'
  rw [hs, Option.some.injEq, ← hp', ← hq'] at hs'
  rw [hxp, hyq] at hslot
  rw [hzs, hs']
  exact (Option.some.inj hslot).symm

/-- **The slots of a sum.** -/
theorem add_slot (hzeros : NeutralZeros α) (ha : a.IsNormal) (hb : b.IsNormal) (h : a.add b = .ok e)
    (hx : a.slot (operandSlot a.length i) = .ok x) (hy : b.slot (operandSlot b.length i) = .ok y)
    (hz : e.slot i = .ok z) :
    ∃ r, x.add y = .ok r ∧ r.polynomials = z.polynomials := by
  -- The slots have the families of their operands, so they change places where the operands do.
  unfold add at h ⊢
  rw [family_slot hx, family_slot hy]
  split at h
  · next hlt =>
    rw [if_pos hlt]
    exact addToHigher_slot hzeros hb h hy hx hz
  · next hlt =>
    rw [if_neg hlt]
    exact addToHigher_slot hzeros ha h hx hy hz

/-! ## Products -/

omit [Scalar α] in
/-- The products of paired slots, and the product of one pair. -/
theorem zipProducts_slot {β : Type} {times? : β → β → Option β} {wrap : Slots β → Expression α}
    (hwrap : ∀ {s : Slots β} {z}, (wrap s).slot i = .ok z →
      ∃ r, s.toList[i]? = some r ∧ wrap (.scalar r) = z)
    {xs ys : List β} {mismatch mismatch' : Error α} {v : Bool}
    (h : (do
      let results ← products (← zipSlots times? xs ys mismatch)
      return wrap (.ofList v results)) = .ok e)
    {p q : β} (hp : xs[operandSlot xs.length i]? = some p)
    (hq : ys[operandSlot ys.length i]? = some q) (hz : e.slot i = .ok z) :
    (do
      let results ← products (← zipSlots times? [p] [q] mismatch')
      return wrap (.ofList false results)) = .ok z := by
  obtain ⟨pairs, hpairs, h⟩ := bind_eq_ok_iff.mp h
  obtain ⟨results, hresults, h⟩ := bind_eq_ok_iff.mp h
  obtain rfl := Except.ok.inj h
  obtain rfl := products_eq_ok_iff.mp hresults
  obtain ⟨r, hr, rfl⟩ := hwrap hz
  rw [Slots.toList_ofList] at hr
  have hi : i < (results.map some).length := by
    rw [List.length_map]
    exact (List.getElem?_eq_some_iff.mp hr).1
  obtain ⟨p', q', hp', hq', hr'⟩ := getElem?_broadcast? (zipSlots_eq_ok_iff.mp hpairs) hi
  rw [hp, Option.some.injEq] at hp'
  rw [hq, Option.some.injEq] at hq'
  rw [List.getElem?_map, hr, Option.map_some, Option.some.injEq, ← hp', ← hq'] at hr'
  have hpair : zipSlots times? [p] [q] mismatch' = .ok [some r] := by
    rw [zipSlots_eq_ok_iff, hr']
    rfl
  have hresult : products (α := α) [some r] = .ok [r] := products_eq_ok_iff.mpr rfl
  rw [hpair, ok_bind, hresult]
  rfl

theorem mulToHigher_monomials {ms ns : List (Monomial α)} (ha : a.monomials? = some ms)
    (hb : b.monomials? = some ns) (hconst : a.family = .const → b.family ≠ .const) :
    mulToHigher a b = do
      let results ← products (← zipSlots Monomial.times? ms ns (.dimension .multiply a b))
      return mono (.ofList (a.isVector || b.isVector) results) := by
  unfold mulToHigher
  split
  · exact absurd rfl (hconst rfl)
  · rw [ha, hb]

theorem mulToHigher_polynomials (h : a.family = .poly ∨ b.family = .poly) :
    mulToHigher a b = do
      let results ← products
        (← zipSlots Polynomial.times? a.polynomials b.polynomials (.dimension .multiply a b))
      return poly (.ofList (a.isVector || b.isVector) results) := by
  rw [← monomials?_eq_none_iff, ← monomials?_eq_none_iff] at h
  unfold mulToHigher
  split
  · rcases h with h | h <;> cases h
  · split
    · next hms hns => rcases h with h | h <;> simp_all
    · rfl

/-- Numbers are multiplied as they are, and there is no degree to check. -/
theorem mulToHigher_slot_const {xs ys : Slots α} (h : mulToHigher (const xs) (const ys) = .ok e)
    (hx : (const xs).slot (operandSlot (const xs).length i) = .ok x)
    (hy : (const ys).slot (operandSlot (const ys).length i) = .ok y) (hz : e.slot i = .ok z) :
    mulToHigher x y = .ok z := by
  simp only [mulToHigher] at h
  split at h
  · obtain ⟨results, hresults, h⟩ := bind_eq_ok_iff.mp h
    obtain rfl := Except.ok.inj h
    obtain ⟨c, hc, rfl⟩ := slot_const_iff.mp hx
    obtain ⟨d, hd, rfl⟩ := slot_const_iff.mp hy
    obtain ⟨r, hr, rfl⟩ := slot_const_iff.mp hz
    rw [Slots.toList_ofList] at hr
    obtain ⟨c', d', hc', hd', hr'⟩ := getElem?_broadcast? (zipSlots_eq_ok_iff.mp hresults)
      (List.getElem?_eq_some_iff.mp hr).1
    obtain rfl := Option.some.inj (hc.symm.trans hc')
    obtain rfl := Option.some.inj (hd.symm.trans hd')
    obtain rfl := Option.some.inj (hr.symm.trans hr')
    rfl
  · cases h

theorem mulToHigher_slot (h : mulToHigher a b = .ok e)
    (hx : a.slot (operandSlot a.length i) = .ok x) (hy : b.slot (operandSlot b.length i) = .ok y)
    (hz : e.slot i = .ok z) : mulToHigher x y = .ok z := by
  have hvector : (x.isVector || y.isVector) = false := by
    rw [isVector_slot hx, isVector_slot hy]
    rfl
  by_cases hpoly : a.family = .poly ∨ b.family = .poly
  · rw [mulToHigher_polynomials hpoly] at h
    obtain ⟨p, hp, hxp⟩ := polynomials_slot hx
    obtain ⟨q, hq, hyq⟩ := polynomials_slot hy
    rw [mulToHigher_polynomials (by rwa [family_slot hx, family_slot hy]), hxp, hyq, hvector]
    rw [← length_polynomials] at hp hq
    exact zipProducts_slot (fun hs => slot_poly_iff.mp hs) h hp hq hz
  · simp only [not_or, ← monomials?_eq_none_iff, ← ne_eq, Option.ne_none_iff_exists'] at hpoly
    obtain ⟨⟨ms, hms⟩, ns, hns⟩ := hpoly
    by_cases hconst : a.family = .const → b.family ≠ .const
    · rw [mulToHigher_monomials hms hns hconst] at h
      obtain ⟨m, hm, hxm⟩ := monomials?_slot hms hx
      obtain ⟨n, hn, hyn⟩ := monomials?_slot hns hy
      rw [mulToHigher_monomials hxm hyn (by rwa [family_slot hx, family_slot hy]), hvector]
      rw [← length_monomials? hms] at hm
      rw [← length_monomials? hns] at hn
      exact zipProducts_slot (fun hs => slot_mono_iff.mp hs) h hm hn hz
    · push Not at hconst
      obtain ⟨xs, rfl⟩ := family_eq_const_iff.mp hconst.1
      obtain ⟨ys, rfl⟩ := family_eq_const_iff.mp hconst.2
      exact mulToHigher_slot_const h hx hy hz

/-- **The slots of a product** are the products of the slots. -/
theorem mul_slot (h : a.mul b = .ok e) (hx : a.slot (operandSlot a.length i) = .ok x)
    (hy : b.slot (operandSlot b.length i) = .ok y) (hz : e.slot i = .ok z) : x.mul y = .ok z := by
  unfold mul at h ⊢
  rw [family_slot hx, family_slot hy]
  split at h
  · next hlt =>
    rw [if_pos hlt]
    exact mulToHigher_slot h hy hx hz
  · next hlt =>
    rw [if_neg hlt]
    exact mulToHigher_slot h hx hy hz

/-! ## Checked operations -/

/-- Slot `i` of `e` has the terms, in the order and with the factors, that an operation gives for
the slots of `a` and `b` that are paired there. -/
def AgreesInSlot (op : Expression α → Operand α → Checked α (Expression α)) (a b e : Expression α)
    (i : ℕ) : Prop :=
  ∃ x y z r p, a.slot (operandSlot a.length i) = .ok x ∧ b.slot (operandSlot b.length i) = .ok y ∧
    e.slot i = .ok z ∧ (op x (.expression y)).result = .ok r ∧
    z.polynomials = [p] ∧ r.polynomials = [p]

theorem plus_agreesInSlot (hzeros : NeutralZeros α) (ha : a.IsNormal) (hb : b.IsNormal)
    (h : (a.plus (.expression b)).result = .ok e) (hi : i < e.length) :
    AgreesInSlot plus a b e i := by
  obtain ⟨hab, hsum⟩ := plus_expression_iff.mp h
  obtain ⟨x, y, z, hx, hy, hz⟩ := exists_slots (length_add hsum) hi
  obtain ⟨r, hr, hrz⟩ := add_slot hzeros ha hb hsum hx hy hz
  obtain ⟨p, -, hzp⟩ := polynomials_slot hz
  have hplus : (x.plus (.expression y)).result = .ok r :=
    plus_expression_iff.mpr
      ⟨⟨check_slot hx hab.left, check_slot hy hab.right, .inl (isVector_slot hx)⟩, hr⟩
  exact ⟨x, y, z, r, p, hx, hy, hz, hplus, hzp, hrz.trans hzp⟩

theorem multiply_agreesInSlot (h : (a.multiply (.expression b)).result = .ok e)
    (hi : i < e.length) : AgreesInSlot multiply a b e i := by
  obtain ⟨c, hc, -, hproduct⟩ := multiply_eq_ok_iff.mp h
  obtain ⟨hacheck, hbcheck, rfl⟩ := checkedOperand_expression_iff.mp hc
  obtain ⟨x, y, z, hx, hy, hz⟩ := exists_slots (length_mul hproduct) hi
  obtain ⟨p, -, hzp⟩ := polynomials_slot hz
  have hmultiply : (x.multiply (.expression y)).result = .ok z := by
    rw [multiply_eq_lift (check_slot hx hacheck) (check_slot hy hbcheck) (.inl (length_slot hx))]
    exact mul_slot hproduct hx hy hz
  exact ⟨x, y, z, z, p, hx, hy, hz, hmultiply, hzp, hzp⟩

/-- Operands without a fault have no product if their degrees overflow, and only then. -/
theorem multiply_eq_degreeOverflow_iff (hone : ((1 : α) == 0) = false) (ha : a.IsNormal)
    (hb : b.IsNormal) (hacheck : a.check = .ok ()) (hbcheck : b.check = .ok ())
    (hfits : a.length = 1 ∨ b.length = 1) :
    (a.multiply (.expression b)).result = .error .degreeOverflow ↔ a.Overflows b := by
  rw [multiply_eq_lift hacheck hbcheck hfits, Logged.result_lift,
    mul_eq_error_iff hone ha hb hfits]
  exact and_iff_left rfl

/-- **Sums and products of doubles are taken slot by slot**, down to the order of terms and factors:
if there is a sum or a product, then the slots that are paired have one, with the terms that stand
in the slot of the result. A product overflows if that of two paired slots does. -/
theorem arithmetic_agrees_in_slots {a b : Expression Float} (ha : a.Constructed)
    (hb : b.Constructed) :
    (∀ e, (a.plus (.expression b)).result = .ok e → ∀ i < e.length, AgreesInSlot plus a b e i) ∧
    (∀ e, (a.multiply (.expression b)).result = .ok e →
      ∀ i < e.length, AgreesInSlot multiply a b e i) ∧
    (a.check = .ok () → b.check = .ok () → (checkProduct a b).result = .ok () →
      ((a.multiply (.expression b)).result = .error .degreeOverflow ↔
        ∃ i x y, a.slot (operandSlot a.length i) = .ok x ∧
          b.slot (operandSlot b.length i) = .ok y ∧
          (x.multiply (.expression y)).result = .error .degreeOverflow)) := by
  have hone : ((1 : Float) == 0) = false := by decide
  have ha := ha.isNormal hone
  have hb := hb.isNormal hone
  refine ⟨fun e h i hi => plus_agreesInSlot Double.neutralZeros ha hb h hi,
    fun e h i hi => multiply_agreesInSlot h hi, fun hacheck hbcheck hproduct => ?_⟩
  have hfits := (rule_eq_ok_iff fun _ => checkProduct_eq_error_iff).mp hproduct
  rw [multiply_eq_degreeOverflow_iff hone ha hb hacheck hbcheck hfits, Overflows]
  refine exists_congr fun i => exists_congr fun x => exists_congr fun y =>
    and_congr_right fun hx => and_congr_right fun hy => ?_
  rw [multiply_eq_degreeOverflow_iff hone (isNormal_slot ha hx) (isNormal_slot hb hy)
    (check_slot hx hacheck) (check_slot hy hbcheck) (.inl (length_slot hx)),
    overflows_of_scalar (isVector_slot hx) (isVector_slot hy)]

/-- The column of `2 * x` and `x ^ 2147483648`, with the scalars `-2 * x` and `x ^ 2147483648`. -/
theorem arithmetic_agrees_in_slots_column :
    let x : Variable := ⟨⟨1⟩, .unit, .binary⟩
    let m : Monomial Float := ⟨1, [⟨x, 2 ^ 31⟩]⟩
    let a : Expression Float := mono (.vector [⟨2, [⟨x, 1⟩]⟩, m])
    let b : Expression Float := mono (.scalar ⟨-2, [⟨x, 1⟩]⟩)
    let c : Expression Float := mono (.scalar m)
    a.Constructed ∧ b.Constructed ∧ c.Constructed ∧
      (∃ e, (a.plus (.expression b)).result = .ok e ∧ e.length = 2 ∧
        AgreesInSlot plus a b e 0 ∧ AgreesInSlot plus a b e 1) ∧
      (∃ e, (a.multiply (.expression b)).result = .ok e ∧ e.length = 2 ∧
        AgreesInSlot multiply a b e 0 ∧ AgreesInSlot multiply a b e 1) ∧
      (a.multiply (.expression c)).result = .error .degreeOverflow := by
  intro x m a b c
  have hm : (mono (.scalar m)).Constructed :=
    .monomial (show Monomial.ofFactors? 1 [⟨x, 2 ^ 31⟩] = some m from rfl)
  have hx (d : Float) (hd : (d == 0) = false) : (mono (.scalar ⟨d, [⟨x, 1⟩]⟩)).Constructed :=
    .monomial (show Monomial.ofFactors? d [⟨x, 1⟩] = some ⟨d, [⟨x, 1⟩]⟩ by
      simp [Monomial.ofFactors?, Monomial.normalize, Factor.merge, Factor.insert, Factor.degree,
        hd, maxDegree])
  have ha : a.Constructed := .monomials (by
    intro n hn
    rcases List.mem_pair.mp hn with rfl | rfl
    · exact hx 2 (by decide +kernel)
    · exact hm)
  have hb : b.Constructed := hx (-2) (by decide +kernel)
  have hacheck : a.check = .ok () := eq_ok_of_isOk (by decide +kernel)
  have hbcheck : b.check = .ok () := eq_ok_of_isOk (by decide +kernel)
  have hccheck : c.check = .ok () := eq_ok_of_isOk (by decide +kernel)
  obtain ⟨hplus, hmultiply, -⟩ := arithmetic_agrees_in_slots ha hb
  obtain ⟨-, -, hoverflow⟩ := arithmetic_agrees_in_slots ha hm
  refine ⟨ha, hb, hm, ?_, ?_, ?_⟩
  · obtain ⟨e, he⟩ := exists_plus_iff.mpr ⟨hacheck, hbcheck, .inr (.inl rfl)⟩
    have hlength : e.length = 2 := (length_add (plus_expression_iff.mp he).2).1 (by decide)
    exact ⟨e, he, hlength, hplus e he 0 (by omega), hplus e he 1 (by omega)⟩
  · have hproduct : (a.multiply (.expression b)).result.toOption.isSome := by decide +kernel
    obtain ⟨e, he⟩ := Option.isSome_iff_exists.mp hproduct
    have he := eq_ok_of_toOption he
    obtain ⟨d, hd, -, hmul⟩ := multiply_eq_ok_iff.mp he
    obtain ⟨-, -, rfl⟩ := checkedOperand_expression_iff.mp hd
    have hlength : e.length = 2 := (length_mul hmul).1 (by decide)
    exact ⟨e, he, hlength, hmultiply e he 0 (by omega), hmultiply e he 1 (by omega)⟩
  · have hslots : (c.multiply (.expression c)).result = .error .degreeOverflow :=
      (multiply_eq_degreeOverflow_iff (by decide) (hm.isNormal (by decide))
        (hm.isNormal (by decide)) hccheck hccheck (.inl rfl)).mpr
        ((overflows_of_scalar rfl rfl).mpr (by decide))
    exact (hoverflow hacheck hccheck rfl).mpr ⟨1, c, c, rfl, rfl, hslots⟩

end Expression

end AlgebraicModel
