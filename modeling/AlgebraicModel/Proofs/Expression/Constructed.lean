import Mathlib
import AlgebraicModel.Expression.Evaluation
import AlgebraicModel.Proofs.Expression.Arithmetic
import AlgebraicModel.Proofs.Expression.NormalForm

/-!
# Expressions that can be constructed

Monomials and polynomials are values of closed types: they come out of constructors that merge
factors and collect terms, and of operations on what was constructed before. Whatever is constructed
this way is in normal form.

## Main definitions

* `Expression.Constructed`: what the constructors and operations can build
* `Expression.IsNormal`: every slot is in normal form

## Main results

* `Expression.Constructed.isNormal`: what can be constructed is in normal form
-/

namespace AlgebraicModel

namespace Expression

variable {α : Type} [Scalar α]

/-- Every slot is in normal form. -/
def IsNormal : Expression α → Prop
  | const _ => True
  | var _ => True
  | mono ms => ∀ m ∈ ms.toList, m.IsNormal
  | poly ps => ∀ p ∈ ps.toList, p.IsNormal

variable {a b e : Expression α}

/-! ## Reading in a higher family -/

theorem isNormal_monomials? (hone : ((1 : α) == 0) = false) (h : e.IsNormal)
    {ms : List (Monomial α)} (hms : e.monomials? = some ms) : ∀ m ∈ ms, m.IsNormal := by
  cases e <;> simp only [monomials?, Option.some.injEq, reduceCtorEq] at hms <;> subst hms
  case const =>
    intro m hm
    obtain ⟨c, -, rfl⟩ := List.mem_map.mp hm
    exact Monomial.isNormal_const c
  case var =>
    intro m hm
    obtain ⟨v, -, rfl⟩ := List.mem_map.mp hm
    exact Monomial.isNormal_ofVariable hone v
  case mono => exact h

theorem polynomials_eq_map {ms : List (Monomial α)} (hms : e.monomials? = some ms) :
    e.polynomials = ms.map .ofMonomial := by
  cases e <;> simp only [monomials?, Option.some.injEq, reduceCtorEq] at hms <;> subst hms <;>
    simp [polynomials, Function.comp_def]

theorem isNormal_polynomials (hone : ((1 : α) == 0) = false) (h : e.IsNormal) :
    ∀ p ∈ e.polynomials, p.IsNormal := by
  cases hms : e.monomials? with
  | none =>
    cases e <;> simp only [monomials?, reduceCtorEq] at hms
    exact h
  | some ms =>
    rw [polynomials_eq_map hms]
    intro p hp
    obtain ⟨m, hm, rfl⟩ := List.mem_map.mp hp
    exact Polynomial.isNormal_ofMonomial (isNormal_monomials? hone h hms m hm)

/-! ## Operations -/

theorem isNormal_mono_map {β : Type} {f : β → Monomial α} {s : Slots β}
    (h : ∀ x ∈ s.toList, (f x).IsNormal) : (mono (s.map f)).IsNormal := by
  intro m hm
  obtain ⟨x, hx, rfl⟩ := List.mem_map.mp (Slots.toList_map f s ▸ hm)
  exact h x hx

theorem isNormal_poly_map {β : Type} {f : β → Polynomial α} {s : Slots β}
    (h : ∀ x ∈ s.toList, (f x).IsNormal) : (poly (s.map f)).IsNormal := by
  intro p hp
  obtain ⟨x, hx, rfl⟩ := List.mem_map.mp (Slots.toList_map f s ▸ hp)
  exact h x hx

theorem IsSum.isNormal (h : IsSum a b e) (hone : ((1 : α) == 0) = false) (ha : a.IsNormal)
    (hb : b.IsNormal) : e.IsNormal := by
  cases h with
  | numbers => trivial
  | @like m n hm =>
    subst hm
    have hm : m.IsNormal := ha m (by simp)
    simpa [IsNormal] using Monomial.isNormal_normalize _ hm.factors.distinct hm.factors.bounded
  | polynomials h =>
    intro p hp
    rw [Slots.toList_ofList] at hp
    obtain ⟨x, hx, y, hy, rfl⟩ := exists_of_mem_broadcast? h hp
    exact Polynomial.isNormal_add (isNormal_polynomials hone ha x hx)
      (isNormal_polynomials hone hb y hy)

theorem isNormal_add (hone : ((1 : α) == 0) = false) (ha : a.IsNormal) (hb : b.IsNormal)
    (h : a.add b = .ok e) : e.IsNormal := by
  rcases isSum_of_add h with h | h
  · exact h.isNormal hone ha hb
  · exact h.isNormal hone hb ha

/-- Every slot is a number, or a product whose degree was checked. -/
theorem IsProduct.isNormal (h : IsProduct a b e) : e.IsNormal := by
  cases h with
  | numbers => trivial
  | monomials _ _ h =>
    intro m hm
    rw [Slots.toList_ofList] at hm
    obtain ⟨x, -, y, -, hxy⟩ := exists_of_mem_broadcast? h (List.mem_map_of_mem hm)
    exact Monomial.isNormal_times? hxy
  | polynomials h =>
    intro p hp
    rw [Slots.toList_ofList] at hp
    obtain ⟨x, -, y, -, hxy⟩ := exists_of_mem_broadcast? h (List.mem_map_of_mem hp)
    exact Polynomial.isNormal_times? hxy

theorem isNormal_mul (h : a.mul b = .ok e) : e.IsNormal := by
  rcases isProduct_of_mul h with h | h
  · exact h.isNormal
  · exact h.isNormal

theorem isNormal_negate (hone : ((1 : α) == 0) = false) (h : e.IsNormal) : e.negate.IsNormal := by
  cases e with
  | const xs => trivial
  | var vs =>
    exact isNormal_mono_map fun v _ =>
      Monomial.isNormal_scale (Monomial.isNormal_ofVariable hone v) _
  | mono ms => exact isNormal_mono_map fun m hm => Monomial.isNormal_scale (h m hm) _
  | poly ps => exact isNormal_poly_map fun p hp => Polynomial.isNormal_scale (h p hp) _

theorem isNormal_derivative (h : e.IsNormal) (id : VariableId) : (e.derivative id).IsNormal := by
  cases e with
  | const xs => trivial
  | var vs => trivial
  | mono ms => exact isNormal_mono_map fun m hm => Monomial.isNormal_derivative (h m hm) id
  | poly ps => exact isNormal_poly_map fun p hp => Polynomial.isNormal_derivative (h p hp) id

/-- The product so far is the start of the power, or the last product. -/
theorem isNormal_mulRepeated {product : Expression α} (hproduct : product.IsNormal) {n : ℕ}
    (h : mulRepeated e product n = .ok b) : b.IsNormal := by
  induction n generalizing product with
  | zero =>
    obtain rfl := Except.ok.inj h
    exact hproduct
  | succ n ih =>
    obtain ⟨next, hnext, hrest⟩ := bind_eq_ok_iff.mp h
    exact ih (isNormal_mul hnext) hrest

theorem isNormal_power {n : ℕ} (h : e.power n = .ok b) : b.IsNormal := by
  simp only [power] at h
  split at h
  · simp [bind, Except.bind] at h
  · obtain ⟨-, -, hproduct⟩ := bind_eq_ok_iff.mp h
    have hone : (const (.scalar 1) : Expression α).IsNormal := trivial
    exact isNormal_mulRepeated hone hproduct

theorem isNormal_slot (h : e.IsNormal) {index : ℕ} (hb : e.slot index = .ok b) : b.IsNormal := by
  unfold slot at hb
  split at hb
  · next s hs =>
    obtain rfl := Except.ok.inj hb
    cases e <;> obtain ⟨s', hs', rfl⟩ := Option.map_eq_some_iff.mp hs
    case const | var => trivial
    case mono | poly =>
      obtain ⟨x, hx, rfl⟩ := mem_of_at?_eq_some hs'
      simpa [IsNormal, Slots.toList] using h x hx
  · simp at hb

theorem isNormal_dotTerms (hone : ((1 : α) == 0) = false) {ts : List (Monomial α)}
    (h : a.dotTerms b = .ok ts) : ∀ t ∈ ts, t.IsNormal := by
  obtain ⟨rows, hrows, heq⟩ := bind_eq_ok_iff.mp h
  obtain rfl := Except.ok.inj heq
  intro t ht
  obtain ⟨row, hrow, ht⟩ := List.mem_flatten.mp ht
  obtain ⟨i, -, hi⟩ := exists_of_forall₂ (mapM_eq_ok_iff.mp hrows) hrow
  obtain ⟨x, -, hi⟩ := bind_eq_ok_iff.mp hi
  obtain ⟨y, -, hi⟩ := bind_eq_ok_iff.mp hi
  obtain ⟨product, hproduct, heq⟩ := bind_eq_ok_iff.mp hi
  obtain rfl := Except.ok.inj heq
  obtain ⟨p, hp, ht⟩ := List.mem_flatMap.mp ht
  exact (isNormal_polynomials hone (isNormal_mul hproduct) p hp).terms t ht

theorem isNormal_dot (hone : ((1 : α) == 0) = false) {b' : Operand α}
    (h : (a.dot b').result = .ok e) : e.IsNormal := by
  obtain ⟨b, -, -, hresult⟩ := dot_eq_ok_iff.mp h
  split at hresult
  · subst hresult
    trivial
  · obtain ⟨ts, hts, rfl⟩ := hresult
    intro p hp
    obtain rfl := List.mem_singleton.mp hp
    exact Polynomial.isNormal_ofTerms fun t ht => (isNormal_dotTerms hone hts t ht).factors

/-! ## Construction -/

/-- What the constructors and the operations can build. A monomial or a polynomial by itself is
built where its scalar is. -/
inductive Constructed : Expression α → Prop
  | const (xs : Slots α) : Constructed (const xs)
  | var (vs : Slots Variable) : Constructed (var vs)
  | monomial {c : α} {fs : List Factor} {m : Monomial α} (h : Monomial.ofFactors? c fs = some m) :
      Constructed (mono (.scalar m))
  | constMonomial (c : α) : Constructed (mono (.scalar (.const c)))
  | variableMonomial (v : Variable) : Constructed (mono (.scalar (.ofVariable v)))
  | scaleMonomial {m : Monomial α} (hm : Constructed (mono (.scalar m))) (c : α) :
      Constructed (mono (.scalar (m.scale c)))
  | timesMonomial {m n r : Monomial α} (hm : Constructed (mono (.scalar m)))
      (hn : Constructed (mono (.scalar n))) (h : m.times? n = some r) :
      Constructed (mono (.scalar r))
  | monomials {ms : List (Monomial α)} (h : ∀ m ∈ ms, Constructed (mono (.scalar m))) :
      Constructed (mono (.vector ms))
  | polynomial {ts : List (Monomial α)} (h : ∀ t ∈ ts, Constructed (mono (.scalar t))) :
      Constructed (poly (.scalar (.ofTerms ts)))
  | term {p : Polynomial α} {t : Monomial α} (hp : Constructed (poly (.scalar p)))
      (h : t ∈ p.terms) : Constructed (mono (.scalar t))
  | addPolynomial {p q : Polynomial α} (hp : Constructed (poly (.scalar p)))
      (hq : Constructed (poly (.scalar q))) : Constructed (poly (.scalar (p.add q)))
  | timesPolynomial {p q r : Polynomial α} (hp : Constructed (poly (.scalar p)))
      (hq : Constructed (poly (.scalar q))) (h : p.times? q = some r) :
      Constructed (poly (.scalar r))
  | scalePolynomial {p : Polynomial α} (hp : Constructed (poly (.scalar p))) (c : α) :
      Constructed (poly (.scalar (p.scale c)))
  | polynomials {ps : List (Polynomial α)} (h : ∀ p ∈ ps, Constructed (poly (.scalar p))) :
      Constructed (poly (.vector ps))
  | slot {a e : Expression α} {index : ℕ} (ha : Constructed a) (h : a.slot index = .ok e) :
      Constructed e
  | derivative {a : Expression α} (ha : Constructed a) (id : VariableId) :
      Constructed (a.derivative id)
  | plus {a b e : Expression α} {b' : Operand α} (ha : Constructed a) (hb : Constructed b)
      (hb' : b'.toExpression = .ok b) (h : (a.plus b').result = .ok e) : Constructed e
  | minus {a b e : Expression α} {b' : Operand α} (ha : Constructed a) (hb : Constructed b)
      (hb' : b'.toExpression = .ok b) (h : (a.minus b').result = .ok e) : Constructed e
  | multiply {a b e : Expression α} {b' : Operand α} (ha : Constructed a) (hb : Constructed b)
      (hb' : b'.toExpression = .ok b) (h : (a.multiply b').result = .ok e) : Constructed e
  | dot {a b e : Expression α} {b' : Operand α} (ha : Constructed a) (hb : Constructed b)
      (hb' : b'.toExpression = .ok b) (h : (a.dot b').result = .ok e) : Constructed e
  | power {a e : Expression α} {n : ℕ} (ha : Constructed a) (h : a.power n = .ok e) : Constructed e
  | transpose {a e : Expression α} (ha : Constructed a) (h : a.transpose = .ok e) : Constructed e
  | negate {a : Expression α} (ha : Constructed a) : Constructed a.negate

theorem isNormal_mono_scalar {m : Monomial α} : (mono (.scalar m)).IsNormal ↔ m.IsNormal := by
  simp [IsNormal, Slots.toList]

theorem isNormal_poly_scalar {p : Polynomial α} : (poly (.scalar p)).IsNormal ↔ p.IsNormal := by
  simp [IsNormal, Slots.toList]

/-- **What can be constructed is in normal form.** -/
theorem Constructed.isNormal (hone : ((1 : α) == 0) = false) (h : Constructed e) : e.IsNormal := by
  induction h with
  | const | var => trivial
  | monomial h => exact isNormal_mono_scalar.mpr (Monomial.isNormal_ofFactors? h)
  | constMonomial c => exact isNormal_mono_scalar.mpr (Monomial.isNormal_const c)
  | variableMonomial v => exact isNormal_mono_scalar.mpr (Monomial.isNormal_ofVariable hone v)
  | scaleMonomial _ c ih =>
    exact isNormal_mono_scalar.mpr (Monomial.isNormal_scale (isNormal_mono_scalar.mp ih) c)
  | timesMonomial _ _ h => exact isNormal_mono_scalar.mpr (Monomial.isNormal_times? h)
  | monomials _ ih => exact fun m hm => isNormal_mono_scalar.mp (ih m hm)
  | polynomial _ ih =>
    exact isNormal_poly_scalar.mpr
      (Polynomial.isNormal_ofTerms fun t ht => (isNormal_mono_scalar.mp (ih t ht)).factors)
  | term _ h ih => exact isNormal_mono_scalar.mpr ((isNormal_poly_scalar.mp ih).terms _ h)
  | addPolynomial _ _ ihp ihq =>
    exact isNormal_poly_scalar.mpr
      (Polynomial.isNormal_add (isNormal_poly_scalar.mp ihp) (isNormal_poly_scalar.mp ihq))
  | timesPolynomial _ _ h => exact isNormal_poly_scalar.mpr (Polynomial.isNormal_times? h)
  | scalePolynomial _ c ih =>
    exact isNormal_poly_scalar.mpr (Polynomial.isNormal_scale (isNormal_poly_scalar.mp ih) c)
  | polynomials _ ih => exact fun p hp => isNormal_poly_scalar.mp (ih p hp)
  | slot _ h ih => exact isNormal_slot ih h
  | derivative _ id ih => exact isNormal_derivative ih id
  | plus _ _ hb' h iha ihb =>
    obtain ⟨b, hb, -, hsum⟩ := plus_eq_ok_iff.mp h
    obtain ⟨-, hb, -⟩ := checkedOperand_eq_ok_iff.mp hb
    obtain rfl := Except.ok.inj (hb'.symm.trans hb)
    exact isNormal_add hone iha ihb hsum
  | minus _ _ hb' h iha ihb =>
    obtain ⟨b, hb, -, hsum⟩ := minus_eq_ok_iff.mp h
    obtain ⟨-, hb, -⟩ := checkedOperand_eq_ok_iff.mp hb
    obtain rfl := Except.ok.inj (hb'.symm.trans hb)
    exact isNormal_add hone iha (isNormal_negate hone ihb) hsum
  | multiply _ _ _ h =>
    obtain ⟨b, -, -, hproduct⟩ := multiply_eq_ok_iff.mp h
    exact isNormal_mul hproduct
  | dot _ _ _ h => exact isNormal_dot hone h
  | power _ h => exact isNormal_power h
  | transpose _ h ih =>
    unfold Expression.transpose at h
    split at h
    · obtain rfl := Except.ok.inj h
      exact ih
    · simp at h
  | negate _ ih => exact isNormal_negate hone ih

end Expression

end AlgebraicModel
