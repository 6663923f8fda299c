import Mathlib
import AlgebraicModel.Proofs.Expression.Comparison
import AlgebraicModel.Proofs.Expression.FactorOrder
import AlgebraicModel.Proofs.Expression.SlotTerms

/-!
# Exchanging operands

An operation is computed by the higher of the two families, whichever operand comes first, so that
operands of different families can be exchanged. The exception is the product of a variable and a
monomial: the two families share one product, which takes its operands as they stand. It has the
same value either way, but not always the same order of factors.

## Main definitions

* `Expression.Leads`: variables that come first in the monomials they are paired with
* `Expression.Reordered`: results that differ in the order of factors only

## Main results

* `Expression.add_comm_of_ne`, `mul_comm_of_ne`: operands with one implementation between them
* `Expression.mul_comm_iff_leads`: variables and monomials that can be exchanged
* `Expression.operands_exchange`: which sums and products of doubles can be exchanged
-/

namespace AlgebraicModel.Expression

variable {α : Type} [Scalar α] {a b d e : Expression α}

/-! ## One implementation -/

/-- The operand of the higher family comes first, wherever it stands. -/
theorem add_comm_of_ne (h : a.family ≠ b.family) : a.add b = b.add a := by
  unfold add
  rcases lt_or_gt_of_ne (Family.rank_injective.ne h) with hlt | hlt
  · have hab : a.family < b.family := hlt
    have hba : ¬ b.family < a.family := lt_asymm hlt
    rw [if_pos hab, if_neg hba]
  · have hba : b.family < a.family := hlt
    have hab : ¬ a.family < b.family := lt_asymm hlt
    rw [if_pos hba, if_neg hab]

theorem mul_comm_of_ne (h : a.family.productRank ≠ b.family.productRank) : a.mul b = b.mul a := by
  unfold mul
  rcases lt_or_gt_of_ne h with hlt | hlt
  · rw [if_pos hlt, if_neg (lt_asymm hlt)]
  · rw [if_pos hlt, if_neg (lt_asymm hlt)]

omit [Scalar α] in
/-- Only variables and monomials share their product. -/
theorem productRank_ne (h : a.family ≠ b.family) (hvar : ¬ (a.family = .var ∧ b.family = .mono))
    (hmono : ¬ (a.family = .mono ∧ b.family = .var)) :
    a.family.productRank ≠ b.family.productRank := by
  revert h hvar hmono
  cases a.family <;> cases b.family <;> decide

/-! ## Variables and monomials -/

/-- Each variable of `a` leads the monomials of `b` that it is paired with. -/
def Leads (a b : Expression α) : Prop :=
  ∀ i v m, a.slot (operandSlot a.length i) = .ok (var (.scalar v)) →
    b.slot (operandSlot b.length i) = .ok (mono (.scalar m)) → m.IsLedBy v

/-- Results that are the same up to the order of factors: the same error, or monomials of one shape
that have the same coefficients and powers slot by slot. -/
inductive Reordered : Except (Error α) (Expression α) → Except (Error α) (Expression α) → Prop
  | error (cause : Error α) : Reordered (.error cause) (.error cause)
  | monomials {ms ns : Slots (Monomial α)} (hshape : ms.isVector = ns.isVector)
      (hcontent : ms.toList.map (·.content) = ns.toList.map (·.content)) :
      Reordered (.ok (mono ms)) (.ok (mono ns))

section Shared

/-- The product that variables and monomials share. -/
theorem mul_shared_eq_ok_iff {ns ns' : List (Monomial α)} (ha : a.monomials? = some ns)
    (hb : b.monomials? = some ns') (harank : a.family.productRank = 1)
    (hbrank : b.family.productRank = 1) :
    a.mul b = .ok e ↔ ∃ results, broadcast? Monomial.times? ns ns' = some (results.map some) ∧
      e = mono (.ofList (a.isVector || b.isVector) results) := by
  have hconst : a.family = .const → b.family ≠ .const := by
    intro hzero
    rw [hzero] at harank
    cases harank
  rw [mul, harank, hbrank, if_neg (lt_irrefl _), mulToHigher_monomials ha hb hconst]
  simp only [bind_eq_ok_iff, zipSlots_eq_ok_iff, products_eq_ok_iff]
  constructor
  · rintro ⟨pairs, hpairs, results, rfl, heq⟩
    exact ⟨results, hpairs, (Except.ok.inj heq).symm⟩
  · rintro ⟨results, hpairs, rfl⟩
    exact ⟨_, hpairs, results, rfl, rfl⟩

omit [Scalar α] in
/-- Monomials of one shape are the same if their lists are. -/
theorem mono_ofList_inj {u w : Bool} {rs rs' : List (Monomial α)} (huw : u = w) :
    mono (.ofList u rs) = mono (.ofList w rs') ↔ rs = rs' := by
  subst huw
  constructor
  · intro h
    have hlists := congrArg Slots.toList (mono.inj h)
    rwa [Slots.toList_ofList, Slots.toList_ofList] at hlists
  · rintro rfl
    rfl

variable {vs : Slots Variable} {ms : Slots (Monomial α)} (ha : a = var vs) (hb : b = mono ms)
include ha hb

/-- **Variables and monomials that can be exchanged** are those where the variables lead. -/
theorem mul_comm_iff_leads (hone : ∀ c : α, 1 * c = c) (hcomm : ∀ c d : α, c * d = d * c)
    (hnormal : b.IsNormal) (hfits : a.length = 1 ∨ b.length = 1) (hfree : ¬ a.Overflows b)
    (hd : a.mul b = .ok d) (he : b.mul a = .ok e) : d = e ↔ a.Leads b := by
  subst ha hb
  obtain ⟨rs, hrs, rfl⟩ := (mul_shared_eq_ok_iff rfl rfl rfl rfl).mp hd
  obtain ⟨rs', hrs', rfl⟩ := (mul_shared_eq_ok_iff rfl rfl rfl rfl).mp he
  have hlength : (vs.toList.map (Monomial.ofVariable (α := α))).length = ms.toList.length ∨
      (vs.toList.map (Monomial.ofVariable (α := α))).length = 1 ∨ ms.toList.length = 1 := by
    rw [List.length_map]
    exact .inr hfits
  have hpairs : rs = rs' ↔ ∀ i x m,
      (vs.toList.map Monomial.ofVariable)[operandSlot vs.toList.length i]? = some x →
        ms.toList[operandSlot ms.toList.length i]? = some m → x.times? m = m.times? x := by
    rw [← (List.map_injective_iff.mpr (Option.some_injective _)).eq_iff, ← Option.some.injEq,
      ← hrs, ← hrs', broadcast?_swap _ ms.toList, broadcast?_eq_iff hlength, List.length_map]
  have hpair {i : ℕ} {v : Variable} {m : Monomial α}
      (hv : (var vs : Expression α).slot (operandSlot (var vs : Expression α).length i) =
        .ok (var (.scalar v)))
      (hm : (mono ms).slot (operandSlot (mono ms).length i) = .ok (mono (.scalar m))) :
      (Monomial.ofVariable v).times? m = m.times? (.ofVariable v) ↔ m.IsLedBy v := by
    rw [Monomial.times?_ofVariable_comm_iff hone hcomm
      (isNormal_mono_scalar.mp (isNormal_slot hnormal hm))]
    refine or_iff_right fun hlt => hfree ⟨i, _, _, hv, hm, ?_⟩
    simpa [degree] using hlt
  rw [mono_ofList_inj (Bool.or_comm _ _), hpairs]
  constructor
  · intro h i v m hv hm
    refine (hpair hv hm).mp (h i _ _ ?_ (slot_mono_scalar_iff.mp hm))
    rw [List.getElem?_map]
    exact congrArg (Option.map _) (slot_var_scalar_iff.mp hv)
  · intro h i x m hx hm
    rw [List.getElem?_map] at hx
    obtain ⟨v, hv, rfl⟩ := Option.map_eq_some_iff.mp hx
    have hv := slot_var_scalar_iff (α := α).mpr hv
    have hm := slot_mono_scalar_iff.mpr hm
    exact (hpair hv hm).mpr (h i v m hv hm)

/-- The products of variables and monomials have the same coefficients and powers in either
order. -/
theorem reordered_mul (hcomm : ∀ c d : α, c * d = d * c) (hd : a.mul b = .ok d)
    (he : b.mul a = .ok e) : Reordered (.ok d) (.ok e) := by
  have hvector : d.isVector = e.isVector := by
    rw [isVector_mul hd, isVector_mul he, Bool.or_comm]
  subst ha hb
  obtain ⟨rs, hrs, rfl⟩ := (mul_shared_eq_ok_iff rfl rfl rfl rfl).mp hd
  obtain ⟨rs', hrs', rfl⟩ := (mul_shared_eq_ok_iff rfl rfl rfl rfl).mp he
  refine .monomials hvector ?_
  rw [Slots.toList_ofList, Slots.toList_ofList]
  have hcontents (xs ys : List (Monomial α)) := broadcast?_map (f := Monomial.times?)
    (g := fun x y => (x.times? y).map Monomial.content) (u := id) (v := id)
    (w := Option.map Monomial.content) (fun _ _ => rfl) xs ys
  have hleft := hcontents (vs.toList.map .ofVariable) ms.toList
  have hright := hcontents ms.toList (vs.toList.map .ofVariable)
  rw [broadcast?_comm fun x y => Monomial.content_times?_comm hcomm _ _] at hright
  simp only [List.map_id, hrs, hrs'] at hleft hright
  have hlists := Option.some.inj (hleft.symm.trans hright)
  apply List.map_injective_iff.mpr (Option.some_injective _)
  simpa using hlists

/-- Both products overflow, or neither does. -/
theorem mul_exchange (hzero : ((1 : α) == 0) = false) (hone : ∀ c : α, 1 * c = c)
    (hcomm : ∀ c d : α, c * d = d * c) (hnormal : b.IsNormal)
    (hfits : a.length = 1 ∨ b.length = 1) :
    (a.mul b = b.mul a ↔ a.Overflows b ∨ a.Leads b) ∧ Reordered (a.mul b) (b.mul a) := by
  have hanormal : a.IsNormal := by
    rw [ha]
    trivial
  have hleft {cause : Error α} :
      a.mul b = .error cause ↔ a.Overflows b ∧ cause = .degreeOverflow :=
    mul_eq_error_iff hzero hanormal hnormal hfits
  have hright {cause : Error α} :
      b.mul a = .error cause ↔ a.Overflows b ∧ cause = .degreeOverflow := by
    rw [mul_eq_error_iff hzero hnormal hanormal hfits.symm, overflows_comm]
  by_cases hoverflows : a.Overflows b
  · rw [hleft.mpr ⟨hoverflows, rfl⟩, hright.mpr ⟨hoverflows, rfl⟩]
    exact ⟨iff_of_true rfl (.inl hoverflows), .error _⟩
  · cases hd : a.mul b with
    | error cause => exact absurd (hleft.mp hd).1 hoverflows
    | ok d =>
      cases he : b.mul a with
      | error cause => exact absurd (hright.mp he).1 hoverflows
      | ok e =>
        rw [Except.ok.injEq, or_iff_right hoverflows]
        exact ⟨mul_comm_iff_leads ha hb hone hcomm hnormal hfits hoverflows hd he,
          reordered_mul ha hb hcomm hd he⟩

end Shared

/-! ## Operands of different families -/

/-- **Operands of different families can be exchanged**, down to the order of terms and factors, in
every sum and in every product but that of variables and monomials. In such a product they can if it
overflows or if each variable leads the monomials it is paired with; otherwise the two products have
the same coefficients and powers. -/
theorem operands_exchange {a b : Expression Float} (ha : a.Constructed) (hb : b.Constructed)
    (hfamily : a.family ≠ b.family) (hacheck : a.check = .ok ()) (hbcheck : b.check = .ok ()) :
    ((checkSum .plus a b).result = .ok () → a.plus (.expression b) = b.plus (.expression a)) ∧
    ((checkProduct a b).result = .ok () →
      (¬ (a.family = .var ∧ b.family = .mono) → ¬ (a.family = .mono ∧ b.family = .var) →
        a.multiply (.expression b) = b.multiply (.expression a)) ∧
      (a.family = .var → b.family = .mono →
        (a.multiply (.expression b) = b.multiply (.expression a) ↔ a.Overflows b ∨ a.Leads b) ∧
        Reordered (a.multiply (.expression b)).result (b.multiply (.expression a)).result)) := by
  have hone : ((1 : Float) == 0) = false := by decide
  have ha := ha.isNormal hone
  have hb := hb.isNormal hone
  refine ⟨fun hsum => ?_, fun hproduct => ?_⟩
  · have hfits := checkSum_eq_ok_iff.mp hsum
    rw [plus_eq_lift hacheck hbcheck hfits, plus_eq_lift hbcheck hacheck (by tauto),
      add_comm_of_ne hfamily]
  · have hfits := (rule_eq_ok_iff fun _ => checkProduct_eq_error_iff).mp hproduct
    rw [multiply_eq_lift hacheck hbcheck hfits, multiply_eq_lift hbcheck hacheck hfits.symm]
    refine ⟨fun hvar hmono => ?_, fun hvar hmono => ?_⟩
    · rw [mul_comm_of_ne (productRank_ne hfamily hvar hmono)]
    · obtain ⟨vs, hvs⟩ := family_eq_var_iff.mp hvar
      obtain ⟨ms, hms⟩ := family_eq_mono_iff.mp hmono
      obtain ⟨hexact, hreordered⟩ :=
        mul_exchange hvs hms hone Double.one_mul Double.mul_comm hb hfits
      refine ⟨?_, hreordered⟩
      rw [← hexact]
      exact ⟨fun h => congrArg Logged.result h, fun h => congrArg _ h⟩

/-- The variable `x` with the constant `2`, and with the monomials `y` and `3 * x ^ 2`. -/
theorem operands_exchange_factor :
    let x : Variable := ⟨⟨1⟩, .unit, .binary⟩
    let y : Variable := ⟨⟨2⟩, .unit, .binary⟩
    let a : Expression Float := var (.scalar x)
    let b : Expression Float := mono (.scalar (.ofVariable y))
    let c : Expression Float := mono (.scalar ⟨3, [⟨x, 2⟩]⟩)
    let k : Expression Float := const (.scalar 2)
    b.Constructed ∧ c.Constructed ∧ a.plus (.expression b) = b.plus (.expression a) ∧
      a.multiply (.expression k) = k.multiply (.expression a) ∧
      a.multiply (.expression c) = c.multiply (.expression a) ∧
      a.multiply (.expression b) ≠ b.multiply (.expression a) ∧
      Reordered (a.multiply (.expression b)).result (b.multiply (.expression a)).result := by
  intro x y a b c k
  have hb : b.Constructed := .variableMonomial y
  have hc : c.Constructed :=
    .monomial (show Monomial.ofFactors? 3 [⟨x, 2⟩] = some ⟨3, [⟨x, 2⟩]⟩ from rfl)
  have hacheck : a.check = .ok () := eq_ok_of_isOk (by decide +kernel)
  have hbcheck : b.check = .ok () := eq_ok_of_isOk (by decide +kernel)
  have hccheck : c.check = .ok () := eq_ok_of_isOk (by decide +kernel)
  obtain ⟨hsum, hproduct⟩ := operands_exchange (.var _) hb (by decide) hacheck hbcheck
  obtain ⟨-, hproductc⟩ := operands_exchange (.var _) hc (by decide) hacheck hccheck
  obtain ⟨-, hproductk⟩ := operands_exchange (.var _) (.const (.scalar 2)) (by decide) hacheck rfl
  obtain ⟨hexact, hreordered⟩ := (hproduct rfl).2 rfl rfl
  obtain ⟨hexactc, -⟩ := (hproductc rfl).2 rfl rfl
  refine ⟨hb, hc, hsum rfl, (hproductk rfl).1 (by decide) (by decide), ?_, ?_, hreordered⟩
  · refine hexactc.mpr (.inr fun i v m hv hm => ?_)
    obtain rfl := List.mem_singleton.mp (List.mem_of_getElem? (slot_var_scalar_iff.mp hv))
    obtain rfl := List.mem_singleton.mp (List.mem_of_getElem? (slot_mono_scalar_iff.mp hm))
    rintro f ⟨⟩
    rfl
  · intro heq
    rcases hexact.mp heq with hoverflows | hleads
    · exact absurd ((overflows_of_scalar rfl rfl).mp hoverflows) (by decide)
    · have hrecord : y = x := hleads 0 x (.ofVariable y) rfl rfl ⟨y, 1⟩ rfl
      exact absurd (congrArg (·.id) hrecord) (by decide)

end AlgebraicModel.Expression
