import Mathlib
import AlgebraicModel.Proofs.Expression.Constructed
import AlgebraicModel.Proofs.Grouping
import AlgebraicModel.Scalar.Double

/-!
# Collected terms

Terms with the same powers are one group, whatever the order of their factors, and a polynomial has
one term for each group: the factors are those of the first term of the group, and the coefficient
is the sum of the coefficients of the group, from the left. No law of numbers is needed for this, so
it holds of doubles with their roundings and of coefficients that are not numbers.

Terms are not dropped before all of them are collected. A group whose sum is zero for a while keeps
its place, and later terms join it there.

## Main definitions

* `Monomial.signature`, `Monomial.sortedPowers`: the powers of a term without an order, and in the
  order of their variables
* `leftSum`: a sum from the left that starts with its first summand
* `Polynomial.groups`: the term of every group
* `Polynomial.ofTermsByTable`: collecting like terms through a table of places

## Main results

* `Polynomial.terms_ofTerms`: collecting like terms gives the groups whose sum is not zero
* `Polynomial.ofTermsByTable_eq`: the table collects the same terms
* `Polynomial.IsNormal.ofTerms_terms`: what is collected stays as it is
* `Polynomial.collects_groups`: all of it, for lists of terms and for what can be constructed
-/

namespace AlgebraicModel

instance : Hashable VariableId := ⟨fun id => hash id.value⟩

/-- Add up a list from the left, starting from its first number. -/
def leftSum {α : Type} [Scalar α] : List α → α
  | [] => 0
  | x :: xs => xs.foldl (· + ·) x

/-! ## The powers of a term -/

namespace Monomial

variable {α : Type} {s t : Monomial α}

/-- The powers, without an order of the factors. -/
def signature (m : Monomial α) : Multiset (VariableId × ℕ) :=
  m.powers

theorem isLike_iff_signature : s.isLike t = true ↔ s.signature = t.signature :=
  isLike_iff.trans Multiset.coe_eq_coe.symm

theorem signature_eq_zero (h : t.isConstant = true) : t.signature = 0 := by
  rw [signature, powers, List.isEmpty_iff.mp h]
  rfl

/-- Powers are ordered by their variables, and those of one variable by their exponents. -/
def notAfter (p q : VariableId × ℕ) : Bool :=
  p.1.value < q.1.value || p.1.value == q.1.value && p.2 ≤ q.2

/-- The powers, in the order of their variables. -/
def sortedPowers (m : Monomial α) : List (VariableId × ℕ) :=
  m.powers.mergeSort notAfter

theorem notAfter_iff {p q : VariableId × ℕ} : notAfter p q = true ↔
    p.1.value.toNat < q.1.value.toNat ∨ p.1.value.toNat = q.1.value.toNat ∧ p.2 ≤ q.2 := by
  simp [notAfter, UInt64.lt_iff_toNat_lt, UInt64.toNat_inj]

theorem notAfter_trans (p q r : VariableId × ℕ) (hpq : notAfter p q) (hqr : notAfter q r) :
    notAfter p r := by
  rw [notAfter_iff] at hpq hqr ⊢
  omega

theorem notAfter_total (p q : VariableId × ℕ) : (notAfter p q || notAfter q p) = true := by
  rw [Bool.or_eq_true, notAfter_iff, notAfter_iff]
  omega

theorem eq_of_notAfter {p q : VariableId × ℕ} (hpq : notAfter p q) (hqp : notAfter q p) :
    p = q := by
  rw [notAfter_iff] at hpq hqp
  have hvalue : p.1.value = q.1.value := UInt64.toNat_inj.mp (by omega)
  exact Prod.ext (congrArg VariableId.mk hvalue) (by omega)

/-- Powers in order tell groups apart as powers without an order do. -/
theorem sortedPowers_eq_iff : s.sortedPowers = t.sortedPowers ↔ s.signature = t.signature := by
  have hsorted (m : Monomial α) : m.sortedPowers.Perm m.powers := List.mergeSort_perm _ _
  have hpairwise (m : Monomial α) : m.sortedPowers.Pairwise fun p q => notAfter p q = true :=
    List.pairwise_mergeSort notAfter_trans notAfter_total _
  rw [signature, signature, Multiset.coe_eq_coe]
  constructor
  · intro h
    exact (hsorted s).symm.trans (h ▸ hsorted t)
  · intro h
    have hperm : s.sortedPowers.Perm t.sortedPowers :=
      (hsorted s).trans (h.trans (hsorted t).symm)
    exact hperm.eq_of_pairwise (fun _ _ _ _ => eq_of_notAfter) (hpairwise s) (hpairwise t)

/-- The term with the coefficient of another added to its own. -/
def absorb [Add α] (t m : Monomial α) : Monomial α :=
  { t with coefficient := t.coefficient + m.coefficient }

theorem insert_eq_grouping [Add α] (m : Monomial α) (ts : List (Monomial α)) :
    m.insert ts = Grouping.insert (·.signature) absorb m ts := by
  induction ts with
  | nil => rfl
  | cons t ts ih =>
    rw [insert, Grouping.insert, ih]
    exact if_congr isLike_iff_signature rfl rfl

theorem foldl_absorb [Add α] (ms : List (Monomial α)) (t : Monomial α) :
    ms.foldl absorb t = ⟨(ms.map (·.coefficient)).foldl (· + ·) t.coefficient, t.factors⟩ := by
  induction ms generalizing t with
  | nil => rfl
  | cons m ms ih =>
    rw [List.foldl_cons, ih]
    rfl

end Monomial

/-! ## Groups -/

namespace Polynomial

variable {α : Type} [Scalar α] {p : Polynomial α}

/-- The coefficients of the terms with the given powers, in order. -/
def groupCoefficients (ts : List (Monomial α)) (powers : Multiset (VariableId × ℕ)) : List α :=
  (ts.filter (·.signature = powers)).map (·.coefficient)

/-- One term for each group, in the order in which the groups occur first: the factors of the first
term of the group, and the sum of its coefficients from the left. -/
def groups (ts : List (Monomial α)) : List (Monomial α) :=
  (Grouping.leaders (·.signature) ts).map fun t =>
    ⟨leftSum (groupCoefficients ts t.signature), t.factors⟩

/-- Collect like terms through a table from sorted powers to the places of the groups, and drop the
groups whose sum is zero. -/
def ofTermsByTable (ts : List (Monomial α)) : Polynomial α :=
  ⟨(ts.foldl (Grouping.Table.add (·.sortedPowers) Monomial.absorb) .empty).values.filter
    (·.coefficient != 0)⟩

theorem foldl_insert_eq_grouping (ts : List (Monomial α)) :
    ts.foldl (fun collected t => t.insert collected) [] =
      ts.foldl (fun collected t => Grouping.insert (·.signature) Monomial.absorb t collected) [] := by
  congr 1
  funext collected t
  exact t.insert_eq_grouping collected

theorem foldl_insert_eq_groups (ts : List (Monomial α)) :
    ts.foldl (fun collected t => t.insert collected) [] = groups ts := by
  have hjoined : ts.foldl (fun collected t => t.insert collected) [] =
      (Grouping.leaders (·.signature) ts).map
        (Grouping.joined (·.signature) Monomial.absorb ts) := by
    rw [foldl_insert_eq_grouping]
    apply Grouping.foldl_insert_eq
    exact fun _ _ => rfl
  rw [hjoined, groups]
  apply List.map_congr_left
  intro t ht
  obtain ⟨us, hus⟩ := Grouping.exists_filter_eq_cons ht
  rw [Grouping.joined, groupCoefficients, hus, List.tail_cons, Monomial.foldl_absorb, List.map_cons,
    leftSum]

/-- **Collecting like terms gives the groups whose sum is not zero.** -/
theorem terms_ofTerms (ts : List (Monomial α)) :
    (ofTerms ts).terms = (groups ts).filter (·.coefficient != 0) := by
  rw [ofTerms, foldl_insert_eq_groups]

/-- **The table collects the same terms.** -/
theorem ofTermsByTable_eq (ts : List (Monomial α)) : ofTermsByTable ts = ofTerms ts := by
  have hvalues : (ts.foldl (Grouping.Table.add (·.sortedPowers) Monomial.absorb) .empty).values =
      ts.foldl (fun collected t =>
        Grouping.insert (·.sortedPowers) Monomial.absorb t collected) [] := by
    apply Grouping.Table.values_foldl_add
    exact fun _ _ => rfl
  rw [ofTermsByTable, ofTerms, foldl_insert_eq_grouping, hvalues]
  congr 3
  funext collected t
  exact Grouping.insert_congr (fun _ _ => Monomial.sortedPowers_eq_iff) t collected

/-- Later terms join a group where it stands, whether or not its sum is zero by then. -/
theorem mem_groups_append {ts : List (Monomial α)} {g : Monomial α} (hg : g ∈ groups ts)
    (us : List (Monomial α)) :
    ⟨(groupCoefficients us g.signature).foldl (· + ·) g.coefficient, g.factors⟩ ∈
      groups (ts ++ us) := by
  obtain ⟨t, ht, rfl⟩ := List.mem_map.mp hg
  refine List.mem_map.mpr ⟨t, Grouping.mem_leaders_append ht us, ?_⟩
  obtain ⟨vs, hvs⟩ := Grouping.exists_filter_eq_cons ht
  congr 1
  show leftSum (groupCoefficients (ts ++ us) t.signature) =
    (groupCoefficients us t.signature).foldl (· + ·) (leftSum (groupCoefficients ts t.signature))
  rw [groupCoefficients, List.filter_append, List.map_append, groupCoefficients, groupCoefficients,
    hvs, List.map_cons, List.cons_append, leftSum, leftSum, List.foldl_append]

/-! ### Normal forms -/

theorem IsNormal.nodup_signatures (hp : p.IsNormal) : (p.terms.map (·.signature)).Nodup := by
  rw [List.nodup_iff_pairwise_ne, List.pairwise_map]
  exact hp.unlike.imp fun hunlike heq => hunlike (Monomial.isLike_iff_signature.mpr heq)

/-- **What is collected stays as it is.** -/
theorem IsNormal.ofTerms_terms (hp : p.IsNormal) : ofTerms p.terms = p := by
  have hnonzero : p.terms.filter (·.coefficient != 0) = p.terms :=
    List.filter_eq_self.mpr fun t ht => by simp [bne, hp.nonzero t ht]
  rw [ofTerms, foldl_insert_eq_grouping, Grouping.foldl_insert_of_nodup hp.nodup_signatures,
    List.nil_append, hnonzero]

/-- Constants have the same powers, namely none. -/
theorem IsNormal.length_constants_le (hp : p.IsNormal) :
    (p.terms.filter (·.isConstant)).length ≤ 1 := by
  have hreplicate : (p.terms.filter (·.isConstant)).map (·.signature) =
      List.replicate (p.terms.filter (·.isConstant)).length 0 := by
    rw [List.eq_replicate_iff]
    refine ⟨List.length_map _, ?_⟩
    intro powers hpowers
    obtain ⟨t, ht, rfl⟩ := List.mem_map.mp hpowers
    exact Monomial.signature_eq_zero (List.mem_filter.mp ht).2
  have hnodup : ((p.terms.filter (·.isConstant)).map (·.signature)).Nodup :=
    hp.nodup_signatures.sublist (List.filter_sublist.map _)
  rw [hreplicate] at hnodup
  exact List.nodup_replicate.mp hnodup

/-- **A polynomial is its groups.**

Whatever the terms and their coefficients, collecting them gives one term for each multiset of powers
in the order in which these occur first, with the factors of the first term that has it and the sum
of the coefficients from the left, except for sums that are zero; and so does collecting them through
a table of places. Terms that come later join the sum of their group as it then is, also if that is
zero.

A polynomial that comes out of constructors and operations has no two terms with the same powers and
no zero coefficient, collecting its terms once more changes nothing, and at most one of them is
constant. -/
theorem collects_groups :
    (∀ ts : List (Monomial Float),
      (ofTerms ts).terms = (groups ts).filter (·.coefficient != 0) ∧
      ofTermsByTable ts = ofTerms ts ∧
      ∀ us : List (Monomial Float), ∀ g ∈ groups ts,
        let sum := (groupCoefficients us g.signature).foldl (· + ·) g.coefficient
        (sum == 0) = false → ⟨sum, g.factors⟩ ∈ (ofTerms (ts ++ us)).terms) ∧
    ∀ p : Polynomial Float, (Expression.poly (.scalar p)).Constructed →
      (p.terms.map (·.signature)).Nodup ∧ (∀ t ∈ p.terms, (t.coefficient == 0) = false) ∧
      ofTerms p.terms = p ∧ (p.terms.filter (·.isConstant)).length ≤ 1 := by
  refine ⟨fun ts => ⟨terms_ofTerms ts, ofTermsByTable_eq ts, ?_⟩, fun p hp => ?_⟩
  · intro us g hg sum hsum
    rw [terms_ofTerms]
    exact List.mem_filter.mpr ⟨mem_groups_append hg us, by simp [bne, hsum]⟩
  · have hnormal : p.IsNormal := Expression.isNormal_poly_scalar.mp (hp.isNormal (by decide))
    exact ⟨hnormal.nodup_signatures, hnormal.nonzero, hnormal.ofTerms_terms,
      hnormal.length_constants_le⟩

/-- The terms `x * y - y * x`, which cancel, and `2 * y * x` after them. -/
theorem collects_groups_cancelled :
    let x : Factor := ⟨⟨⟨1⟩, .unbounded, .integer⟩, 1⟩
    let y : Factor := ⟨⟨⟨2⟩, .unbounded, .integer⟩, 1⟩
    let ts : List (Monomial Float) := [⟨1, [x, y]⟩, ⟨-1, [y, x]⟩]
    let p : Polynomial Float := ofTerms (ts ++ [⟨2, [y, x]⟩])
    (ofTerms ts).terms = [] ∧ ⟨(1 + -1) + 2, [x, y]⟩ ∈ p.terms ∧ ofTerms p.terms = p := by
  intro x y ts p
  have hgroups : groups ts = [⟨1 + -1, [x, y]⟩] := by rfl
  have hp : (Expression.poly (.scalar p)).Constructed := .polynomial fun t ht => by
    simp only [ts, List.cons_append, List.nil_append, List.mem_cons, List.not_mem_nil, or_false] at ht
    rcases ht with rfl | rfl | rfl
    · exact .monomial (show Monomial.ofFactors? 1 [x, y] = some _ from rfl)
    · exact .monomial (show Monomial.ofFactors? (-1) [y, x] = some _ from rfl)
    · exact .monomial (show Monomial.ofFactors? 2 [y, x] = some _ from rfl)
  obtain ⟨hcollected, -, hlater⟩ := collects_groups.1 ts
  refine ⟨?_, ?_, (collects_groups.2 p hp).2.2.1⟩
  · rw [hcollected, hgroups]
    exact List.filter_cons_of_neg (by decide +kernel)
  · exact hlater [⟨2, [y, x]⟩] ⟨1 + -1, [x, y]⟩ (hgroups ▸ List.mem_cons_self) (by decide +kernel)

end Polynomial

end AlgebraicModel
