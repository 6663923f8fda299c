import Mathlib
import AlgebraicModel.Scalar.Double

/-!
# Adding and multiplying doubles

Sums and products of doubles do not depend on the order of two operands, and a factor one or a zero
of either sign leaves every other number unchanged. The last two facts are about the bits: a result
is packed again after it was computed, and packing restores the word that a double was unpacked from.
A product is rounded before that, which undoes the shift by the mantissa of one.

## Main definitions

* `NeutralZeros α`: the sums of numbers of which one is zero

## Main results

* `Double.add_comm`, `Double.mul_comm`: operands can be swapped
* `Double.pack_unpack`: a double is restored from its sign, exponent and mantissa
* `Double.one_mul`: one is neutral
* `Double.neutralZeros`: zeros of either sign are neutral
-/

namespace AlgebraicModel

/-- Where there are several zeros, each of them leaves every other number unchanged, and the sum of
two of them is one of them. -/
structure NeutralZeros (α : Type) [Scalar α] : Prop where
  zero : ((0 : α) == 0) = true
  add_left {z c : α} : (z == 0) = true → (c == 0) = false → z + c = c
  add_right {z c : α} : (z == 0) = true → (c == 0) = false → c + z = c
  add_zeros {y z : α} : (y == 0) = true → (z == 0) = true → (y + z == 0) = true

namespace Double

open Float.Model (UnpackedFloat Format totalExponent)
open Float.Model.UnpackedFloat

/-! ## Packing -/

theorem toBitVec_ofBitVec (b : BitVec 1) : (Sign.ofBitVec b).toBitVec = b := by
  unfold Sign.ofBitVec
  split
  · next h => exact h.symm
  · next h => exact ((BitVec.eq_zero_or_eq_one b).resolve_left h).symm

/-- A word is its sign, its exponent and its mantissa. -/
theorem packComponents_unpack (format : Format) (b : BitVec format.numBits) :
    packComponents format (Sign.ofBitVec (unpackSign b)) (unpackExponent b) (unpackMantissa b) =
      b := by
  have hmantissaBits := format.hm
  rw [packComponents, toBitVec_ofBitVec]
  apply BitVec.eq_of_getLsbD_eq
  intro i hi
  simp only [BitVec.getLsbD_append, unpackSign, unpackExponent, unpackMantissa, BitVec.getLsbD_cast,
    BitVec.getLsbD_extractLsb]
  -- A bit belongs to the mantissa, to the exponent or to the sign.
  by_cases hmantissa : i < format.mantissaBitsWithoutImplicit
  · rw [if_pos hmantissa, decide_eq_true (by omega), Bool.true_and, Nat.zero_add]
  · rw [if_neg hmantissa]
    by_cases hexponent : i - format.mantissaBitsWithoutImplicit < format.exponentBits
    · rw [if_pos hexponent, decide_eq_true (by omega), Bool.true_and,
        Nat.add_sub_cancel' (not_lt.mp hmantissa)]
    · rw [if_neg hexponent, decide_eq_true (by omega), Bool.true_and, Nat.sub_sub,
        Nat.add_sub_cancel' (by omega)]

theorem toNat_implicit_append (m : BitVec 52) : (1#1 ++ m).toNat = 2 ^ 52 + m.toNat := by
  rw [BitVec.toNat_append, ← Nat.shiftLeft_add_eq_or_of_lt m.isLt]
  rfl

theorem log2_implicit_append (m : BitVec 52) : (1#1 ++ m).toNat.log2 = 52 := by
  have hlt := m.isLt
  rw [toNat_implicit_append, Nat.log2_eq_iff (by omega)]
  omega

/-- A mantissa without its implicit bit has the least exponent. -/
theorem pack_subnormal (s : Sign) {m : BitVec 52} (hm : 0 < m.toNat) :
    pack .binary64 (.finite s m.toNat (-1074) hm) = packComponents .binary64 s 0#11 m := by
  have hlog : m.toNat.log2 < 52 := (Nat.log2_lt hm.ne').mpr m.isLt
  have hbits : m.toNat.log2 + 1 ≠ Format.binary64.mantissaBits := by
    change _ ≠ 53
    omega
  rw [pack, if_neg (by decide), if_neg hbits, BitVec.ofNat_toNat, BitVec.setWidth_eq]

/-- The implicit bit of a mantissa is left out, and the exponent stored with its bias. -/
theorem pack_normal (s : Sign) {e : BitVec 11} {m : BitVec 52} (h : 0 < (1#1 ++ m).toNat)
    (he : e ≠ -1#11) :
    pack .binary64 (.finite s (1#1 ++ m).toNat (e.toNat - 1075) h) =
      packComponents .binary64 s e m := by
  have hbiased : ((e.toNat : ℤ) - 1075 + Format.binary64.exponentBias +
      Format.binary64.mantissaBitsWithoutImplicit).toNat = e.toNat := by
    change ((e.toNat : ℤ) - 1075 + (1023 : ℕ) + (52 : ℕ)).toNat = e.toNat
    omega
  have hmax : ¬ 2 ^ Format.binary64.exponentBits ≤ e.toNat + 1 := by
    intro hmax
    apply he
    apply BitVec.eq_of_toNat_eq
    exact le_antisymm (Nat.le_pred_of_lt e.isLt) (Nat.pred_le_iff.mpr hmax)
  have hbits : (1#1 ++ m).toNat.log2 + 1 = Format.binary64.mantissaBits := by
    rw [log2_implicit_append]
    rfl
  have hlow : BitVec.ofNat 52 (1#1 ++ m).toNat = m := by
    apply BitVec.eq_of_toNat_eq
    rw [BitVec.toNat_ofNat, toNat_implicit_append, Nat.add_mod_left, Nat.mod_eq_of_lt m.isLt]
  rw [pack, hbiased, if_neg hmax, if_pos hbits, BitVec.ofNat_toNat, BitVec.setWidth_eq, hlow]

/-- Only one word stands for what is not a number; every other word is restored. -/
theorem pack_unpack_of_valid {b : BitVec 64} (h : Format.Valid .binary64 b) :
    pack .binary64 (unpack .binary64 b) = b := by
  have hparts := packComponents_unpack .binary64 b
  rw [unpack]
  dsimp only
  split
  · next hexponent =>
    split
    · next hmantissa =>
      rw [hexponent, hmantissa] at hparts
      exact hparts
    · next hmantissa => exact (h.eq_packedNaN hexponent hmantissa).symm
  · next hmax =>
    split
    · next hexponent =>
      rw [hexponent] at hparts
      split
      · next hmantissa =>
        rw [hmantissa] at hparts
        exact hparts
      · rw [hexponent]
        exact (pack_subnormal _ _).trans hparts
    · exact (pack_normal _ _ hmax).trans hparts

/-- **A double is restored** from its sign, exponent and mantissa. -/
theorem pack_unpack (x : Float) : Float.ofModel (.pack x.toModel.unpack) = x := by
  obtain ⟨bits, hvalid⟩ := x
  apply congrArg Float.ofModel
  simp only [Float.Model.pack, Float.Model.unpack, Float.Model.mk.injEq]
  exact congrArg UInt64.ofBitVec (pack_unpack_of_valid hvalid)

/-! ## Swapped operands -/

theorem sign_mul_comm (s t : Sign) : s * t = t * s := by
  cases s <;> cases t <;> rfl

theorem unpacked_add_comm (format : Format) (x y : UnpackedFloat) :
    add format x y = add format y x := by
  rcases x with s | _ | s | ⟨s, m, d, _⟩ <;> rcases y with t | _ | t | ⟨t, n, e, _⟩ <;> try rfl
  case infinity.infinity | zero.zero => cases s <;> cases t <;> rfl
  case finite.finite => simp only [add, min_comm, Int.add_comm]

theorem unpacked_mul_comm (format : Format) (x y : UnpackedFloat) :
    mul format x y = mul format y x := by
  rcases x with s | _ | s | ⟨s, m, d, _⟩ <;> rcases y with t | _ | t | ⟨t, n, e, _⟩ <;> try rfl
  case finite.finite => simp only [mul, sign_mul_comm s t, Nat.mul_comm m, Int.add_comm d]
  all_goals simp only [mul, sign_mul_comm s t]

protected theorem add_comm (x y : Float) : x + y = y + x := by
  apply congrArg Float.ofModel
  apply congrArg Float.Model.pack
  exact unpacked_add_comm _ _ _

protected theorem mul_comm (x y : Float) : x * y = y * x := by
  apply congrArg Float.ofModel
  apply congrArg Float.Model.pack
  exact unpacked_mul_comm _ _ _

/-! ## One -/

theorem targetExponent_eq (m : ℕ) (e : ℤ) :
    Format.binary64.targetExponent (totalExponent m e) =
      max ((m.log2 : ℤ) + 1 + e - 53) (-1074) := rfl

theorem targetExponent_subnormal {m : BitVec 52} (hm : 0 < m.toNat) :
    Format.binary64.targetExponent (totalExponent m.toNat (-1074)) = -1074 := by
  have hlog : m.toNat.log2 < 52 := (Nat.log2_lt hm.ne').mpr m.isLt
  rw [targetExponent_eq]
  omega

theorem targetExponent_normal {e : BitVec 11} {m : BitVec 52} (he : e ≠ 0#11) :
    Format.binary64.targetExponent (totalExponent (1#1 ++ m).toNat (e.toNat - 1075)) =
      e.toNat - 1075 := by
  have hpos : 0 < e.toNat := Nat.pos_of_ne_zero fun hzero => he (BitVec.eq_of_toNat_eq hzero)
  rw [targetExponent_eq, log2_implicit_append]
  omega

/-- A double has the exponent that rounding gives to a mantissa of its length. -/
theorem targetExponent_unpack {b : BitVec Format.binary64.numBits} {s : Sign} {m : ℕ} {e : ℤ}
    {hm : 0 < m} (h : unpack .binary64 b = .finite s m e hm) :
    Format.binary64.targetExponent (totalExponent m e) = e := by
  rw [unpack] at h
  dsimp only at h
  split at h
  · split at h <;> cases h
  · split at h
    · next hexponent =>
      split at h
      · cases h
      · rw [hexponent] at h
        obtain ⟨-, rfl, rfl⟩ := UnpackedFloat.finite.inj h
        exact targetExponent_subnormal hm
    · next hexponent =>
      obtain ⟨-, rfl, rfl⟩ := UnpackedFloat.finite.inj h
      exact targetExponent_normal hexponent

/-- Bits that are not set are shifted out without a trace. -/
theorem repeat_shiftRightOne (n m : ℕ) :
    n.repeat ExtendedMantissa.shiftRightOne ⟨2 ^ n * m, false, false⟩ = ⟨m, false, false⟩ := by
  induction n generalizing m with
  | zero => simp [Nat.repeat]
  | succ n ih =>
    rw [Nat.repeat, pow_succ, mul_assoc, ih]
    simp [ExtendedMantissa.shiftRightOne]

/-- Rounding undoes a shift of the mantissa, if the exponent is the one that it gives. -/
theorem roundWithAccuracy_shifted (s : Sign) {m : ℕ} (n : ℕ) {e : ℤ} (hm : 0 < m)
    (h : Format.binary64.targetExponent (totalExponent m e) = e) :
    roundWithAccuracy .binary64 s (2 ^ n * m) (e - n) .exact = .finite s m e hm := by
  have hlog : (2 ^ n * m).log2 = n + m.log2 := by
    rw [Nat.log2_eq_iff (by positivity), pow_add, add_assoc, pow_add]
    exact ⟨Nat.mul_le_mul_left _ (Nat.log2_self_le hm.ne'),
      Nat.mul_lt_mul_of_pos_left Nat.lt_log2_self (by positivity)⟩
  have htotal : totalExponent (2 ^ n * m) (e - n) = totalExponent m e := by
    unfold totalExponent
    rw [hlog]
    omega
  have hfirst : shiftToTargetExponent .binary64 (2 ^ n * m) (e - n) .exact =
      (⟨m, false, false⟩, e) := by
    have hcount : (e - (e - n)).toNat = n := by omega
    simp only [shiftToTargetExponent, htotal, h, shiftToExponent, hcount]
    exact Prod.ext (repeat_shiftRightOne n m) (sub_add_cancel e n)
  have hsecond : shiftToTargetExponent .binary64 m e .exact = (⟨m, false, false⟩, e) := by
    simp only [shiftToTargetExponent, h, shiftToExponent, sub_self]
    exact Prod.ext rfl (add_zero e)
  have hrounded : (⟨m, false, false⟩ : ExtendedMantissa).roundedMantissa = m := rfl
  simp only [roundWithAccuracy, hfirst, hrounded, hsecond]
  exact dif_neg hm.ne'

protected theorem one_mul (x : Float) : 1 * x = x := by
  have hone : (1 : Float).toModel.unpack = .finite .positive (2 ^ 52) (-52) (by decide) := rfl
  have hmul : mul .binary64 (1 : Float).toModel.unpack x.toModel.unpack = x.toModel.unpack := by
    rw [hone]
    cases hunpack : x.toModel.unpack with
    | notANumber => rfl
    | infinity s | zero s => cases s <;> rfl
    | finite s m e hm =>
      have hround := roundWithAccuracy_shifted s 52 hm (targetExponent_unpack hunpack)
      have hsign : Sign.positive * s = s := by cases s <;> rfl
      rw [mul, hsign, neg_add_eq_sub]
      exact hround
  calc 1 * x = .ofModel (.pack (mul .binary64 (1 : Float).toModel.unpack x.toModel.unpack)) := rfl
    _ = .ofModel (.pack x.toModel.unpack) := by rw [hmul]
    _ = x := pack_unpack x

/-! ## Zeros -/

/-- The zeros are the doubles that unpack to a zero of either sign. -/
theorem beq_zero_iff {x : Float} : (x == 0) = true ↔ ∃ s, x.toModel.unpack = .zero s := by
  change (UnpackedFloat.compare _ (.zero .positive) == some .eq) = true ↔ _
  rcases x.toModel.unpack with (_ | _) | _ | s | ⟨_ | _, m, d, _⟩ <;> simp [UnpackedFloat.compare]

theorem zero_add_of_ne {z c : Float} (hz : (z == 0) = true) (hc : (c == 0) = false) :
    z + c = c := by
  obtain ⟨s, hs⟩ := beq_zero_iff.mp hz
  have hne (t : Sign) : c.toModel.unpack ≠ .zero t := by
    intro ht
    rw [beq_zero_iff.mpr ⟨t, ht⟩] at hc
    cases hc
  have hadd : add .binary64 z.toModel.unpack c.toModel.unpack = c.toModel.unpack := by
    rw [hs]
    cases hunpack : c.toModel.unpack with
    | zero t => exact (hne t hunpack).elim
    | infinity t | notANumber | finite t m e hm => rfl
  calc z + c = .ofModel (.pack (add .binary64 z.toModel.unpack c.toModel.unpack)) := rfl
    _ = .ofModel (.pack c.toModel.unpack) := by rw [hadd]
    _ = c := pack_unpack c

theorem zero_add_zero {y z : Float} (hy : (y == 0) = true) (hz : (z == 0) = true) :
    (y + z == 0) = true := by
  obtain ⟨s, hs⟩ := beq_zero_iff.mp hy
  obtain ⟨t, ht⟩ := beq_zero_iff.mp hz
  have hsum : y + z = .ofModel (.pack (add .binary64 (.zero s) (.zero t))) := by
    rw [← hs, ← ht]
    rfl
  rw [hsum]
  cases s <;> cases t <;> decide

/-- **Zeros of either sign are neutral.** -/
theorem neutralZeros : NeutralZeros Float where
  zero := by decide
  add_left := zero_add_of_ne
  add_right hz hc := (Double.add_comm _ _).trans (zero_add_of_ne hz hc)
  add_zeros := zero_add_zero

end Double

end AlgebraicModel
