import Mathlib.Algebra.Order.Field.Power
import Mathlib.Data.Rat.Cast.Order
import Mathlib.Tactic.NormNum
import Mathlib.Tactic.Ring
import ExprLang.Number.Decimal
import ExprLang.Proofs.Number.Digits

/-!
# Decimals as rational numbers

A decimal is a rational number written at a scale.  Sums, differences, products and remainders
are those of the rational numbers, whatever scale the result is written at; a larger scale only
multiplies the unscaled integer.
-/

namespace ExprLang

/-!
## Remainders
-/

/-- The remainder of a division truncated toward zero: it is zero or has the sign of the
dividend. -/
structure IsRemainder (a b r : ℚ) : Prop where
  quotient : ∃ q : ℤ, a - r = q * b
  nonneg : 0 ≤ a → 0 ≤ r
  nonpos : a ≤ 0 → r ≤ 0
  abs_lt : |r| < |b|

namespace IsRemainder

theorem mul_right {a b r : ℚ} (h : IsRemainder a b r) {c : ℚ} (hc : 0 < c) :
    IsRemainder (a * c) (b * c) (r * c) where
  quotient := by
    obtain ⟨q, hq⟩ := h.quotient
    exact ⟨q, by rw [← sub_mul, hq, mul_assoc]⟩
  nonneg hac := mul_nonneg (h.nonneg (nonneg_of_mul_nonneg_left hac hc)) hc.le
  nonpos hac := mul_nonpos_of_nonpos_of_nonneg (h.nonpos (nonpos_of_mul_nonpos_left hac hc)) hc.le
  abs_lt := by
    rw [abs_mul, abs_mul]
    exact mul_lt_mul_of_pos_right h.abs_lt (abs_pos.mpr hc.ne')

theorem tmod (a : Int) {b : Int} (hb : b ≠ 0) : IsRemainder a b (a.tmod b : Int) where
  quotient := by
    refine ⟨a.tdiv b, ?_⟩
    rw [Int.tmod_def]
    push_cast
    ring
  nonneg ha := Int.cast_nonneg_iff.mpr (Int.tmod_nonneg b (Int.cast_nonneg_iff.mp ha))
  nonpos ha := by
    have hneg := Int.tmod_nonneg b (Int.neg_nonneg_of_nonpos (Int.cast_nonpos.mp ha))
    rw [Int.neg_tmod] at hneg
    exact Int.cast_nonpos.mpr (Int.nonpos_of_neg_nonneg hneg)
  abs_lt := by
    rw [← Int.cast_abs, ← Int.cast_abs, Int.cast_lt, Int.abs_eq_natAbs, Int.abs_eq_natAbs,
      Int.natAbs_tmod]
    exact Int.ofNat_lt.mpr (Nat.mod_lt _ (Int.natAbs_pos.mpr hb))

end IsRemainder

namespace Decimal

/-- The number that a decimal is. -/
def toRat (d : Decimal) : ℚ := d.unscaled * 10 ^ (-d.scale)

variable {a b d : Decimal} {scale : Int}

/-!
## Scales
-/

theorem toRat_eq_unscaledAt (h : d.scale ≤ scale) :
    d.toRat = d.unscaledAt scale * 10 ^ (-scale) := by
  have hpow : (10 : ℚ) ^ (scale - d.scale).toNat * 10 ^ (-scale) = 10 ^ (-d.scale) := by
    rw [← zpow_natCast, ← zpow_add₀ (by norm_num), Int.toNat_of_nonneg (by lia)]
    congr 1
    lia
  rw [toRat, unscaledAt, ← hpow, Nat.pow_eq]
  push_cast
  ring

theorem toRat_ofInt (n : Int) : (ofInt n).toRat = n := by
  simp [toRat, ofInt]

theorem toRat_eq_zero_iff : d.toRat = 0 ↔ d.isZero := by
  have hpow : (10 : ℚ) ^ (-d.scale) ≠ 0 := zpow_ne_zero _ (by norm_num)
  rw [toRat, mul_eq_zero, or_iff_left hpow, Int.cast_eq_zero, isZero, decide_eq_true_eq]

/-!
## Sums and differences
-/

theorem toRat_addZero (x : Decimal) (scale : Int) : (addZero x scale).toRat = x.toRat := by
  have hextra : (0 : Int) ≤ min zeroPadding (max 0 (scale - x.scale)) := by
    unfold zeroPadding
    lia
  exact (toRat_eq_unscaledAt (by lia)).symm

theorem toRat_add (a b : Decimal) : (a.add b).toRat = a.toRat + b.toRat := by
  unfold add
  split
  · rename_i hb
    rw [toRat_addZero, toRat_eq_zero_iff.mpr hb, add_zero]
  · split
    · rename_i ha
      rw [toRat_addZero, toRat_eq_zero_iff.mpr ha, zero_add]
    · rw [toRat_eq_unscaledAt (le_max_left a.scale b.scale),
        toRat_eq_unscaledAt (le_max_right a.scale b.scale), ← add_mul, toRat]
      push_cast
      rfl

theorem toRat_sub (a b : Decimal) : (a.sub b).toRat = a.toRat - b.toRat := by
  rw [toRat_eq_unscaledAt (le_max_left a.scale b.scale),
    toRat_eq_unscaledAt (le_max_right a.scale b.scale), ← sub_mul, toRat, sub]
  push_cast
  rfl

/-- Sums of decimals that are not both zero have the same scale, too. -/
theorem add_comm_of_ne_zero (h : a.toRat ≠ 0 ∨ b.toRat ≠ 0) : a.add b = b.add a := by
  have hscale : commonScale a b = commonScale b a := max_comm a.scale b.scale
  rw [Ne, Ne, toRat_eq_zero_iff, toRat_eq_zero_iff] at h
  unfold add
  cases ha : a.isZero <;> cases hb : b.isZero
  · simp [hscale, Int.add_comm]
  · simp
  · simp
  · simp [ha, hb] at h

/-!
## Products
-/

theorem toRat_stripZeros (unscaled scale : Int) (fuel : Nat) :
    (stripZeros unscaled scale fuel).toRat = toRat ⟨unscaled, scale⟩ := by
  induction fuel generalizing unscaled scale with
  | zero => rfl
  | succ fuel ih =>
      rw [stripZeros]
      split
      · rename_i hmod
        rw [ih]
        have hunscaled : (unscaled : ℚ) = (unscaled / 10 : Int) * 10 := by
          exact_mod_cast (Int.ediv_mul_cancel (Int.dvd_of_emod_eq_zero hmod)).symm
        have hpow : (10 : ℚ) ^ (-(scale - 1)) = 10 * 10 ^ (-scale) := by
          rw [← zpow_one_add₀ (by norm_num)]
          congr 1
          lia
        rw [toRat, toRat, hpow, hunscaled]
        push_cast
        ring
      · rfl

theorem toRat_normalized (a : Decimal) : a.normalized.toRat = a.toRat := by
  unfold normalized
  split
  · rename_i ha
    rw [toRat_eq_zero_iff.mpr ha]
    simp [toRat]
  · exact toRat_stripZeros _ _ _

theorem toRat_of_isUnit (ha : a.isUnit) : a.toRat = 1 := by
  simp only [isUnit, Bool.and_eq_true, decide_eq_true_eq] at ha
  obtain ⟨⟨hscale, -⟩, hunscaled⟩ := ha
  have hpow : (10 : ℚ) ^ (-a.scale) = (10 ^ a.scale.toNat)⁻¹ := by
    rw [← zpow_natCast, Int.toNat_of_nonneg hscale, zpow_neg]
  rw [toRat, hunscaled, hpow, Nat.pow_eq, Nat.cast_pow]
  push_cast
  exact mul_inv_cancel₀ (pow_ne_zero _ (by norm_num))

theorem toRat_mul (a b : Decimal) : (a.mul b).toRat = a.toRat * b.toRat := by
  unfold mul
  split
  · rename_i ha
    rw [toRat_normalized, toRat_of_isUnit ha, one_mul]
  · split
    · rename_i hb
      rw [toRat_normalized, toRat_of_isUnit hb, mul_one]
    · rw [toRat, toRat, toRat, neg_add, zpow_add₀ (by norm_num)]
      push_cast
      ring

theorem stripZeros_pow {k fuel : Nat} (h : k ≤ fuel) :
    stripZeros (Nat.pow 10 k) k fuel = ⟨1, 0⟩ := by
  induction fuel generalizing k with
  | zero =>
      cases Nat.le_zero.mp h
      rfl
  | succ fuel ih =>
      cases k with
      | zero => rfl
      | succ k =>
          have hpow : ((Nat.pow 10 (k + 1) : Nat) : Int) = Nat.pow 10 k * 10 := by
            simp [Nat.pow_succ]
          have hmod : ((Nat.pow 10 (k + 1) : Nat) : Int) % 10 = 0 := by lia
          have hdiv : ((Nat.pow 10 (k + 1) : Nat) : Int) / 10 = Nat.pow 10 k := by lia
          have hscale : ((k + 1 : Nat) : Int) - 1 = k := by lia
          rw [stripZeros, if_pos hmod, hdiv, hscale, ih (by lia)]

/-- One is written alike at every scale at which it is recognised. -/
theorem normalized_of_isUnit (ha : a.isUnit) : a.normalized = ⟨1, 0⟩ := by
  have hvalue := toRat_of_isUnit ha
  have hnonzero : a.isZero = false := by
    rw [← Bool.not_eq_true, ← toRat_eq_zero_iff, hvalue]
    exact one_ne_zero
  simp only [isUnit, Bool.and_eq_true, decide_eq_true_eq] at ha
  obtain ⟨⟨hscale, -⟩, hunscaled⟩ := ha
  have hfuel : a.scale.toNat ≤ digitCount (Nat.pow 10 a.scale.toNat) := by
    rw [digitCount, Nat.pow_eq,
      length_natDigits (le_refl _) (Nat.pow_lt_pow_right (by decide) (Nat.lt_succ_self _))]
    exact Nat.le_succ _
  have hstrip := stripZeros_pow hfuel
  rw [Int.toNat_of_nonneg hscale] at hstrip
  rw [normalized, hnonzero, if_neg Bool.false_ne_true, hunscaled, Int.natAbs_natCast, hstrip]

protected theorem mul_comm (a b : Decimal) : a.mul b = b.mul a := by
  unfold mul
  cases ha : a.isUnit <;> cases hb : b.isUnit
  · simp [Int.mul_comm, Int.add_comm]
  · simp
  · simp
  · simp [normalized_of_isUnit ha, normalized_of_isUnit hb]

/-!
## Remainders
-/

theorem isRemainder_rem (hb : b.toRat ≠ 0) : IsRemainder a.toRat b.toRat (a.rem b).toRat := by
  have hpow : (0 : ℚ) < 10 ^ (-commonScale a b) := zpow_pos (by norm_num) _
  have hdivisor : b.unscaledAt (commonScale a b) ≠ 0 := by
    intro hzero
    rw [toRat_eq_unscaledAt (le_max_right a.scale b.scale)] at hb
    exact hb (by rw [show max a.scale b.scale = commonScale a b from rfl, hzero]; simp)
  rw [toRat_eq_unscaledAt (le_max_left a.scale b.scale),
    toRat_eq_unscaledAt (le_max_right a.scale b.scale)]
  exact (IsRemainder.tmod _ hdivisor).mul_right hpow

end Decimal
end ExprLang
