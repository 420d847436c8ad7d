import ExprLang.Operator
import ExprLang.Proofs.Number.LongDivision
import ExprLang.Proofs.Operator.Order

/-!
# Division of decimals

A quotient is rounded twice: where the digits end that it is carried to, and then at the scale of
the dividend.  It is the exact quotient rounded half up unless the first rounding moves it across
a tie, or cuts digits that the scale of the dividend shows.
-/

namespace ExprLang
namespace Decimal

variable {a b : Decimal}

/-!
## The digits of a quotient
-/

/-- The places that a quotient is carried to: as many as the scales of the operands give, or as
many as bring it to the number of digits.  A dividend of zero, and one that is divided by one, stays
as it is. -/
def carriedScale (a b : Decimal) : Int :=
  if a.toRat = 0 ∨ b.toRat = 1 then a.scale
  else max (a.scale - b.scale) (quotientDigits - 1 - Int.log 10 |a.toRat / b.toRat|)

theorem toRat_neg_iff : a.toRat < 0 ↔ a.unscaled < 0 := by
  rw [toRat, ← div_inv_eq_mul, div_lt_iff₀ (by positivity), zero_mul, Int.cast_lt_zero]

theorem abs_toRat (a : Decimal) : |a.toRat| = a.unscaled.natAbs * 10 ^ (-a.scale) := by
  have hpow : (0 : ℚ) < 10 ^ (-a.scale) := by positivity
  rw [toRat, abs_mul, abs_of_pos hpow, Nat.cast_natAbs, Int.cast_abs]

theorem abs_toRat_div (a b : Decimal) :
    |a.toRat / b.toRat| =
      (a.unscaled.natAbs : ℚ) / b.unscaled.natAbs * 10 ^ (-(a.scale - b.scale)) := by
  rw [abs_div, abs_toRat, abs_toRat, mul_div_mul_comm, ← zpow_sub₀ (by norm_num), neg_sub_neg,
    neg_sub]

/-- The quotient is negative if the signs of the operands differ. -/
theorem toRat_div_eq_ite (a b : Decimal) :
    a.toRat / b.toRat =
      if (a.unscaled < 0) = (b.unscaled < 0) then |a.toRat / b.toRat|
      else -|a.toRat / b.toRat| := by
  split
  · rename_i hsame
    rw [eq_iff_iff, ← toRat_neg_iff, ← toRat_neg_iff] at hsame
    rcases lt_or_ge a.toRat 0 with ha | ha
    · rw [abs_of_nonneg (div_nonneg_of_nonpos ha.le (hsame.mp ha).le)]
    · rw [abs_of_nonneg (div_nonneg ha (not_lt.mp (mt hsame.mpr (not_lt.mpr ha))))]
  · rename_i hdiffer
    rw [eq_iff_iff, ← toRat_neg_iff, ← toRat_neg_iff, not_iff, not_lt] at hdiffer
    rcases le_or_gt 0 a.toRat with ha | ha
    · rw [abs_of_nonpos (div_nonpos_of_nonneg_of_nonpos ha (hdiffer.mp ha).le), neg_neg]
    · have hb := not_lt.mp (mt hdiffer.mpr (not_le.mpr ha))
      rw [abs_of_nonpos (div_nonpos_of_nonpos_of_nonneg ha.le hb), neg_neg]

theorem unscaled_ne_zero (ha : a.toRat ≠ 0) : a.unscaled ≠ 0 := by
  rw [Ne, toRat_eq_zero_iff, isZero, decide_eq_true_eq] at ha
  exact ha

/-- A quotient of two decimals with one unscaled integer is a power of ten. -/
theorem toRat_div_of_unscaled_eq (hb : b.toRat ≠ 0) (hsame : a.unscaled = b.unscaled) :
    a.toRat / b.toRat = 10 ^ (-(a.scale - b.scale)) := by
  have hunscaled : (b.unscaled : ℚ) ≠ 0 := Int.cast_ne_zero.mpr (unscaled_ne_zero hb)
  rw [toRat, toRat, hsame, mul_div_mul_left _ _ hunscaled, ← zpow_sub₀ (by norm_num), neg_sub_neg,
    neg_sub]

theorem atPlaces_scale (a : Decimal) : atPlaces a.scale a.toRat = a.toRat := by
  apply atPlaces_of_eq_intCast (n := a.unscaled)
  rw [toRat, mul_zpow_neg_mul_zpow]

/-- A quotient is the exact one, rounded half up where its digits end. -/
theorem toRat_quotient (hb : b.toRat ≠ 0) :
    (quotient a b).toRat = atPlaces (carriedScale a b) (a.toRat / b.toRat) := by
  have htrivial_iff : (a.isZero || b.equals (ofInt 1)) = true ↔ a.toRat = 0 ∨ b.toRat = 1 := by
    rw [Bool.or_eq_true, toRat_eq_zero_iff, equals_eq_decide, decide_eq_true_eq, toRat_ofInt,
      Int.cast_one]
  unfold quotient
  split
  · rename_i htrivial
    rw [htrivial_iff] at htrivial
    have hsame : a.toRat / b.toRat = a.toRat := by
      rcases htrivial with ha | hb
      · rw [ha, zero_div]
      · rw [hb, div_one]
    rw [carriedScale, if_pos htrivial, hsame, atPlaces_scale]
  · rename_i hgeneral
    rw [htrivial_iff] at hgeneral
    rw [carriedScale, if_neg hgeneral]
    rw [not_or] at hgeneral
    split
    · rename_i hsame
      rw [toRat_div_of_unscaled_eq hb hsame, atPlaces_zpow (le_max_left _ _), toRat, Int.cast_one,
        one_mul]
    · have hnum : 0 < a.unscaled.natAbs := Int.natAbs_pos.mpr (unscaled_ne_zero hgeneral.1)
      have hden : 0 < b.unscaled.natAbs := Int.natAbs_pos.mpr (unscaled_ne_zero hb)
      have hmagnitude := toRat_divideMagnitudes hnum hden (a.scale - b.scale)
      rw [← abs_toRat_div] at hmagnitude
      rw [toRat_div_eq_ite a b]
      dsimp only
      split
      · rw [hmagnitude, abs_abs]
      · rw [abs_neg, abs_abs, atPlaces_neg, ← hmagnitude, toRat, toRat, Int.cast_neg, neg_mul]

/-- The quotient at the scale of the dividend is rounded half up twice. -/
theorem div_eq (hb : b.toRat ≠ 0) :
    a.div b = ⟨halfUp (atPlaces (carriedScale a b - a.scale) (a.toRat / b.toRat * 10 ^ a.scale)),
      a.scale⟩ := by
  rw [div, withScale_eq, toRat_quotient hb, atPlaces_mul_zpow]

/-- The first rounding changes the outcome of the second. -/
def Misrounded (a b : Decimal) : Prop :=
  IsMisrounded (carriedScale a b - a.scale) (a.toRat / b.toRat * 10 ^ a.scale)

theorem abs_toRat_div_mul (a b : Decimal) :
    |a.toRat / b.toRat * 10 ^ a.scale| =
      (a.unscaled.natAbs * 10 ^ b.scale.toNat : Nat) /
        (b.unscaled.natAbs * 10 ^ (-b.scale).toNat : Nat) := by
  have hpow : (10 : ℚ) ^ b.scale = 10 ^ b.scale.toNat / 10 ^ (-b.scale).toNat := by
    rw [← zpow_natCast, ← zpow_natCast, ← zpow_sub₀ (by norm_num), Int.toNat_sub_toNat_neg]
  rw [abs_mul, abs_toRat_div, abs_of_pos (zpow_pos (by norm_num) a.scale), mul_zpow_mul_zpow,
    neg_sub, sub_add_cancel, hpow, div_mul_div_comm]
  norm_cast

/-- The places up to a number of digits make a unit that is smaller than one over the denominator
if the numerator has no more digits. -/
theorem den_lt_zpow {x : ℚ} {num den digits : Nat} {scale : Int} (hden : 0 < den) (hx : 0 < x)
    (hfraction : x * 10 ^ scale = num / den) (hshort : num < 10 ^ digits) :
    (den : ℚ) < 10 ^ (digits - Int.log 10 x - scale) := by
  have hlog : (10 : ℚ) ^ Int.log 10 x ≤ x := by
    exact_mod_cast Int.zpow_log_le_self (by decide : 1 < 10) hx
  have hpow : (0 : ℚ) < 10 ^ (Int.log 10 x + scale) := by positivity
  rw [eq_div_iff (by positivity)] at hfraction
  rw [← mul_lt_mul_iff_of_pos_right hpow]
  calc (den : ℚ) * 10 ^ (Int.log 10 x + scale)
      = 10 ^ Int.log 10 x * 10 ^ scale * den := by rw [zpow_add₀ (by norm_num), mul_comm]
    _ ≤ x * 10 ^ scale * den := by gcongr
    _ = num := hfraction
    _ < 10 ^ digits := by exact_mod_cast hshort
    _ = 10 ^ (digits - Int.log 10 x - scale) * 10 ^ (Int.log 10 x + scale) := by
        rw [← zpow_add₀ (by norm_num), sub_sub, sub_add_cancel, zpow_natCast]

/-- The digits of a quotient suffice if the dividend has fewer digits, counted together with the
places of the divisor. -/
theorem not_misrounded (hb : b.toRat ≠ 0)
    (hshort : a.unscaled.natAbs * 10 ^ b.scale.toNat < 10 ^ (quotientDigits - 1)) :
    ¬ Misrounded a b := by
  unfold Misrounded
  by_cases htrivial : a.toRat = 0 ∨ b.toRat = 1
  · rw [carriedScale, if_pos htrivial, sub_self]
    simp [IsMisrounded]
  · have hden : 0 < b.unscaled.natAbs * 10 ^ (-b.scale).toNat :=
      Nat.mul_pos (Int.natAbs_pos.mpr (unscaled_ne_zero hb)) (by positivity)
    have hquotient : 0 < |a.toRat / b.toRat| :=
      abs_pos.mpr (div_ne_zero (not_or.mp htrivial).1 hb)
    have hfraction := abs_toRat_div_mul a b
    apply not_isMisrounded_of_lt hden hfraction
    rw [abs_mul, abs_of_pos (zpow_pos (by norm_num : (0 : ℚ) < 10) a.scale)] at hfraction
    rw [carriedScale, if_neg htrivial]
    exact (den_lt_zpow hden hquotient hfraction hshort).trans_le
      (zpow_le_zpow_right₀ (by norm_num) (sub_le_sub_right (le_max_right _ _) _))

end Decimal

/-!
## The operator
-/

namespace Heap

variable {left right : Value} {a b : Decimal}

theorem applyBinary_div (heap : Heap)
    (hkind : Conversion.forDivision left right = .bigDecimal)
    (ha : heap.toDecimal left = .ok a) (hb : heap.toDecimal right = .ok b) :
    heap.applyBinary .div left right =
      if b.toRat = 0 then .error (.of .divisionByZero) else .ok (.bigDecimal (a.div b)) := by
  have hconversion : Arithmetic.div.conversion left right = .bigDecimal := hkind
  show heap.arithmetic .div left right = _
  rw [arithmetic, hconversion, ha, hb]
  show (if b.isZero then _ else _) = _
  simp only [Decimal.toRat_eq_zero_iff]

/-- Division by zero fails.  Any other quotient has the scale of the dividend, and it is the exact
one rounded half up if and only if its digits before that rounding do not change the outcome, as
they never do for a short dividend. -/
theorem divide_rounds (heap : Heap)
    (hkind : Conversion.forDivision left right = .bigDecimal)
    (ha : heap.toDecimal left = .ok a) (hb : heap.toDecimal right = .ok b) :
    (b.toRat = 0 → heap.applyBinary .div left right = .error (.of .divisionByZero)) ∧
    (b.toRat ≠ 0 → ∃ n : Int,
      heap.applyBinary .div left right = .ok (.bigDecimal ⟨n, a.scale⟩) ∧
      (IsHalfUp (a.toRat / b.toRat * 10 ^ a.scale) n ↔ ¬ a.Misrounded b) ∧
      (a.unscaled.natAbs * 10 ^ b.scale.toNat < 10 ^ (Decimal.quotientDigits - 1) →
        IsHalfUp (a.toRat / b.toRat * 10 ^ a.scale) n)) := by
  rw [applyBinary_div heap hkind ha hb]
  constructor
  · intro hzero
    exact if_pos hzero
  · intro hnonzero
    rw [if_neg hnonzero, Decimal.div_eq hnonzero]
    have hrounded : IsHalfUp (a.toRat / b.toRat * 10 ^ a.scale) (halfUp (atPlaces
        (a.carriedScale b - a.scale) (a.toRat / b.toRat * 10 ^ a.scale))) ↔ ¬ a.Misrounded b := by
      rw [isHalfUp_iff, eq_comm, halfUp_atPlaces_iff]
      rfl
    exact ⟨_, rfl, hrounded, fun hshort => hrounded.mpr (Decimal.not_misrounded hnonzero hshort)⟩

/-- A tie of negative numbers goes away from zero. -/
theorem divide_rounds_tie :
    let heap : Heap := .empty
    let dividend : Value := .bigDecimal ⟨-25, 1⟩
    heap.applyBinary .div dividend (.bigInteger 0) = .error (.of .divisionByZero) ∧
      heap.applyBinary .div dividend (.bigInteger 2) = .ok (.bigDecimal ⟨-13, 1⟩) ∧
      IsHalfUp (Decimal.toRat ⟨-25, 1⟩ / Decimal.toRat (.ofInt 2) * 10 ^ (1 : Int)) (-13) := by
  intro heap dividend
  have hkind (n : Int) : Conversion.forDivision dividend (.bigInteger n) = .bigDecimal := rfl
  have hzero := (divide_rounds heap (hkind 0) rfl rfl).1 (Decimal.toRat_ofInt 0)
  have hnonzero : (Decimal.ofInt 2).toRat ≠ 0 := by
    rw [Decimal.toRat_ofInt]
    norm_num
  rcases (divide_rounds heap (hkind 2) rfl rfl).2 hnonzero with ⟨n, hresult, -, hrounded⟩
  have htie : heap.applyBinary .div dividend (.bigInteger 2) = .ok (.bigDecimal ⟨-13, 1⟩) := by
    decide
  have hn : n = -13 := by
    rw [htie] at hresult
    cases hresult
    rfl
  rw [hn] at hrounded
  exact ⟨hzero, htie, hrounded (by decide)⟩

/-- A number before the tie at a half is carried to the tie and rounded up from there. -/
theorem divide_misrounds :
    let heap : Heap := .empty
    let a : Int := 5 * 10 ^ 100 - 1
    let b : Int := 10 ^ 101
    heap.applyBinary .div (.bigInteger a) (.bigInteger b) = .ok (.bigDecimal ⟨1, 0⟩) ∧
      IsHalfUp ((a : ℚ) / b) 0 ∧ ¬ IsHalfUp ((a : ℚ) / b) 1 := by
  intro heap a b
  have hpos : (0 : ℚ) ≤ (a : ℚ) / b := by norm_num [a, b]
  have hbelow : (a : ℚ) / b < 1 / 2 := by norm_num [a, b]
  have hexact : IsHalfUp ((a : ℚ) / b) 0 := by
    rw [isHalfUp_iff_of_nonneg hpos, round_eq_zero_iff]
    exact ⟨by linarith, hbelow⟩
  refine ⟨by decide +kernel, hexact, ?_⟩
  rw [isHalfUp_iff, isHalfUp_iff.mp hexact]
  decide

end Heap
end ExprLang
