import Mathlib.Algebra.Order.Field.Power
import Mathlib.Data.Int.Log
import Mathlib.Data.Rat.Floor
import Mathlib.Tactic.Linarith
import Mathlib.Tactic.NormNum
import Mathlib.Tactic.Positivity
import ExprLang.Number.Shortest

/-!
# Logarithms of ratios

The exponents of the leading digit of a ratio, in base two and in base ten, are its integral
logarithms.  The one in base ten is found from the one in base two, by an estimate that is good
for ratios within the range of the formats.
-/

namespace ExprLang

variable {num den : Nat}

/-!
## Powers on either side
-/

/-- A power with an exponent of any sign, as a factor of the side where it is integral. -/
theorem mul_pow_le_iff (b : Nat) (hb : 0 < b) (hden : 0 < den) (k : Int) :
    den * Nat.pow b k.toNat ≤ num * Nat.pow b (-k).toNat ↔ (b : ℚ) ^ k ≤ (num : ℚ) / den := by
  have hdenQ : (0 : ℚ) < den := Nat.cast_pos.mpr hden
  have hbQ : (0 : ℚ) < b := Nat.cast_pos.mpr hb
  have hpow : (b : ℚ) ^ k * (b : ℚ) ^ (-k).toNat = (b : ℚ) ^ k.toNat := by
    rw [← zpow_natCast, ← zpow_natCast, ← zpow_add₀ (ne_of_gt hbQ)]
    congr 1
    lia
  have hright : (0 : ℚ) < (b : ℚ) ^ (-k).toNat := pow_pos hbQ _
  have hcast : den * Nat.pow b k.toNat ≤ num * Nat.pow b (-k).toNat ↔
      (den : ℚ) * (b : ℚ) ^ k.toNat ≤ (num : ℚ) * (b : ℚ) ^ (-k).toNat := by
    rw [← Nat.cast_le (α := ℚ)]
    simp only [Nat.pow_eq, Nat.cast_mul, Nat.cast_pow]
  rw [hcast, ← hpow, ← mul_assoc, mul_le_mul_iff_of_pos_right hright, le_div_iff₀ hdenQ, mul_comm]

/-- The least and the greatest power around a number determine its logarithm. -/
theorem log_eq_of_le_of_lt {b : Nat} (hb : 1 < b) {r : ℚ} {k : Int} (hlow : (b : ℚ) ^ k ≤ r)
    (hhigh : r < (b : ℚ) ^ (k + 1)) : Int.log b r = k := by
  have hbQ : (1 : ℚ) < b := Nat.one_lt_cast.mpr hb
  have hr : 0 < r := lt_of_lt_of_le (zpow_pos (by linarith) k) hlow
  have hle : k ≤ Int.log b r := (Int.zpow_le_iff_le_log hb hr).mp hlow
  have hlt : Int.log b r < k + 1 := (Int.lt_zpow_iff_log_lt hb hr).mp hhigh
  lia

/-- Moving the point moves the leading digit. -/
theorem log_mul_zpow {x : ℚ} (hx : 0 < x) (k : Int) :
    Int.log 10 (x * 10 ^ k) = Int.log 10 x + k := by
  have hten : 1 < 10 := by decide
  have hpow : (0 : ℚ) < 10 ^ k := by positivity
  apply log_eq_of_le_of_lt hten
  · rw [Nat.cast_ofNat, zpow_add₀ (by norm_num), mul_le_mul_iff_of_pos_right hpow]
    exact_mod_cast Int.zpow_log_le_self hten hx
  · rw [Nat.cast_ofNat, add_right_comm, zpow_add₀ (by norm_num), mul_lt_mul_iff_of_pos_right hpow]
    exact_mod_cast Int.lt_zpow_succ_log_self hten x

/-!
## Base two
-/

/-- The lengths of numerator and denominator determine the logarithm up to one. -/
theorem log2_bounds (hnum : 0 < num) (hden : 0 < den) :
    (2 : ℚ) ^ ((num.log2 : Int) - den.log2 - 1) ≤ (num : ℚ) / den ∧
      (num : ℚ) / den < (2 : ℚ) ^ ((num.log2 : Int) - den.log2 + 1) := by
  have hdenQ : (0 : ℚ) < den := Nat.cast_pos.mpr hden
  have hnumLow : (2 : ℚ) ^ num.log2 ≤ num := by
    exact_mod_cast Nat.log2_self_le (Nat.ne_of_gt hnum)
  have hnumHigh : (num : ℚ) < 2 ^ (num.log2 + 1) := by
    exact_mod_cast Nat.lt_log2_self
  have hdenLow : (2 : ℚ) ^ den.log2 ≤ den := by
    exact_mod_cast Nat.log2_self_le (Nat.ne_of_gt hden)
  have hdenHigh : (den : ℚ) < 2 ^ (den.log2 + 1) := by
    exact_mod_cast Nat.lt_log2_self
  constructor
  · have hsplit : (2 : ℚ) ^ ((num.log2 : Int) - den.log2 - 1) * 2 ^ (den.log2 + 1) =
        2 ^ num.log2 := by
      rw [← zpow_natCast, ← zpow_natCast, ← zpow_add₀ two_ne_zero]
      congr 1
      push_cast
      lia
    rw [le_div_iff₀ hdenQ]
    calc (2 : ℚ) ^ ((num.log2 : Int) - den.log2 - 1) * den
        ≤ (2 : ℚ) ^ ((num.log2 : Int) - den.log2 - 1) * 2 ^ (den.log2 + 1) := by gcongr
      _ = 2 ^ num.log2 := hsplit
      _ ≤ num := hnumLow
  · have hsplit : (2 : ℚ) ^ ((num.log2 : Int) - den.log2 + 1) * 2 ^ den.log2 =
        2 ^ (num.log2 + 1) := by
      rw [← zpow_natCast, ← zpow_natCast, ← zpow_add₀ two_ne_zero]
      congr 1
      push_cast
      lia
    rw [div_lt_iff₀ hdenQ]
    calc (num : ℚ) < 2 ^ (num.log2 + 1) := hnumHigh
      _ = (2 : ℚ) ^ ((num.log2 : Int) - den.log2 + 1) * 2 ^ den.log2 := hsplit.symm
      _ ≤ (2 : ℚ) ^ ((num.log2 : Int) - den.log2 + 1) * den := by gcongr

theorem floorLog2Ratio_eq (hnum : 0 < num) (hden : 0 < den) :
    floorLog2Ratio num den = Int.log 2 ((num : ℚ) / den) := by
  rcases log2_bounds hnum hden with ⟨hlow, hhigh⟩
  symm
  unfold floorLog2Ratio
  dsimp only
  split
  · rename_i hle
    exact log_eq_of_le_of_lt one_lt_two ((mul_pow_le_iff 2 two_pos hden _).mp hle) hhigh
  · rename_i hlt
    have hnot := mt (mul_pow_le_iff 2 two_pos hden _).mpr hlt
    refine log_eq_of_le_of_lt one_lt_two hlow ?_
    rw [sub_add_cancel]
    exact lt_of_not_ge hnot

/-!
## Base ten
-/

/-- Two fractions close to the logarithm of two, on either side of it, compare powers of two
and of ten. -/
theorem two_zpow_le_ten_zpow {m n : Int} (habove : 28 * m ≤ 93 * n) (hbelow : 59 * m ≤ 196 * n) :
    (2 : ℚ) ^ m ≤ 10 ^ n := by
  rcases le_or_gt 0 m with hm | hm
  · have hbase : (2 : ℚ) ^ (93 : Int) ≤ 10 ^ (28 : Int) := by norm_num
    have hpowers : ((2 : ℚ) ^ m) ^ 93 ≤ (10 ^ n) ^ 93 := by
      calc ((2 : ℚ) ^ m) ^ 93 = (2 ^ (93 : Int)) ^ m := by
            rw [← zpow_natCast, ← zpow_mul, ← zpow_mul, mul_comm]
            rfl
        _ ≤ (10 ^ (28 : Int)) ^ m := zpow_le_zpow_left₀ hm (by positivity) hbase
        _ = 10 ^ (28 * m) := by rw [zpow_mul]
        _ ≤ 10 ^ (93 * n) := zpow_le_zpow_right₀ (by norm_num) habove
        _ = (10 ^ n) ^ 93 := by
            rw [← zpow_natCast, ← zpow_mul, mul_comm]
            rfl
    exact le_of_pow_le_pow_left₀ (by norm_num) (by positivity) hpowers
  · have hbase : (10 : ℚ) ^ (59 : Int) ≤ 2 ^ (196 : Int) := by norm_num
    have hpowers : ((2 : ℚ) ^ m) ^ 196 ≤ (10 ^ n) ^ 196 := by
      calc ((2 : ℚ) ^ m) ^ 196 = (2 ^ (196 : Int)) ^ m := by
            rw [← zpow_natCast, ← zpow_mul, ← zpow_mul, mul_comm]
            rfl
        _ ≤ (10 ^ (59 : Int)) ^ m := by
            have hpositive : ((10 : ℚ) ^ (59 : Int)) ^ (-m) ≤ (2 ^ (196 : Int)) ^ (-m) :=
              zpow_le_zpow_left₀ (by lia) (by positivity) hbase
            rw [zpow_neg, zpow_neg] at hpositive
            exact (inv_le_inv₀ (by positivity) (by positivity)).mp hpositive
        _ = 10 ^ (59 * m) := by rw [zpow_mul]
        _ ≤ 10 ^ (196 * n) := zpow_le_zpow_right₀ (by norm_num) hbelow
        _ = (10 ^ n) ^ 196 := by
            rw [← zpow_natCast, ← zpow_mul, mul_comm]
            rfl
    exact le_of_pow_le_pow_left₀ (by norm_num) (by positivity) hpowers

theorem ten_zpow_le_two_zpow {m n : Int} (habove : 93 * n ≤ 28 * m) (hbelow : 196 * n ≤ 59 * m) :
    (10 : ℚ) ^ n ≤ 2 ^ m := by
  have hinverse : (2 : ℚ) ^ (-m) ≤ 10 ^ (-n) := two_zpow_le_ten_zpow (by lia) (by lia)
  rw [zpow_neg, zpow_neg] at hinverse
  exact (inv_le_inv₀ (by positivity) (by positivity)).mp hinverse

/-- The estimate is off by at most one for ratios of some thousand bits. -/
theorem floorLog10Ratio_eq (hnum : 0 < num) (hden : 0 < den)
    (hsmall : |Int.log 2 ((num : ℚ) / den)| ≤ 10000) :
    Binary.floorLog10Ratio num den = Int.log 10 ((num : ℚ) / den) := by
  have hr : (0 : ℚ) < (num : ℚ) / den := by positivity
  have hlow := Int.zpow_log_le_self one_lt_two hr
  have hhigh := Int.lt_zpow_succ_log_self one_lt_two ((num : ℚ) / den)
  symm
  unfold Binary.floorLog10Ratio
  rw [floorLog2Ratio_eq hnum hden]
  dsimp only
  generalize hlog : Int.log 2 ((num : ℚ) / den) = log at hlow hhigh hsmall
  generalize hestimate : log * 30103 / 100000 = estimate
  rw [abs_le] at hsmall
  have hbelow : (10 : ℚ) ^ (estimate - 1) ≤ (num : ℚ) / den :=
    (ten_zpow_le_two_zpow (by lia) (by lia)).trans hlow
  have habove : (num : ℚ) / den < 10 ^ (estimate + 2) :=
    hhigh.trans_le (two_zpow_le_ten_zpow (by lia) (by lia))
  have hle (k : Int) : den * Nat.pow 10 k.toNat ≤ num * Nat.pow 10 (-k).toNat ↔
      (10 : ℚ) ^ k ≤ (num : ℚ) / den :=
    mul_pow_le_iff 10 (by decide) hden k
  have hten : 1 < 10 := by decide
  split
  · rename_i hnext
    rw [decide_eq_true_eq, hle] at hnext
    refine log_eq_of_le_of_lt hten hnext ?_
    rw [add_assoc]
    exact habove
  · rename_i hnext
    rw [decide_eq_true_eq, hle, not_le] at hnext
    split
    · rename_i hhere
      rw [decide_eq_true_eq, hle] at hhere
      exact log_eq_of_le_of_lt hten hhere hnext
    · rename_i hhere
      rw [decide_eq_true_eq, hle, not_le] at hhere
      refine log_eq_of_le_of_lt hten hbelow ?_
      rw [sub_add_cancel]
      exact hhere

end ExprLang
