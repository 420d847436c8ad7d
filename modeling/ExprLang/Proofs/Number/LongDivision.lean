import ExprLang.Proofs.Number.Decimal
import ExprLang.Proofs.Number.HalfUp
import ExprLang.Proofs.Number.Logarithm

/-!
# Long division and change of scale

The digits of a quotient and a decimal that is brought to a smaller scale are both roundings half
up of a rational number to a decimal place.
-/

namespace ExprLang

namespace Decimal

variable {a b d : Decimal} {scale : Int}

/-!
## A number brought to a scale
-/

theorem roundHalfUp_eq {places : Nat} (hplaces : places ≠ 0) (magnitude : Nat) :
    (roundHalfUp magnitude places : Int) = round ((magnitude : ℚ) / 10 ^ places) := by
  rcases dvd_pow (show 2 ∣ 10 by norm_num) hplaces with ⟨half, hhalf⟩
  have hcast : (10 : ℚ) ^ places = 2 * half := by exact_mod_cast hhalf
  have hpos : (0 : ℚ) < 10 ^ places := by positivity
  have hsum : (magnitude : ℚ) / 10 ^ places + 1 / 2 =
      (magnitude + half : Nat) / (10 ^ places : Nat) := by
    push_cast
    rw [div_add' _ _ _ hpos.ne', hcast]
    ring
  rw [round_eq, hsum, Rat.floor_natCast_div_natCast, roundHalfUp, Nat.pow_eq, hhalf,
    Nat.mul_div_cancel_left half two_pos, Int.natCast_div]

/-- The sign of an integer is that of its fractions. -/
theorem halfUp_intCast_div (n : Int) (places : Nat) :
    halfUp ((n : ℚ) / 10 ^ places) =
      if n < 0 then -round ((n.natAbs : ℚ) / 10 ^ places)
      else round ((n.natAbs : ℚ) / 10 ^ places) := by
  have hpos : (0 : ℚ) < 10 ^ places := by positivity
  have hsign : (n : ℚ) / 10 ^ places < 0 ↔ n < 0 := by
    rw [div_lt_iff₀ hpos, zero_mul, Int.cast_lt_zero]
  simp only [halfUp, hsign]
  split
  · rename_i hneg
    rw [Nat.cast_natAbs, abs_of_neg hneg, Int.cast_neg, neg_div]
  · rename_i hnonneg
    rw [Nat.cast_natAbs, abs_of_nonneg (not_lt.mp hnonneg)]

/-- A decimal at another scale is its value, rounded half up there. -/
theorem withScale_eq (d : Decimal) (scale : Int) :
    d.withScale scale = ⟨halfUp (d.toRat * 10 ^ scale), scale⟩ := by
  unfold withScale
  split
  · rename_i hle
    rw [toRat_eq_unscaledAt hle, mul_zpow_neg_mul_zpow, halfUp_intCast]
  · rename_i hlt
    have hplaces : (d.scale - scale).toNat ≠ 0 := by lia
    have hvalue : d.toRat * 10 ^ scale = d.unscaled / 10 ^ (d.scale - scale).toNat := by
      rw [toRat, mul_zpow_mul_zpow, div_eq_mul_inv, ← zpow_natCast, ← zpow_neg,
        Int.toNat_of_nonneg (by lia), neg_sub, neg_add_eq_sub]
    dsimp only
    rw [roundHalfUp_eq hplaces, hvalue, halfUp_intCast_div]

/-!
## Long division
-/

theorem cast_div_add_mod_div {den : Nat} (hden : den ≠ 0) (num : Nat) :
    ((num / den : Nat) : ℚ) + (num % den : Nat) / den = num / den := by
  have hdivisor : (den : ℚ) ≠ 0 := Nat.cast_ne_zero.mpr hden
  have hdivision : (den : ℚ) * (num / den : Nat) + (num % den : Nat) = num := by
    exact_mod_cast Nat.div_add_mod num den
  rw [eq_div_iff hdivisor, add_mul, div_mul_cancel₀ _ hdivisor, mul_comm, hdivision]

/-- The next digit decides how an integer and a proper fraction are rounded. -/
theorem round_add_div {remainder den : Nat} (hremainder : remainder < den) (quotient : Nat) :
    round ((quotient : ℚ) + remainder / den) =
      (if 5 ≤ remainder * 10 / den then quotient + 1 else quotient : Nat) := by
  have hden : (0 : ℚ) < den := Nat.cast_pos.mpr (Nat.zero_lt_of_lt hremainder)
  have hproper : (remainder : ℚ) / den < 1 := by
    rw [div_lt_one hden]
    exact_mod_cast hremainder
  have hfraction : 0 ≤ (remainder : ℚ) / den := by positivity
  have hhalf : 5 ≤ remainder * 10 / den ↔ (1 : ℚ) / 2 ≤ remainder / den := by
    rw [Nat.le_div_iff_mul_le (Nat.zero_lt_of_lt hremainder), div_le_div_iff₀ two_pos hden]
    norm_cast
    lia
  rw [round_eq_iff, Set.mem_Ico]
  simp only [hhalf]
  split
  · push_cast
    constructor <;> linarith
  · push_cast
    constructor <;> linarith

/-- A long division rounds the number that it begins with where its digits end. -/
theorem toRat_longDivision {remainder den : Nat} (hremainder : remainder < den)
    (quotient : Nat) (scale : Int) (fuel : Nat) :
    toRat ⟨(longDivision quotient remainder den scale fuel).1,
        (longDivision quotient remainder den scale fuel).2⟩ =
      atPlaces (scale + fuel) ((quotient + (remainder : ℚ) / den) * 10 ^ (-scale)) := by
  have hden : (0 : ℚ) < den := Nat.cast_pos.mpr (Nat.zero_lt_of_lt hremainder)
  induction fuel generalizing quotient remainder scale with
  | zero =>
      have hnonneg : 0 ≤ (quotient : ℚ) + remainder / den := by positivity
      rw [Nat.cast_zero, add_zero, atPlaces, mul_zpow_neg_mul_zpow, halfUp_of_nonneg hnonneg,
        round_add_div hremainder]
      rfl
  | succ fuel ih =>
      rw [longDivision]
      split
      · rename_i hexact
        rw [hexact, Nat.cast_zero, zero_div, add_zero]
        symm
        apply atPlaces_of_eq_intCast (n := quotient * 10 ^ (fuel + 1))
        rw [mul_zpow_mul_zpow, neg_add_cancel_left, zpow_natCast]
        push_cast
        rfl
      · have hnext : remainder * 10 % den < den := Nat.mod_lt _ (Nat.zero_lt_of_lt hremainder)
        -- Bringing a digit down does not change the number.
        have hstep : ((quotient * 10 + remainder * 10 / den : Nat) : ℚ) +
            (remainder * 10 % den : Nat) / den = (quotient + remainder / den) * 10 := by
          rw [Nat.cast_add, add_assoc, cast_div_add_mod_div (Nat.ne_zero_of_lt hremainder)]
          push_cast
          ring
        have hpow : (10 : ℚ) * 10 ^ (-(scale + 1)) = 10 ^ (-scale) := by
          rw [← zpow_one_add₀ (by norm_num), neg_add_rev, add_neg_cancel_left]
        dsimp only
        rw [ih hnext, add_right_comm scale 1, add_assoc scale, ← Nat.cast_succ, hstep, mul_assoc,
          hpow]

theorem alignNumerator_spec {num den fuel : Nat} (hfuel : den ≤ num * 10 ^ fuel) (scale : Int) :
    ∃ k : Nat, alignNumerator num den scale fuel = (num * 10 ^ k, scale + k) ∧
      den ≤ num * 10 ^ k ∧ (k = 0 ∨ num * 10 ^ k < den * 10) := by
  induction fuel generalizing num scale with
  | zero => exact ⟨0, by simp [alignNumerator], by simpa using hfuel, Or.inl rfl⟩
  | succ fuel ih =>
      rw [alignNumerator]
      split
      · rename_i hlt
        have hnext : den ≤ num * 10 * 10 ^ fuel := by
          rw [mul_assoc, ← Nat.pow_succ']
          exact hfuel
        rcases ih hnext (scale + 1) with ⟨k, halign, hreached, hnear⟩
        rw [mul_assoc, ← Nat.pow_succ'] at halign hreached hnear
        refine ⟨k + 1, ?_, hreached, Or.inr ?_⟩
        · rw [halign, add_assoc, Nat.cast_succ, add_comm 1]
        · rcases hnear with rfl | hnear
          · rw [zero_add, Nat.pow_one]
            exact Nat.mul_lt_mul_of_pos_right hlt (by decide)
          · exact hnear
      · rename_i hge
        exact ⟨0, by simp, by simpa using Nat.not_lt.mp hge, Or.inl rfl⟩

theorem digitCount_eq {n : Nat} (hn : n ≠ 0) : digitCount n = Nat.log 10 n + 1 :=
  length_natDigits (Nat.pow_log_le_self 10 hn) (Nat.lt_pow_succ_log_self (by decide) n)

/-- A quotient has as many digits as its logarithm says. -/
theorem digitCount_div {num den : Nat} (hden : 0 < den) (hreached : den ≤ num) :
    (digitCount (num / den) : Int) = Int.log 10 ((num : ℚ) / den) + 1 := by
  have hone : (1 : ℚ) ≤ (num : ℚ) / den := by
    rw [one_le_div (Nat.cast_pos.mpr hden)]
    exact_mod_cast hreached
  rw [digitCount_eq (Nat.div_pos hreached hden).ne', Int.log_of_one_le_right 10 hone,
    Rat.natFloor_natCast_div_natCast, Nat.cast_succ]

/-- A quotient of magnitudes is rounded at the last of its digits, and not before its own place. -/
theorem toRat_divideMagnitudes {num den : Nat} (hnum : 0 < num) (hden : 0 < den) (scale : Int) :
    toRat ⟨(divideMagnitudes num den scale).1, (divideMagnitudes num den scale).2⟩ =
      atPlaces (max scale (quotientDigits - 1 - Int.log 10 ((num : ℚ) / den * 10 ^ (-scale))))
        ((num : ℚ) / den * 10 ^ (-scale)) := by
  have hratio : (0 : ℚ) < (num : ℚ) / den := by positivity
  have hfuel : den ≤ num * 10 ^ digitCount den := by
    have hlt : den < 10 ^ digitCount den := by
      rw [digitCount_eq hden.ne']
      exact Nat.lt_pow_succ_log_self (by decide) den
    exact hlt.le.trans (Nat.le_mul_of_pos_left _ hnum)
  rcases alignNumerator_spec hfuel scale with ⟨k, halign, hreached, hnear⟩
  have haligned : ((num * 10 ^ k : Nat) : ℚ) / den = (num : ℚ) / den * 10 ^ (k : Int) := by
    rw [zpow_natCast, div_mul_eq_mul_div]
    norm_cast
  have hvalue : (num : ℚ) / den * 10 ^ (k : Int) * 10 ^ (-(scale + k)) =
      (num : ℚ) / den * 10 ^ (-scale) := by
    rw [mul_zpow_mul_zpow, neg_add_rev, add_neg_cancel_left]
  have hdigits := digitCount_div hden hreached
  have hlog := log_mul_zpow hratio (-scale)
  have hlogAligned := log_mul_zpow hratio k
  rw [haligned, hlogAligned] at hdigits
  unfold divideMagnitudes
  rw [halign]
  dsimp only
  rw [toRat_longDivision (Nat.mod_lt _ hden), cast_div_add_mod_div hden.ne', haligned, hvalue, hlog]
  congr 1
  unfold quotientDigits
  rcases hnear with rfl | hnear
  · lia
  · have hdigit : digitCount (num * 10 ^ k / den) = 1 :=
      length_natDigits (k := 0) (Nat.div_pos hreached hden) (Nat.div_lt_of_lt_mul hnear)
    lia

end Decimal
end ExprLang
