import Mathlib.Algebra.Order.Field.Power
import Mathlib.Algebra.Order.Round
import Mathlib.Data.Rat.Cast.Order
import Mathlib.Data.Rat.Floor
import Mathlib.Tactic.Linarith
import Mathlib.Tactic.NormNum
import Mathlib.Tactic.Positivity
import Mathlib.Tactic.Ring

/-!
# Rounding half up

The nearest integer, where a number halfway between two goes to the one of greater magnitude.
Rounding to some decimal places first and to an integer then is not the same: a number just below
a tie may be rounded to the tie, and a number with more digits than places before the point loses
some of them.
-/

namespace ExprLang

/-- The integer is a nearest one, and the one away from zero of two that are equally near. -/
structure IsHalfUp (x : ℚ) (n : Int) : Prop where
  near : |x - n| ≤ 1 / 2
  tie : |x - n| = 1 / 2 → |x| < |(n : ℚ)|

/-- The nearest integer, a half going away from zero. -/
def halfUp (x : ℚ) : Int := if x < 0 then -round (-x) else round x

section Nearest

variable {x y : ℚ} {n : Int}

theorem halfUp_of_nonneg (h : 0 ≤ x) : halfUp x = round x := if_neg (not_lt.mpr h)

theorem halfUp_neg (x : ℚ) : halfUp (-x) = -halfUp x := by
  unfold halfUp
  rcases lt_trichotomy x 0 with h | rfl | h
  · rw [if_pos h, if_neg (by linarith), neg_neg]
  · simp
  · rw [if_pos (by linarith), if_neg (by linarith), neg_neg]

theorem halfUp_intCast (n : Int) : halfUp n = n := by
  unfold halfUp
  split
  · rw [← Int.cast_neg, round_intCast, neg_neg]
  · rw [round_intCast]

theorem isHalfUp_neg_iff : IsHalfUp (-x) (-n) ↔ IsHalfUp x n := by
  have hdistance : |(-x) - ((-n : Int) : ℚ)| = |x - n| := by
    rw [Int.cast_neg, ← abs_neg]
    congr 1
    ring
  constructor
  · rintro ⟨hnear, htie⟩
    rw [hdistance] at hnear htie
    rw [abs_neg, Int.cast_neg, abs_neg] at htie
    exact ⟨hnear, htie⟩
  · rintro ⟨hnear, htie⟩
    constructor
    · rw [hdistance]
      exact hnear
    · rw [hdistance, abs_neg, Int.cast_neg, abs_neg]
      exact htie

theorem isHalfUp_iff_of_nonneg (hx : 0 ≤ x) : IsHalfUp x n ↔ round x = n := by
  rw [round_eq_iff, Set.mem_Ico]
  constructor
  · rintro ⟨hnear, htie⟩
    rw [abs_le] at hnear
    have hlow : (n : ℚ) - 1 / 2 ≤ x := by linarith
    have hhigh : x - n ≠ 1 / 2 := by
      intro heq
      -- A number that is a half above `n` is itself of greater magnitude.
      have hn : (0 : ℚ) ≤ n := by
        have hnear' : (-1 : ℚ) < n := by linarith
        exact_mod_cast Int.lt_iff_add_one_le.mp (by exact_mod_cast hnear' : (-1 : Int) < n)
      have hlt := htie (by rw [heq, abs_of_pos (by norm_num)])
      rw [abs_of_nonneg hx, abs_of_nonneg hn] at hlt
      linarith
    have hlt := lt_of_le_of_ne hnear.2 hhigh
    exact ⟨hlow, by linarith⟩
  · rintro ⟨hlow, hhigh⟩
    constructor
    · exact abs_le.mpr ⟨by linarith, by linarith⟩
    · intro htie
      have heq : x - n = -(1 / 2) := by
        rcases abs_eq_abs.mp (htie.trans (abs_of_pos (by norm_num)).symm) with heq | heq
        · linarith
        · exact heq
      rw [abs_of_nonneg hx, abs_of_nonneg (by linarith)]
      linarith

/-- There is one integer that a number is rounded to. -/
theorem isHalfUp_iff : IsHalfUp x n ↔ halfUp x = n := by
  rcases le_or_gt 0 x with hx | hx
  · rw [halfUp_of_nonneg hx, isHalfUp_iff_of_nonneg hx]
  · have hneg : 0 ≤ -x := by linarith
    rw [← isHalfUp_neg_iff, isHalfUp_iff_of_nonneg hneg, halfUp, if_pos hx, neg_eq_iff_eq_neg]

end Nearest

/-!
## Decimal places
-/

section Shift

variable (x : ℚ) (j k : Int)

theorem mul_zpow_mul_zpow : x * 10 ^ j * 10 ^ k = x * 10 ^ (j + k) := by
  rw [mul_assoc, ← zpow_add₀ (by norm_num)]

theorem mul_zpow_mul_zpow_neg : x * 10 ^ k * 10 ^ (-k) = x := by
  rw [mul_zpow_mul_zpow, add_neg_cancel, zpow_zero, mul_one]

theorem mul_zpow_neg_mul_zpow : x * 10 ^ (-k) * 10 ^ k = x := by
  rw [mul_zpow_mul_zpow, neg_add_cancel, zpow_zero, mul_one]

end Shift

/-!
## Rounding twice
-/

/-- The number to the nearest multiple of a power of ten, which is the unit of a decimal place. -/
def atPlaces (places : Int) (x : ℚ) : ℚ := halfUp (x * 10 ^ places) * 10 ^ (-places)

/-- What comes between rounding to decimal places first and rounding to an integer at once.  With
places after the point it is a tie that the number lies below by at most half a unit of the last
place.  Otherwise it is a digit of the integer before that unit. -/
def IsMisrounded (places : Int) (x : ℚ) : Prop :=
  if 0 < places then ∃ n : Nat, (n : ℚ) + 1 / 2 - 10 ^ (-places) / 2 ≤ |x| ∧ |x| < n + 1 / 2
  else ¬ (10 : Int) ^ (-places).toNat ∣ halfUp x

section Twice

variable {places : Int} {x : ℚ}

/-- A number that ends before the place is not rounded there. -/
theorem atPlaces_of_eq_intCast {n : Int} (h : x * 10 ^ places = n) : atPlaces places x = x := by
  rw [atPlaces, h, halfUp_intCast, ← h, mul_zpow_mul_zpow_neg]

/-- Powers of ten end at the place of their exponent. -/
theorem atPlaces_zpow {scale : Int} (h : scale ≤ places) :
    atPlaces places (10 ^ (-scale)) = 10 ^ (-scale) := by
  apply atPlaces_of_eq_intCast (n := 10 ^ (places - scale).toNat)
  rw [← zpow_add₀ (by norm_num), neg_add_eq_sub, Int.cast_pow, Int.cast_ofNat, ← zpow_natCast,
    Int.toNat_of_nonneg (by lia)]

theorem atPlaces_mul_zpow (places scale : Int) (x : ℚ) :
    atPlaces places x * 10 ^ scale = atPlaces (places - scale) (x * 10 ^ scale) := by
  unfold atPlaces
  rw [mul_zpow_mul_zpow, mul_zpow_mul_zpow, add_sub_cancel, neg_sub, sub_eq_neg_add]

theorem atPlaces_neg (places : Int) (x : ℚ) : atPlaces places (-x) = -atPlaces places x := by
  unfold atPlaces
  rw [neg_mul, halfUp_neg, Int.cast_neg, neg_mul]

theorem isMisrounded_neg_iff : IsMisrounded places (-x) ↔ IsMisrounded places x := by
  unfold IsMisrounded
  rw [abs_neg, halfUp_neg, dvd_neg]

theorem atPlaces_nonneg (hx : 0 ≤ x) : 0 ≤ atPlaces places x := by
  unfold atPlaces
  have hscaled : 0 ≤ x * 10 ^ places := by positivity
  rw [halfUp_of_nonneg hscaled, round_eq]
  have hfloor : 0 ≤ ⌊x * 10 ^ places + 1 / 2⌋ := Int.floor_nonneg.mpr (by positivity)
  have hcast : (0 : ℚ) ≤ ⌊x * 10 ^ places + 1 / 2⌋ := by exact_mod_cast hfloor
  positivity

/-- A number is rounded to a multiple of the unit of a place, or beyond it, if and only if it lies
at most half a unit below it. -/
theorem le_atPlaces_iff (hx : 0 ≤ x) (m : Int) :
    m * 10 ^ (-places) ≤ atPlaces places x ↔ m * 10 ^ (-places) - 10 ^ (-places) / 2 ≤ x := by
  have hunit : (0 : ℚ) < 10 ^ (-places) := by positivity
  have hscaled : 0 ≤ x * 10 ^ places := by positivity
  unfold atPlaces
  rw [mul_le_mul_iff_of_pos_right hunit, Int.cast_le, halfUp_of_nonneg hscaled, round_eq,
    Int.le_floor, ← mul_le_mul_iff_of_pos_right hunit, add_mul, mul_zpow_mul_zpow_neg]
  constructor <;> intro h <;> linarith

/-- A number is rounded up past an integer from the tie on. -/
theorem lt_round_iff (n : Int) : n < round x ↔ (n : ℚ) + 1 / 2 ≤ x := by
  rw [round_eq, Int.lt_iff_add_one_le, Int.le_floor, Int.cast_add, Int.cast_one,
    ← sub_le_iff_le_add, add_sub_assoc, sub_half]

/-- A tie is a multiple of the unit of every place after the point. -/
theorem exists_tie_eq (hplaces : 0 < places) (n : Int) :
    ∃ m : Int, (n : ℚ) + 1 / 2 = m * 10 ^ (-places) := by
  rcases Int.eq_succ_of_zero_lt hplaces with ⟨k, rfl⟩
  have hpow : (10 : ℚ) ^ k * 10 ^ (-((k : Int) + 1)) = 1 / 10 := by
    rw [← zpow_natCast, ← zpow_add₀ (by norm_num), neg_add, add_neg_cancel_left, zpow_neg_one,
      one_div]
  refine ⟨(2 * n + 1) * 5 * 10 ^ k, ?_⟩
  push_cast
  rw [mul_assoc _ ((10 : ℚ) ^ k), hpow]
  ring

/-- After rounding to places after the point, a number is rounded up past an integer already from
half a unit of the last place below the tie on. -/
theorem lt_round_atPlaces_iff (hplaces : 0 < places) (hx : 0 ≤ x) (n : Int) :
    n < round (atPlaces places x) ↔ (n : ℚ) + 1 / 2 - 10 ^ (-places) / 2 ≤ x := by
  rcases exists_tie_eq hplaces n with ⟨m, hm⟩
  rw [lt_round_iff, hm, le_atPlaces_iff hx]

/-- Two roundings differ where one of them passes an integer that the other does not pass. -/
theorem round_atPlaces_iff_of_pos (hplaces : 0 < places) (hx : 0 ≤ x) :
    round (atPlaces places x) = round x ↔
      ¬ ∃ n : Nat, (n : ℚ) + 1 / 2 - 10 ^ (-places) / 2 ≤ x ∧ x < n + 1 / 2 := by
  have hunit : (0 : ℚ) < 10 ^ (-places) := by positivity
  constructor
  · rintro heq ⟨n, hlow, hhigh⟩
    have hpassed := (lt_round_atPlaces_iff hplaces hx n).mpr hlow
    rw [heq, lt_round_iff] at hpassed
    exact absurd hpassed (not_le.mpr hhigh)
  · intro hnone
    have hle : round x ≤ round (atPlaces places x) := by
      refine Int.le_of_sub_one_lt ((lt_round_atPlaces_iff hplaces hx _).mpr ?_)
      have htie := (lt_round_iff (x := x) (round x - 1)).mp (sub_one_lt _)
      linarith
    refine le_antisymm (Int.not_lt.mp fun hlt => hnone ?_) hle
    have hlow := (lt_round_atPlaces_iff hplaces hx _).mp hlt
    have hhigh := mt (lt_round_iff (x := x) (round x)).mpr (lt_irrefl _)
    have hround : 0 ≤ round x := by
      rw [round_eq]
      exact Int.floor_nonneg.mpr (by positivity)
    lift round x to Nat using hround with n
    exact ⟨n, hlow, lt_of_not_ge hhigh⟩

/-- Without places after the point a rounded number is an integer with zeros at its end. -/
theorem round_atPlaces_iff_of_nonpos (hplaces : places ≤ 0) (hx : 0 ≤ x) :
    round (atPlaces places x) = round x ↔ (10 : Int) ^ (-places).toNat ∣ round x := by
  rcases Int.eq_ofNat_of_zero_le (Int.neg_nonneg_of_nonpos hplaces) with ⟨k, hk⟩
  have hzeros : atPlaces places x = (round (x * 10 ^ places) * 10 ^ k : Int) := by
    have hscaled : 0 ≤ x * 10 ^ places := by positivity
    rw [atPlaces, halfUp_of_nonneg hscaled, hk, zpow_natCast]
    push_cast
    rfl
  rw [hzeros, round_intCast, hk, Int.toNat_natCast]
  constructor
  · intro heq
    exact Dvd.intro_left _ heq
  · rintro ⟨q, hq⟩
    have hpow : (1 : ℚ) ≤ 10 ^ k := one_le_pow₀ (by norm_num)
    have hscale : x * 10 ^ places = x / 10 ^ k := by
      rw [← neg_neg places, hk, zpow_neg, zpow_natCast, div_eq_mul_inv]
    have hquotient : round (x * 10 ^ places) = q := by
      have hround := round_eq_iff.mp hq
      push_cast [Set.mem_Ico] at hround
      rw [round_eq_iff, Set.mem_Ico, hscale, le_div_iff₀ (by positivity),
        div_lt_iff₀ (by positivity), sub_mul, add_mul]
      constructor <;> linarith
    rw [hquotient, hq, mul_comm]

theorem round_atPlaces_iff (hx : 0 ≤ x) :
    round (atPlaces places x) = round x ↔ ¬ IsMisrounded places x := by
  unfold IsMisrounded
  rw [abs_of_nonneg hx, halfUp_of_nonneg hx]
  split
  · rename_i hplaces
    exact round_atPlaces_iff_of_pos hplaces hx
  · rename_i hplaces
    rw [not_not]
    exact round_atPlaces_iff_of_nonpos (not_lt.mp hplaces) hx

/-- Rounding to some places and then to an integer is rounding at once unless one of the two things
comes between. -/
theorem halfUp_atPlaces_iff : halfUp (atPlaces places x) = halfUp x ↔ ¬ IsMisrounded places x := by
  rcases le_or_gt 0 x with hx | hx
  · rw [halfUp_of_nonneg hx, halfUp_of_nonneg (atPlaces_nonneg hx), round_atPlaces_iff hx]
  · have hneg : 0 ≤ -x := by linarith
    rw [← isMisrounded_neg_iff, ← round_atPlaces_iff hneg, ← halfUp_of_nonneg hneg,
      ← halfUp_of_nonneg (atPlaces_nonneg hneg), atPlaces_neg, halfUp_neg, halfUp_neg, neg_inj]

/-- A fraction is not just below a tie if its denominator is smaller than the number of units in
one. -/
theorem not_isMisrounded_of_lt {num den : Nat} (hden : 0 < den) (hx : |x| = num / den)
    (hplaces : (den : ℚ) < 10 ^ places) : ¬ IsMisrounded places x := by
  have hdenQ : (1 : ℚ) ≤ den := Nat.one_le_cast.mpr hden
  have hpos : 0 < places := by
    rw [← zpow_lt_zpow_iff_right₀ (show (1 : ℚ) < 10 by norm_num), zpow_zero]
    exact hdenQ.trans_lt hplaces
  unfold IsMisrounded
  rw [if_pos hpos, hx]
  rintro ⟨n, hlow, hhigh⟩
  rw [div_lt_iff₀ (by positivity)] at hhigh
  have hapart : (2 * num + 1 : ℚ) ≤ (2 * n + 1) * den := by
    have hlt : (2 * num : ℚ) < (2 * n + 1) * den := by linarith
    exact_mod_cast hlt
  have hunit : (10 : ℚ) ^ (-places) * den < 1 := by
    rw [zpow_neg, inv_mul_lt_iff₀ (by positivity), mul_one]
    exact hplaces
  rw [le_div_iff₀ (by positivity)] at hlow
  linarith

end Twice
end ExprLang
