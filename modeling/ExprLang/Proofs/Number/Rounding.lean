import Mathlib.Tactic.FieldSimp
import Mathlib.Tactic.Ring
import ExprLang.Proofs.Number.Logarithm

/-!
# Rounding to a number

Every ratio in the rounding interval of a finite number rounds to that number.  Values are
measured in units of the smallest positive number of the format.
-/

namespace ExprLang

/-!
## Rounding to an integer
-/

theorem roundQuotient_eq {num den q : Nat} (hden : 0 < den)
    (hlow : (q : ℚ) - 1 / 2 ≤ (num : ℚ) / den) (hhigh : (num : ℚ) / den ≤ q + 1 / 2)
    (htie : q % 2 = 0 ∨ ((q : ℚ) - 1 / 2 < (num : ℚ) / den ∧ (num : ℚ) / den < q + 1 / 2)) :
    roundQuotient num den = q := by
  have hdenQ : (0 : ℚ) < den := Nat.cast_pos.mpr hden
  have hlowNat : 2 * (q * den) ≤ 2 * num + den := by
    rw [le_div_iff₀ hdenQ] at hlow
    have hcast : (2 * (q * den) : ℚ) ≤ 2 * num + den := by linarith
    exact_mod_cast hcast
  have hhighNat : 2 * num ≤ 2 * (q * den) + den := by
    rw [div_le_iff₀ hdenQ] at hhigh
    have hcast : (2 * num : ℚ) ≤ 2 * (q * den) + den := by linarith
    exact_mod_cast hcast
  have htieNat : q % 2 = 0 ∨ (2 * (q * den) < 2 * num + den ∧ 2 * num < 2 * (q * den) + den) := by
    rcases htie with heven | ⟨hlt, hgt⟩
    · exact Or.inl heven
    · rw [lt_div_iff₀ hdenQ] at hlt
      rw [div_lt_iff₀ hdenQ] at hgt
      have hltCast : (2 * (q * den) : ℚ) < 2 * num + den := by linarith
      have hgtCast : (2 * num : ℚ) < 2 * (q * den) + den := by linarith
      exact Or.inr ⟨by exact_mod_cast hltCast, by exact_mod_cast hgtCast⟩
  have hdivision := Nat.div_add_mod num den
  have hremainder := Nat.mod_lt num hden
  unfold roundQuotient
  dsimp only
  generalize num / den = quotient at hdivision
  generalize num % den = remainder at hdivision hremainder
  -- The number is the quotient or the one after it.
  have hcases : q = quotient ∨ q = quotient + 1 := by
    have hupper : q < quotient + 2 := by
      by_contra hge
      have hmul : (quotient + 2) * den ≤ q * den := Nat.mul_le_mul_right den (by lia)
      nlinarith
    have hlower : quotient < q + 1 := by
      by_contra hge
      have hmul : (q + 1) * den ≤ quotient * den := Nat.mul_le_mul_right den (by lia)
      nlinarith
    lia
  rcases hcases with rfl | rfl
  · have hproduct : q * den = den * q := Nat.mul_comm q den
    split
    · rfl
    · split <;> lia
  · have hproduct : (quotient + 1) * den = den * quotient + den := by ring
    split
    · lia
    · split <;> lia

theorem roundQuotient_mul (num den : Nat) {c : Nat} (hc : 0 < c) :
    roundQuotient (num * c) (den * c) = roundQuotient num den := by
  have hlt (a b : Nat) : a * c < b * c ↔ a < b := Nat.mul_lt_mul_right hc
  unfold roundQuotient
  dsimp only
  rw [Nat.mul_div_mul_right num den hc, Nat.mul_mod_mul_right, ← Nat.mul_assoc]
  simp only [hlt]

/-!
## Rounding to a magnitude
-/

section Magnitude

variable {f : BinaryFormat} {num den : Nat}

/-- A ratio in units of the smallest positive number. -/
def BinaryFormat.inUnits (f : BinaryFormat) (num den : Nat) : ℚ :=
  (num : ℚ) / den * 2 ^ f.unitShift

/-- A ratio is rounded to a multiple of a power of two, which is the unit of its binade, or one
for the numbers below all binades. -/
theorem magnitudeOfRatio_eq_of_binade (hf : 0 < f.precision) (hnum : 0 < num) (hden : 0 < den)
    {step : Nat} (hlow : step = 0 ∨ (2 : ℚ) ^ (step + f.precision - 1) ≤ f.inUnits num den)
    (hhigh : f.inUnits num den < 2 ^ (step + f.precision)) :
    f.magnitudeOfRatio num den =
      min (step * f.binade + roundQuotient (num * 2 ^ f.unitShift) (den * 2 ^ step))
        f.infinityBits := by
  have hratio : (0 : ℚ) < (num : ℚ) / den := by positivity
  have hpow (k : Int) : (2 : ℚ) ^ k * 2 ^ f.unitShift = 2 ^ (k + f.unitShift) := by
    rw [← zpow_natCast, ← zpow_add₀ two_ne_zero]
  have hunit : (0 : ℚ) < 2 ^ f.unitShift := by positivity
  have hlogLow : (2 : ℚ) ^ Int.log 2 ((num : ℚ) / den) ≤ (num : ℚ) / den :=
    Int.zpow_log_le_self one_lt_two hratio
  have hlogHigh : (num : ℚ) / den < 2 ^ (Int.log 2 ((num : ℚ) / den) + 1) :=
    Int.lt_zpow_succ_log_self one_lt_two ((num : ℚ) / den)
  generalize hlog : Int.log 2 ((num : ℚ) / den) = log at hlogLow hlogHigh
  -- The logarithm of the ratio tells the binade.
  have hupper : log + f.unitShift < (step : Int) + f.precision := by
    refine (zpow_lt_zpow_iff_right₀ (one_lt_two (α := ℚ))).mp ?_
    calc (2 : ℚ) ^ (log + f.unitShift) = 2 ^ log * 2 ^ f.unitShift := (hpow log).symm
      _ ≤ f.inUnits num den := mul_le_mul_of_nonneg_right hlogLow hunit.le
      _ < 2 ^ (step + f.precision) := hhigh
      _ = 2 ^ ((step : Int) + f.precision) := by rw [← Nat.cast_add, zpow_natCast]
  have hlower : step = 0 ∨ (step : Int) + f.precision - 1 ≤ log + f.unitShift := by
    rcases hlow with hzero | hlow
    · exact Or.inl hzero
    · have hlt : ((step + f.precision - 1 : Nat) : Int) < log + 1 + f.unitShift := by
        refine (zpow_lt_zpow_iff_right₀ (one_lt_two (α := ℚ))).mp ?_
        calc (2 : ℚ) ^ ((step + f.precision - 1 : Nat) : Int)
            = 2 ^ (step + f.precision - 1) := zpow_natCast 2 _
          _ ≤ f.inUnits num den := hlow
          _ < 2 ^ (log + 1) * 2 ^ f.unitShift := mul_lt_mul_of_pos_right hlogHigh hunit
          _ = 2 ^ (log + 1 + f.unitShift) := hpow (log + 1)
      exact Or.inr (by lia)
  have hexponent : max (-(f.unitShift : Int)) (log - (f.precision - 1 : Nat)) =
      step - f.unitShift := by
    lia
  have hsteps : ((step : Int) - f.unitShift - -(f.unitShift : Int)).toNat = step := by lia
  have hscaled : roundQuotient (num * Nat.pow 2 (-((step : Int) - f.unitShift)).toNat)
      (den * Nat.pow 2 ((step : Int) - f.unitShift).toNat) =
      roundQuotient (num * 2 ^ f.unitShift) (den * 2 ^ step) := by
    have hmul (n k : Nat) : n * Nat.pow 2 k * 2 ^ min step f.unitShift =
        n * 2 ^ (k + min step f.unitShift) := by
      rw [Nat.pow_eq, Nat.mul_assoc, ← Nat.pow_add]
    have hnumerator : (-((step : Int) - f.unitShift)).toNat + min step f.unitShift =
        f.unitShift := by
      lia
    have hdenominator : ((step : Int) - f.unitShift).toNat + min step f.unitShift = step := by
      lia
    rw [← roundQuotient_mul _ _ (Nat.two_pow_pos (min step f.unitShift)), hmul, hmul, hnumerator,
      hdenominator]
  unfold BinaryFormat.magnitudeOfRatio
  rw [if_neg (Nat.ne_of_gt hnum), floorLog2Ratio_eq hnum hden, hlog]
  dsimp only
  rw [hexponent, hsteps, hscaled]

/-- The same for a ratio near an integral number of units of its binade. -/
theorem magnitudeOfRatio_eq (hf : 0 < f.precision) (hnum : 0 < num) (hden : 0 < den)
    (step q : Nat) (hlow : step = 0 ∨ (f.binade : ℚ) ≤ f.inUnits num den / 2 ^ step)
    (hhigh : f.inUnits num den / 2 ^ step < 2 * f.binade)
    (hbelow : (q : ℚ) - 1 / 2 ≤ f.inUnits num den / 2 ^ step)
    (habove : f.inUnits num den / 2 ^ step ≤ q + 1 / 2)
    (htie : q % 2 = 0 ∨ ((q : ℚ) - 1 / 2 < f.inUnits num den / 2 ^ step ∧
      f.inUnits num den / 2 ^ step < q + 1 / 2)) :
    f.magnitudeOfRatio num den = min (step * f.binade + q) f.infinityBits := by
  have hpos : (0 : ℚ) < 2 ^ step := by positivity
  have hbinade : (2 : ℚ) ^ (f.precision - 1) = f.binade := by
    unfold BinaryFormat.binade
    rw [Nat.pow_eq]
    push_cast
    rfl
  have hbottom : (2 : ℚ) ^ (step + f.precision - 1) = f.binade * 2 ^ step := by
    rw [Nat.add_sub_assoc hf, pow_add, hbinade, mul_comm]
  have htop : (2 : ℚ) ^ (step + f.precision) = 2 * f.binade * 2 ^ step := by
    have hsucc : step + f.precision = step + f.precision - 1 + 1 := by lia
    rw [hsucc, pow_succ, hbottom]
    ring
  have hratio : ((num * 2 ^ f.unitShift : Nat) : ℚ) / ((den * 2 ^ step : Nat) : ℚ) =
      f.inUnits num den / 2 ^ step := by
    unfold BinaryFormat.inUnits
    push_cast
    field_simp
  have hrounded : roundQuotient (num * 2 ^ f.unitShift) (den * 2 ^ step) = q := by
    refine roundQuotient_eq (by positivity) ?_ ?_ ?_
    · rw [hratio]
      exact hbelow
    · rw [hratio]
      exact habove
    · rw [hratio]
      exact htie
  rw [magnitudeOfRatio_eq_of_binade hf hnum hden ?_ ?_, hrounded]
  · rcases hlow with hzero | hlow
    · exact Or.inl hzero
    · rw [hbottom, ← le_div_iff₀ hpos]
      exact Or.inr hlow
  · rw [htop, ← div_lt_iff₀ hpos]
    exact hhigh

end Magnitude

namespace Binary

variable {f : BinaryFormat} {x : Binary f}

/-!
## Significands
-/

/-- The step between a finite number and the next greater one. -/
def step (x : Binary f) : Nat := 2 ^ (x.magnitude / f.binade - 1)

/-- A finite number in steps. -/
def significand (x : Binary f) : Nat :=
  if x.magnitude / f.binade = 0 then x.magnitude % f.binade
  else f.binade + x.magnitude % f.binade

/-- Whether the next smaller number is only half a step away. -/
def atFoot (x : Binary f) : Bool :=
  x.magnitude % f.binade = 0 && 1 < x.magnitude / f.binade

theorem scaledAbs_eq (x : Binary f) : x.scaledAbs = x.significand * x.step := by
  unfold scaledAbs significand step
  dsimp only
  split
  · rename_i hzero
    rw [hzero, Nat.pow_zero, Nat.mul_one]
  · rfl

theorem midpoints_eq (x : Binary f) : x.midpoints =
    (4 * (x.significand * x.step) - (if x.atFoot then x.step else 2 * x.step),
      4 * (x.significand * x.step) + 2 * x.step,
      decide (x.magnitude % f.binade % 2 = 0)) := by
  unfold midpoints
  rw [scaledAbs_eq]
  rfl

theorem step_pos (x : Binary f) : 0 < x.step := Nat.two_pow_pos _

theorem binade_pos (f : BinaryFormat) : 0 < f.binade := Nat.two_pow_pos _

theorem significand_lt (x : Binary f) : x.significand < 2 * f.binade := by
  have hfraction := Nat.mod_lt x.magnitude (binade_pos f)
  unfold significand
  split <;> lia

theorem significand_mod_two (x : Binary f) (hf : 1 < f.precision) :
    x.significand % 2 = x.magnitude % f.binade % 2 := by
  have hbinade : f.binade % 2 = 0 := by
    have hsucc : f.precision - 1 = f.precision - 2 + 1 := by lia
    unfold BinaryFormat.binade
    rw [Nat.pow_eq, hsucc, Nat.pow_succ]
    lia
  unfold significand
  split <;> lia

/-- The pattern counts the steps of all smaller binades. -/
theorem magnitude_eq (x : Binary f) :
    x.magnitude = (x.magnitude / f.binade - 1) * f.binade + x.significand := by
  have hdivision := Nat.div_add_mod' x.magnitude f.binade
  unfold significand
  split
  · rename_i hzero
    rw [hzero] at hdivision ⊢
    lia
  · rename_i hne
    rcases Nat.exists_eq_succ_of_ne_zero hne with ⟨k, hk⟩
    rw [hk] at hdivision ⊢
    rw [Nat.succ_mul] at hdivision
    rw [Nat.succ_sub_one]
    lia

/-!
## Rounding intervals
-/

/-- The rational is in the rounding interval of the number. -/
structure Rounds (x : Binary f) (y : ℚ) : Prop where
  low : (x.midpoints.1 : ℚ) ≤ 4 * y
  high : 4 * y ≤ x.midpoints.2.1
  closed : x.midpoints.2.2 = true ∨ (x.midpoints.1 : ℚ) < 4 * y ∧ 4 * y < x.midpoints.2.1

/-- In steps, the interval reaches half a step to either side, or a quarter of one down. -/
theorem Rounds.bounds {y : ℚ} (h : x.Rounds y) :
    (x.significand : ℚ) - (if x.atFoot then 1 / 4 else 1 / 2) ≤ y / x.step ∧
      y / x.step ≤ x.significand + 1 / 2 ∧
      (x.magnitude % f.binade % 2 = 0 ∨
        (x.significand : ℚ) - 1 / 2 < y / x.step ∧ y / x.step < x.significand + 1 / 2) := by
  have hstep : (0 : ℚ) < x.step := Nat.cast_pos.mpr x.step_pos
  rcases h with ⟨hlow, hhigh, hclosed⟩
  rw [midpoints_eq] at hlow hhigh hclosed
  dsimp only at hlow hhigh hclosed
  generalize hlowest : 4 * (x.significand * x.step) -
    (if x.atFoot then x.step else 2 * x.step) = lowest at hlow hclosed
  push_cast at hhigh hclosed
  rw [decide_eq_true_eq] at hclosed
  have hhalf : (x.significand : ℚ) * x.step - x.step / 2 ≤ lowest / 4 := by
    have hwidth : 4 * (x.significand * x.step) ≤ lowest + 2 * x.step := by
      split at hlowest <;> lia
    have hwidthQ : (4 * (x.significand * x.step) : ℚ) ≤ lowest + 2 * x.step := by
      exact_mod_cast hwidth
    linarith
  refine ⟨?_, ?_, ?_⟩
  · rw [le_div_iff₀ hstep]
    cases hfoot : x.atFoot with
    | true =>
        rw [hfoot, if_pos rfl] at hlowest
        have hwidth : 4 * (x.significand * x.step) ≤ lowest + x.step := by lia
        have hwidthQ : (4 * (x.significand * x.step) : ℚ) ≤ lowest + x.step := by
          exact_mod_cast hwidth
        rw [if_pos rfl]
        linarith
    | false =>
        rw [if_neg Bool.false_ne_true]
        linarith
  · rw [div_le_iff₀ hstep]
    linarith
  · rcases hclosed with heven | ⟨hlt, hgt⟩
    · exact Or.inl heven
    · rw [lt_div_iff₀ hstep, div_lt_iff₀ hstep]
      exact Or.inr ⟨by linarith, by linarith⟩

theorem cast_step (x : Binary f) : (x.step : ℚ) = 2 ^ (x.magnitude / f.binade - 1) := by
  unfold step
  push_cast
  rfl

theorem le_infinityBits_of_isFinite (hx : x.isFinite) : x.magnitude ≤ f.infinityBits := by
  unfold isFinite at hx
  rw [decide_eq_true_eq] at hx
  exact hx.le

section RoundsBack

variable {num den : Nat}

/-- A ratio that is not below the binade of the number. -/
theorem magnitudeOfRatio_of_rounds_within (hf : 1 < f.precision) (hx : x.isFinite)
    (hnum : 0 < num) (hden : 0 < den) (h : x.Rounds (f.inUnits num den))
    (hwithin : x.magnitude / f.binade - 1 = 0 ∨
      (f.binade : ℚ) ≤ f.inUnits num den / 2 ^ (x.magnitude / f.binade - 1)) :
    f.magnitudeOfRatio num den = x.magnitude := by
  rcases h.bounds with ⟨hlow, hhigh, htie⟩
  rw [cast_step] at hlow hhigh htie
  have hmagnitude := x.magnitude_eq
  have hsignificand : (x.significand : ℚ) + 1 ≤ 2 * f.binade := by
    exact_mod_cast x.significand_lt
  rw [← x.significand_mod_two hf] at htie
  rw [magnitudeOfRatio_eq (by lia) hnum hden _ x.significand hwithin (by linarith) ?_ hhigh htie,
    ← hmagnitude, Nat.min_eq_left (le_infinityBits_of_isFinite hx)]
  split at hlow <;> linarith

/-- A ratio below the binade of the number rounds up to its foot. -/
theorem magnitudeOfRatio_of_rounds_below (hf : 1 < f.precision) (hx : x.isFinite)
    (hnum : 0 < num) (hden : 0 < den) (h : x.Rounds (f.inUnits num den))
    (hone : x.magnitude / f.binade - 1 ≠ 0)
    (hbelow : f.inUnits num den / 2 ^ (x.magnitude / f.binade - 1) < f.binade) :
    f.magnitudeOfRatio num den = x.magnitude := by
  rcases h.bounds with ⟨hlow, -, -⟩
  rw [cast_step] at hlow
  have hbinade : (1 : ℚ) ≤ f.binade := Nat.one_le_cast.mpr (binade_pos f)
  have hsum : x.significand = f.binade + x.magnitude % f.binade := by
    unfold significand
    rw [if_neg (by lia)]
  have hfraction : x.magnitude % f.binade = 0 := by
    have hsmall : (x.magnitude % f.binade : Nat) < (1 : ℚ) := by
      rw [hsum] at hlow
      push_cast at hlow ⊢
      split at hlow <;> linarith
    exact Nat.lt_one_iff.mp (by exact_mod_cast hsmall)
  have hfoot : x.atFoot = true := by
    unfold atFoot
    rw [hfraction]
    simp only [decide_true, Bool.true_and, decide_eq_true_eq]
    lia
  rw [hsum, hfraction, hfoot, if_pos rfl, Nat.add_zero] at hlow
  -- In the binade below, the steps are half as long.
  have hdouble : f.inUnits num den / 2 ^ (x.magnitude / f.binade - 2) =
      2 * (f.inUnits num den / 2 ^ (x.magnitude / f.binade - 1)) := by
    have hsucc : x.magnitude / f.binade - 1 = x.magnitude / f.binade - 2 + 1 := by lia
    rw [hsucc, pow_succ]
    field_simp
  have hpattern : (x.magnitude / f.binade - 2) * f.binade + 2 * f.binade = x.magnitude := by
    have hexponent : x.magnitude / f.binade = x.magnitude / f.binade - 2 + 2 := by lia
    have hdivision := Nat.div_add_mod' x.magnitude f.binade
    rw [hfraction, hexponent, Nat.add_mul] at hdivision
    exact hdivision
  rw [magnitudeOfRatio_eq (by lia) hnum hden (x.magnitude / f.binade - 2) (2 * f.binade)
    (Or.inr ?_) ?_ ?_ ?_ (Or.inl (Nat.mul_mod_right 2 _)), hpattern,
    Nat.min_eq_left (le_infinityBits_of_isFinite hx)]
  all_goals
    rw [hdouble]
    push_cast
    linarith

theorem magnitudeOfRatio_of_rounds (hf : 1 < f.precision) (hx : x.isFinite) (hnum : 0 < num)
    (hden : 0 < den) (h : x.Rounds (f.inUnits num den)) :
    f.magnitudeOfRatio num den = x.magnitude := by
  by_cases hwithin : x.magnitude / f.binade - 1 = 0 ∨
      (f.binade : ℚ) ≤ f.inUnits num den / 2 ^ (x.magnitude / f.binade - 1)
  · exact magnitudeOfRatio_of_rounds_within hf hx hnum hden h hwithin
  · rw [not_or, not_le] at hwithin
    exact magnitudeOfRatio_of_rounds_below hf hx hnum hden h hwithin.1 hwithin.2

end RoundsBack

/-!
## Signs and classes
-/

variable {magnitude : Nat}

theorem infinityBits_lt (hf : 0 < f.precision) : f.infinityBits < 2 ^ (f.width - 1) := by
  have hwidth : f.width - 1 = f.exponentBits + (f.precision - 1) := by
    unfold BinaryFormat.width
    lia
  unfold BinaryFormat.infinityBits BinaryFormat.binade
  simp only [Nat.pow_eq]
  rw [hwidth, pow_add]
  exact Nat.mul_lt_mul_of_pos_right (Nat.sub_one_lt (by positivity)) (by positivity)

theorem toNat_ofMagnitude (hmagnitude : magnitude < 2 ^ (f.width - 1)) :
    (ofMagnitude f false magnitude).bits.toNat = magnitude := by
  have hlt : magnitude < 2 ^ f.width :=
    hmagnitude.trans_le (Nat.pow_le_pow_right (by decide) (by lia))
  rw [ofMagnitude, if_neg Bool.false_ne_true, BitVec.toNat_ofNat, Nat.mod_eq_of_lt hlt]

theorem magnitude_ofMagnitude (hmagnitude : magnitude < 2 ^ (f.width - 1)) :
    (ofMagnitude f false magnitude).magnitude = magnitude := by
  unfold Binary.magnitude
  rw [toNat_ofMagnitude hmagnitude]
  exact Nat.mod_eq_of_lt hmagnitude

theorem isNegative_ofMagnitude (hmagnitude : magnitude < 2 ^ (f.width - 1)) :
    (ofMagnitude f false magnitude).isNegative = false := by
  rw [isNegative, BitVec.msb_eq_decide, toNat_ofMagnitude hmagnitude]
  exact decide_eq_false (by lia)

theorem magnitudeOfRatio_le (f : BinaryFormat) (num den : Nat) :
    f.magnitudeOfRatio num den ≤ f.infinityBits := by
  unfold BinaryFormat.magnitudeOfRatio
  split
  · exact Nat.zero_le _
  · exact Nat.min_le_right _ _

theorem exists_ofDecimal (f : BinaryFormat) (digits : Nat) (exponent : Int) :
    ∃ magnitude ≤ f.infinityBits, ofDecimal f false digits exponent =
      ofMagnitude f false magnitude := by
  unfold ofDecimal
  dsimp only
  split
  · exact ⟨0, Nat.zero_le _, rfl⟩
  · split
    · exact ⟨f.infinityBits, le_rfl, rfl⟩
    · split
      · exact ⟨0, Nat.zero_le _, rfl⟩
      · exact ⟨_, magnitudeOfRatio_le f _ _, rfl⟩

/-- A decimal without a sign is read as a number without one, which is an infinity at most. -/
theorem ofDecimal_isNaN_isNegative (hf : 0 < f.precision) (digits : Nat) (exponent : Int) :
    (ofDecimal f false digits exponent).isNaN = false ∧
      (ofDecimal f false digits exponent).isNegative = false := by
  obtain ⟨magnitude, hle, hread⟩ := exists_ofDecimal f digits exponent
  have hlt : magnitude < 2 ^ (f.width - 1) := hle.trans_lt (infinityBits_lt hf)
  rw [hread, isNaN, magnitude_ofMagnitude hlt]
  exact ⟨decide_eq_false (Nat.not_lt.mpr hle), isNegative_ofMagnitude hlt⟩

end Binary

end ExprLang
