import ExprLang.Proofs.Number.Rounding

/-!
# Shortest digits

The shortest digits of a finite 64-bit number are in its rounding interval.  Seventeen digits
always suffice: decimals with that many are less than a step of the format apart.
-/

namespace ExprLang

/-- The place of the last digit. -/
def DecimalDigits.place (d : DecimalDigits) : Int := d.exponent - ((d.count : Int) - 1)

/-- The digits are as many as they are said to be, and no more than seventeen. -/
structure DecimalDigits.Normal (d : DecimalDigits) : Prop where
  count_pos : 0 < d.count
  count_le : d.count ≤ 17
  low : Nat.pow 10 (d.count - 1) ≤ d.digits
  high : d.digits < Nat.pow 10 d.count

namespace Binary

section Format

variable {f : BinaryFormat} {x : Binary f}

/-!
## Positive numbers
-/

theorem significand_pos (hne : x.magnitude ≠ 0) : 0 < x.significand := by
  have hdivision := Nat.div_add_mod x.magnitude f.binade
  have hbinade := binade_pos f
  unfold significand
  split
  · rename_i hzero
    rw [hzero] at hdivision
    lia
  · lia

theorem scaledAbs_pos (hne : x.magnitude ≠ 0) : 0 < x.scaledAbs := by
  rw [scaledAbs_eq]
  exact Nat.mul_pos (significand_pos hne) x.step_pos

/-- Less than half a step from the number, or less than a quarter of one down at the foot of a
binade, is in its rounding interval. -/
theorem Rounds.of_near (hne : x.magnitude ≠ 0) {y : ℚ}
    (hlow : (x.scaledAbs : ℚ) - (if x.atFoot then 1 / 4 else 1 / 2) * x.step < y)
    (hhigh : y < x.scaledAbs + 1 / 2 * x.step) : x.Rounds y := by
  have hlowest : (x.midpoints.1 : ℚ) =
      4 * x.scaledAbs - (if x.atFoot then x.step else 2 * x.step) := by
    have hstep : x.step ≤ x.significand * x.step :=
      Nat.le_mul_of_pos_left x.step (significand_pos hne)
    rw [midpoints_eq, scaledAbs_eq]
    dsimp only
    rw [Nat.cast_sub (by split <;> lia)]
    push_cast
    rfl
  have hhighest : (x.midpoints.2.1 : ℚ) = 4 * x.scaledAbs + 2 * x.step := by
    rw [midpoints_eq, scaledAbs_eq]
    push_cast
    rfl
  have hlt : (x.midpoints.1 : ℚ) < 4 * y := by
    rw [hlowest]
    cases hfoot : x.atFoot with
    | true =>
        rw [hfoot, if_pos rfl] at hlow
        rw [if_pos rfl]
        linarith
    | false =>
        rw [hfoot, if_neg Bool.false_ne_true] at hlow
        rw [if_neg Bool.false_ne_true]
        push_cast
        linarith
  have hgt : 4 * y < x.midpoints.2.1 := by
    rw [hhighest]
    linarith
  exact ⟨hlt.le, hgt.le, Or.inr ⟨hlt, hgt⟩⟩

/-!
## Candidates
-/

theorem unitsInOne_pos (f : BinaryFormat) : 0 < f.unitsInOne := Nat.two_pow_pos _

theorem unitsInOne_eq (f : BinaryFormat) : (f.unitsInOne : ℚ) = 2 ^ f.unitShift := by
  unfold BinaryFormat.unitsInOne
  rw [Nat.pow_eq, Nat.cast_pow]
  rfl

/-- A number of units of a decimal place, in units of the smallest positive number. -/
def decimalUnits (f : BinaryFormat) (place : Int) (d : Nat) : ℚ :=
  d * (10 : ℚ) ^ place * 2 ^ f.unitShift

theorem decimalUnits_succ (f : BinaryFormat) (place : Int) (d : Nat) :
    decimalUnits f place (d + 1) = decimalUnits f place d + decimalUnits f place 1 := by
  unfold decimalUnits
  push_cast
  ring

theorem decimalUnits_mul_pow (f : BinaryFormat) (place : Int) (d k : Nat) :
    decimalUnits f place (d * Nat.pow 10 k) = decimalUnits f (place + k) d := by
  unfold decimalUnits
  rw [Nat.pow_eq, zpow_add₀ (by norm_num), zpow_natCast]
  push_cast
  ring

theorem decimalUnits_pow (f : BinaryFormat) (place : Int) (k : Nat) :
    decimalUnits f place (Nat.pow 10 k) = decimalUnits f (place + k) 1 := by
  rw [← decimalUnits_mul_pow, Nat.one_mul]

theorem decimalUnits_lt_iff {place : Int} {a b : Nat} :
    decimalUnits f place a < decimalUnits f place b ↔ a < b := by
  have hunit : (0 : ℚ) < 10 ^ place * 2 ^ f.unitShift := by positivity
  unfold decimalUnits
  rw [mul_assoc, mul_assoc, mul_lt_mul_iff_of_pos_right hunit, Nat.cast_lt]

/-- Comparing with the ends of an interval on integers. -/
theorem inside_iff {low high n down : Nat} {closed : Bool} {y : ℚ} (hdown : 0 < down)
    (hn : (n : ℚ) = 4 * y * down) :
    (if closed then decide (low * down ≤ n) && decide (n ≤ high * down)
      else decide (low * down < n) && decide (n < high * down)) = true ↔
      ((low : ℚ) ≤ 4 * y ∧ 4 * y ≤ high ∧
        (closed = true ∨ (low : ℚ) < 4 * y ∧ 4 * y < high)) := by
  have hdownQ : (0 : ℚ) < down := Nat.cast_pos.mpr hdown
  have hlow : low * down ≤ n ↔ (low : ℚ) ≤ 4 * y := by
    rw [← Nat.cast_le (α := ℚ), hn, Nat.cast_mul, mul_le_mul_iff_of_pos_right hdownQ]
  have hhigh : n ≤ high * down ↔ 4 * y ≤ high := by
    rw [← Nat.cast_le (α := ℚ), hn, Nat.cast_mul, mul_le_mul_iff_of_pos_right hdownQ]
  have hlowLt : low * down < n ↔ (low : ℚ) < 4 * y := by
    rw [← Nat.cast_lt (α := ℚ), hn, Nat.cast_mul, mul_lt_mul_iff_of_pos_right hdownQ]
  have hhighLt : n < high * down ↔ 4 * y < high := by
    rw [← Nat.cast_lt (α := ℚ), hn, Nat.cast_mul, mul_lt_mul_iff_of_pos_right hdownQ]
  cases closed with
  | true => simp [hlow, hhigh]
  | false =>
      simp only [hlowLt, hhighLt, Bool.false_eq_true, if_false, Bool.and_eq_true, decide_eq_true_eq,
        false_or]
      constructor
      · intro h
        exact ⟨h.1.le, h.2.le, h⟩
      · intro h
        exact h.2.2

/-- The decimal of a place just below a number. -/
def decimalBelow (x : Binary f) (place : Int) : Nat :=
  4 * x.scaledAbs * Nat.pow 10 (-place).toNat / (4 * f.unitsInOne * Nat.pow 10 place.toNat)

theorem decimalUnits_scaled (f : BinaryFormat) (place : Int) (d : Nat) :
    ((d * (4 * f.unitsInOne * Nat.pow 10 place.toNat) : Nat) : ℚ) =
      4 * decimalUnits f place d * (Nat.pow 10 (-place).toNat : Nat) := by
  have hpow : (10 : ℚ) ^ place * 10 ^ (-place).toNat = 10 ^ place.toNat := by
    rw [← zpow_natCast, ← zpow_natCast, ← zpow_add₀ (by norm_num)]
    congr 1
    lia
  unfold decimalUnits
  simp only [Nat.pow_eq]
  push_cast
  rw [← hpow, unitsInOne_eq]
  ring

theorem decimalBelow_bounds (x : Binary f) (place : Int) :
    decimalUnits f place (x.decimalBelow place) ≤ x.scaledAbs ∧
      (x.scaledAbs : ℚ) < decimalUnits f place (x.decimalBelow place + 1) := by
  have hup : 0 < 4 * f.unitsInOne * Nat.pow 10 place.toNat :=
    Nat.mul_pos (Nat.mul_pos (by decide) (unitsInOne_pos f)) (Nat.pow_pos (by decide))
  have hdown : (0 : ℚ) < (Nat.pow 10 (-place).toNat : Nat) := by
    simp only [Nat.pow_eq]
    positivity
  have hle := Nat.div_mul_le_self (4 * x.scaledAbs * Nat.pow 10 (-place).toNat)
    (4 * f.unitsInOne * Nat.pow 10 place.toNat)
  have hlt : 4 * x.scaledAbs * Nat.pow 10 (-place).toNat <
      (x.decimalBelow place + 1) * (4 * f.unitsInOne * Nat.pow 10 place.toNat) := by
    rw [Nat.mul_comm (x.decimalBelow place + 1)]
    exact Nat.lt_mul_div_succ _ hup
  have hleQ : ((x.decimalBelow place * (4 * f.unitsInOne * Nat.pow 10 place.toNat) : Nat) : ℚ) ≤
      (4 * x.scaledAbs * Nat.pow 10 (-place).toNat : Nat) := Nat.cast_le.mpr hle
  have hltQ : ((4 * x.scaledAbs * Nat.pow 10 (-place).toNat : Nat) : ℚ) <
      ((x.decimalBelow place + 1) * (4 * f.unitsInOne * Nat.pow 10 place.toNat) : Nat) :=
    Nat.cast_lt.mpr hlt
  rw [decimalUnits_scaled] at hleQ hltQ
  rw [Nat.cast_mul, Nat.cast_mul] at hleQ hltQ
  have hleScaled := le_of_mul_le_mul_right hleQ hdown
  have hltScaled := lt_of_mul_lt_mul_right hltQ hdown.le
  push_cast at hleScaled hltScaled
  constructor <;> linarith

/-- Whether a decimal of a place is in the rounding interval, decided on integers. -/
def holds (x : Binary f) (place : Int) (d : Nat) : Bool :=
  let n := d * (4 * f.unitsInOne * Nat.pow 10 place.toNat)
  let down := Nat.pow 10 (-place).toNat
  if x.midpoints.2.2 then
    decide (x.midpoints.1 * down ≤ n) && decide (n ≤ x.midpoints.2.1 * down)
  else decide (x.midpoints.1 * down < n) && decide (n < x.midpoints.2.1 * down)

theorem holds_iff {place : Int} {d : Nat} :
    x.holds place d = true ↔ x.Rounds (decimalUnits f place d) := by
  have hdown : 0 < Nat.pow 10 (-place).toNat := Nat.pow_pos (by decide)
  unfold holds
  dsimp only
  rw [inside_iff hdown (decimalUnits_scaled f place d)]
  constructor
  · intro h
    exact ⟨h.1, h.2.1, h.2.2⟩
  · intro h
    exact ⟨h.low, h.high, h.closed⟩

/-- The two decimals next to the number are the candidates. -/
theorem shortestAt_eq_some {exponent : Int} {count d : Nat}
    (h : x.shortestAt exponent count = some d) :
    (d = x.decimalBelow (exponent - ((count : Int) - 1)) ∨
      d = x.decimalBelow (exponent - ((count : Int) - 1)) + 1) ∧
      x.holds (exponent - ((count : Int) - 1)) d = true := by
  unfold shortestAt at h
  dsimp only at h
  split at h
  · rename_i hbelow habove
    split at h
    · cases h
      exact ⟨Or.inl rfl, hbelow⟩
    · cases h
      exact ⟨Or.inr rfl, habove⟩
  · rename_i hbelow _
    cases h
    exact ⟨Or.inl rfl, hbelow⟩
  · rename_i _ habove
    cases h
    exact ⟨Or.inr rfl, habove⟩
  · cases h

theorem shortestAt_eq_none {exponent : Int} {count : Nat}
    (h : x.shortestAt exponent count = none) :
    x.holds (exponent - ((count : Int) - 1))
        (x.decimalBelow (exponent - ((count : Int) - 1))) = false ∧
      x.holds (exponent - ((count : Int) - 1))
        (x.decimalBelow (exponent - ((count : Int) - 1)) + 1) = false := by
  unfold shortestAt at h
  dsimp only at h
  split at h
  · cases h
  · cases h
  · cases h
  · rename_i hbelow habove
    exact ⟨hbelow, habove⟩

/-!
## Search
-/

/-- The search ends at the first count that has a decimal. -/
theorem shortestFrom_spec {exponent : Int} {last : Nat}
    (hlast : x.shortestAt exponent last ≠ none) (count fuel : Nat) (hcount : count ≤ last)
    (hfuel : last < count + fuel) :
    let found := x.shortestFrom exponent count fuel
    x.shortestAt exponent found.2 = some found.1 ∧ count ≤ found.2 ∧ found.2 ≤ last := by
  induction fuel generalizing count with
  | zero => lia
  | succ fuel ih =>
      unfold shortestFrom
      cases hat : x.shortestAt exponent count with
      | some d => exact ⟨hat, Nat.le_refl _, hcount⟩
      | none =>
          have hne : count ≠ last := by
            intro heq
            subst heq
            exact hlast hat
          rcases ih (count + 1) (by lia) (by lia) with ⟨hfound, hfrom, hto⟩
          exact ⟨hfound, by lia, hto⟩

end Format

/-!
## Seventeen digits
-/

section Double

variable {x : Binary64}

theorem binade_double : BinaryFormat.double.binade = 2 ^ 52 := by decide

theorem unitsInOne_double : (BinaryFormat.double.unitsInOne : ℚ) = 2 ^ (1074 : Int) := by
  have hshift : (BinaryFormat.double.unitShift : Int) = 1074 := by decide
  rw [unitsInOne_eq, ← zpow_natCast, hshift]

theorem step_le_of_isFinite (hfinite : x.isFinite) : (x.step : ℚ) ≤ 2 ^ (2045 : Int) := by
  have hinfinity : BinaryFormat.double.infinityBits = 2047 * 2 ^ 52 := by decide
  unfold isFinite at hfinite
  rw [decide_eq_true_eq, hinfinity] at hfinite
  have hexponent : x.magnitude / 2 ^ 52 - 1 ≤ 2045 := by lia
  unfold step
  rw [binade_double, Nat.cast_pow, ← zpow_natCast]
  exact zpow_le_zpow_right₀ one_le_two (by exact_mod_cast hexponent)

/-- The value of a positive finite number, by powers of two. -/
theorem value_bounds (hfinite : x.isFinite) (hne : x.magnitude ≠ 0) :
    (2 : ℚ) ^ (-1074 : Int) ≤ (x.scaledAbs : ℚ) / BinaryFormat.double.unitsInOne ∧
      (x.scaledAbs : ℚ) / BinaryFormat.double.unitsInOne < 2 ^ (1024 : Int) := by
  have hunits : (0 : ℚ) < 2 ^ (1074 : Int) := zpow_pos two_pos _
  rw [unitsInOne_double]
  constructor
  · have hone : (1 : ℚ) ≤ x.scaledAbs := Nat.one_le_cast.mpr (scaledAbs_pos hne)
    rw [zpow_neg, ← one_div]
    exact div_le_div_of_nonneg_right hone hunits.le
  · have hsignificand : (x.significand : ℚ) < 2 ^ (53 : Int) := by
      have hlt := x.significand_lt
      rw [binade_double] at hlt
      exact_mod_cast hlt
    have hstep : (0 : ℚ) < x.step := Nat.cast_pos.mpr x.step_pos
    rw [div_lt_iff₀ hunits, scaledAbs_eq, Nat.cast_mul]
    calc (x.significand : ℚ) * x.step
        < 2 ^ (53 : Int) * x.step := mul_lt_mul_of_pos_right hsignificand hstep
      _ ≤ 2 ^ (53 : Int) * 2 ^ (2045 : Int) :=
          mul_le_mul_of_nonneg_left (step_le_of_isFinite hfinite) (zpow_pos two_pos _).le
      _ = 2 ^ (1024 : Int) * 2 ^ (1074 : Int) := by
          rw [← zpow_add₀ two_ne_zero, ← zpow_add₀ two_ne_zero]
          rfl

/-- The exponent of the first digit, and its range. -/
theorem floorLog10Ratio_scaledAbs (hfinite : x.isFinite) (hne : x.magnitude ≠ 0) {exponent : Int}
    (hexponent : floorLog10Ratio x.scaledAbs BinaryFormat.double.unitsInOne = exponent) :
    (-324 ≤ exponent ∧ exponent ≤ 308) ∧
      decimalUnits .double exponent 1 ≤ x.scaledAbs ∧
      (x.scaledAbs : ℚ) < decimalUnits .double (exponent + 1) 1 := by
  have hunits := unitsInOne_pos .double
  have hunitsQ : (0 : ℚ) < BinaryFormat.double.unitsInOne := Nat.cast_pos.mpr hunits
  have hone (place : Int) : decimalUnits .double place 1 =
      10 ^ place * BinaryFormat.double.unitsInOne := by
    rw [unitsInOne_eq, decimalUnits, Nat.cast_one, one_mul]
  have hbounds := value_bounds hfinite hne
  have hpos : (0 : ℚ) < (x.scaledAbs : ℚ) / BinaryFormat.double.unitsInOne :=
    lt_of_lt_of_le (zpow_pos two_pos _) hbounds.1
  have hlow : -1074 ≤ Int.log 2 ((x.scaledAbs : ℚ) / BinaryFormat.double.unitsInOne) :=
    (Int.zpow_le_iff_le_log one_lt_two hpos).mp hbounds.1
  have hhigh : Int.log 2 ((x.scaledAbs : ℚ) / BinaryFormat.double.unitsInOne) < 1024 :=
    (Int.lt_zpow_iff_log_lt one_lt_two hpos).mp hbounds.2
  rw [floorLog10Ratio_eq (scaledAbs_pos hne) hunits (abs_le.mpr ⟨by lia, by lia⟩)] at hexponent
  have hten : 1 < 10 := by decide
  have hlower : -324 ≤ exponent := by
    rw [← hexponent]
    exact (Int.zpow_le_iff_le_log hten hpos).mp
      ((ten_zpow_le_two_zpow (by lia) (by lia)).trans hbounds.1)
  have hupper : exponent < 309 := by
    rw [← hexponent]
    exact (Int.lt_zpow_iff_log_lt hten hpos).mp
      (hbounds.2.trans_le (two_zpow_le_ten_zpow (by lia) (by lia)))
  refine ⟨⟨hlower, by lia⟩, ?_, ?_⟩
  · rw [hone, ← le_div_iff₀ hunitsQ, ← hexponent]
    exact Int.zpow_log_le_self hten hpos
  · rw [hone, ← div_lt_iff₀ hunitsQ, ← hexponent]
    exact Int.lt_zpow_succ_log_self hten _

/-- Decimals with seventeen digits are less than a step apart, and less than half a step at the
foot of a binade. -/
theorem spacing_lt_step {place : Int}
    (h : decimalUnits .double (place + (16 : Nat)) 1 ≤ x.scaledAbs) :
    decimalUnits .double place 1 < x.step ∧
      (x.atFoot = true → decimalUnits .double place 1 < 1 / 2 * x.step) := by
  have hstep : (0 : ℚ) < x.step := Nat.cast_pos.mpr x.step_pos
  have hspacing : 10 ^ 16 * decimalUnits .double place 1 ≤ x.significand * x.step := by
    have hpow : decimalUnits .double place (Nat.pow 10 16) =
        10 ^ 16 * decimalUnits .double place 1 := by
      unfold decimalUnits
      rw [Nat.pow_eq]
      push_cast
      ring
    rw [← decimalUnits_pow, hpow, scaledAbs_eq, Nat.cast_mul] at h
    exact h
  constructor
  · have hlt : (x.significand : ℚ) < 2 ^ 53 := by
      have hlt := x.significand_lt
      rw [binade_double] at hlt
      exact_mod_cast hlt
    have hsteps : (x.significand : ℚ) * x.step < 2 ^ 53 * x.step :=
      mul_lt_mul_of_pos_right hlt hstep
    linarith
  · intro hfoot
    have hsignificand : x.significand = 2 ^ 52 := by
      unfold atFoot at hfoot
      simp only [Bool.and_eq_true, decide_eq_true_eq] at hfoot
      unfold significand
      rw [if_neg (by lia), hfoot.1, binade_double, Nat.add_zero]
    rw [hsignificand] at hspacing
    push_cast at hspacing
    linarith

theorem shortestAt_seventeen (hne : x.magnitude ≠ 0) {exponent : Int}
    (hexponent : decimalUnits .double exponent 1 ≤ x.scaledAbs) :
    x.shortestAt exponent 17 ≠ none := by
  intro hnone
  have hneither := shortestAt_eq_none hnone
  generalize hplace : exponent - (((17 : Nat) : Int) - 1) = place at hneither
  have hlast : exponent = place + (16 : Nat) := by lia
  rw [hlast] at hexponent
  rcases spacing_lt_step hexponent with ⟨hstep, hhalf⟩
  rcases x.decimalBelow_bounds place with ⟨hlow, hhigh⟩
  rw [decimalUnits_succ] at hhigh
  have hpos : (0 : ℚ) < x.step := Nat.cast_pos.mpr x.step_pos
  have hfar (d : Nat) (h : x.holds place d = false) :
      ¬ x.Rounds (decimalUnits .double place d) := by
    rw [← holds_iff, h]
    exact Bool.false_ne_true
  cases hfoot : x.atFoot with
  | true =>
      have hclose := hhalf hfoot
      refine hfar _ hneither.2 (Rounds.of_near hne ?_ ?_)
      · rw [hfoot, if_pos rfl, decimalUnits_succ]
        linarith
      · rw [decimalUnits_succ]
        linarith
  | false =>
      by_cases hbelow : (x.scaledAbs : ℚ) - 1 / 2 * x.step <
          decimalUnits .double place (x.decimalBelow place)
      · refine hfar _ hneither.1 (Rounds.of_near hne ?_ ?_)
        · rw [hfoot, if_neg Bool.false_ne_true]
          exact hbelow
        · linarith
      · refine hfar _ hneither.2 (Rounds.of_near hne ?_ ?_)
        · rw [hfoot, if_neg Bool.false_ne_true, decimalUnits_succ]
          linarith
        · rw [decimalUnits_succ]
          linarith

/-!
## The shortest digits
-/

/-- The digits found at a count, next to the number. -/
theorem digits_bounds {exponent : Int} {count d : Nat} (hcount : 0 < count)
    (hlow : decimalUnits .double exponent 1 ≤ x.scaledAbs)
    (hhigh : (x.scaledAbs : ℚ) < decimalUnits .double (exponent + 1) 1)
    (hd : d = x.decimalBelow (exponent - ((count : Int) - 1)) ∨
      d = x.decimalBelow (exponent - ((count : Int) - 1)) + 1) :
    Nat.pow 10 (count - 1) ≤ d ∧ d ≤ Nat.pow 10 count := by
  rcases x.decimalBelow_bounds (exponent - ((count : Int) - 1)) with ⟨hbelow, habove⟩
  have hfirst : exponent = exponent - ((count : Int) - 1) + (count - 1 : Nat) := by lia
  have hnext : exponent + 1 = exponent - ((count : Int) - 1) + count := by lia
  rw [hfirst, ← decimalUnits_pow] at hlow
  rw [hnext, ← decimalUnits_pow] at hhigh
  have hlower := decimalUnits_lt_iff.mp (hlow.trans_lt habove)
  have hupper := decimalUnits_lt_iff.mp (hbelow.trans_lt hhigh)
  lia

theorem shortest_spec (hfinite : x.isFinite) (hne : x.magnitude ≠ 0) :
    x.shortest.Normal ∧ (-324 ≤ x.shortest.exponent ∧ x.shortest.exponent ≤ 309) ∧
      x.Rounds (decimalUnits .double x.shortest.place x.shortest.digits) := by
  generalize hexponent : floorLog10Ratio x.scaledAbs BinaryFormat.double.unitsInOne = exponent
  rcases floorLog10Ratio_scaledAbs hfinite hne hexponent with ⟨hrange, hlow, hhigh⟩
  have hsearch := shortestFrom_spec (shortestAt_seventeen hne hlow) 1 17 (by decide) (by decide)
  unfold shortest
  dsimp only
  rw [hexponent]
  generalize x.shortestFrom exponent 1 17 = found at hsearch ⊢
  rcases found with ⟨digits, count⟩
  rcases hsearch with ⟨hat, hcount, hlast⟩
  dsimp only at hat hcount hlast ⊢
  rcases shortestAt_eq_some hat with ⟨hnear, hholds⟩
  have hbounds := digits_bounds hcount hlow hhigh hnear
  have hrounds := holds_iff.mp hholds
  split
  · rename_i hcarry
    refine ⟨⟨Nat.one_pos, ?_, Nat.le_refl 1, ?_⟩, ⟨by lia, by lia⟩, ?_⟩
    · exact Nat.succ_le_succ (Nat.zero_le 16)
    · exact Nat.lt_add_of_pos_left (Nat.succ_pos 8)
    · have hplace : exponent - ((count : Int) - 1) + count = exponent + 1 := by lia
      have hone : DecimalDigits.place ⟨1, 1, exponent + 1⟩ = exponent + 1 := sub_zero _
      rw [hcarry, decimalUnits_pow, hplace] at hrounds
      rw [hone]
      exact hrounds
  · rename_i hne
    exact ⟨⟨hcount, hlast, hbounds.1, Nat.lt_of_le_of_ne hbounds.2 hne⟩,
      ⟨by lia, by lia⟩, hrounds⟩

end Double

end Binary
end ExprLang
