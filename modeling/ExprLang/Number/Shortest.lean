import ExprLang.Number.Binary

/-!
# Shortest decimal digits

Among the decimals that round to a given floating-point number, `Binary.shortest` chooses
one with the fewest digits, and the nearest of those.  A decimal rounds to the number when
it lies between the midpoints to the two neighbours, the midpoints included exactly when
the significand is even.
-/

namespace ExprLang

/-- A positive decimal `d.ddd * 10 ^ exponent`, written by its significant digits. -/
structure DecimalDigits where
  digits : Nat
  /-- How many digits `digits` has. -/
  count : Nat
  /-- The exponent of the first digit. -/
  exponent : Int
  deriving DecidableEq

namespace Binary

variable {f : BinaryFormat}

/-- Four times the lower and upper midpoints of a positive number, in units of
`2 ^ -unitShift`, and whether they round to it.  At the foot of a binade the lower
neighbour is twice as near. -/
def midpoints (x : Binary f) : Nat × Nat × Bool :=
  let exponent := x.magnitude / f.binade
  let fraction := x.magnitude % f.binade
  let step := Nat.pow 2 (exponent - 1)
  let below := if fraction = 0 && 1 < exponent then step else 2 * step
  (4 * x.scaledAbs - below, 4 * x.scaledAbs + 2 * step, fraction % 2 = 0)

/-- The greatest `k` with `10 ^ k ≤ num / den`, for positive `num` and `den`, found from an
estimate by at most one step up or down. -/
def floorLog10Ratio (num den : Nat) : Int :=
  let estimate := floorLog2Ratio num den * 30103 / 100000
  let le (k : Int) : Bool := den * Nat.pow 10 k.toNat ≤ num * Nat.pow 10 (-k).toNat
  if le (estimate + 1) then estimate + 1
  else if le estimate then estimate
  else estimate - 1

/-- The decimal with `count` digits in the rounding interval nearest to `x`, if any.  Of two
that are equally near, it is the larger. -/
def shortestAt (x : Binary f) (exponent : Int) (count : Nat) : Option Nat :=
  let (low, high, closed) := x.midpoints
  let place := exponent - ((count : Int) - 1)
  -- A digit string `d` stands for `d * up / down` quarter units.
  let up := 4 * f.unitsInOne * Nat.pow 10 place.toNat
  let down := Nat.pow 10 (-place).toNat
  let value := 4 * x.scaledAbs * down
  let inside (d : Nat) : Bool :=
    if closed then low * down ≤ d * up && d * up ≤ high * down
    else low * down < d * up && d * up < high * down
  let below := value / up
  match inside below, inside (below + 1) with
  | true, true => some (if 2 * (value % up) < up then below else below + 1)
  | true, false => some below
  | false, true => some (below + 1)
  | false, false => none

/-- The first count from `count` on, within `fuel` tries, that has a decimal. -/
def shortestFrom (x : Binary f) (exponent : Int) (count : Nat) : Nat → Nat × Nat
  | 0 => (0, count)
  | fuel + 1 =>
    match x.shortestAt exponent count with
    | some d => (d, count)
    | none => shortestFrom x exponent (count + 1) fuel

/-- The shortest digits of a finite non-zero number, without its sign.  Seventeen digits are
enough for every number of the 64-bit format. -/
def shortest (x : Binary f) : DecimalDigits :=
  let exponent := floorLog10Ratio x.scaledAbs f.unitsInOne
  let (digits, count) := shortestFrom x exponent 1 17
  if digits = Nat.pow 10 count then ⟨1, 1, exponent + 1⟩ else ⟨digits, count, exponent⟩

end Binary
end ExprLang
