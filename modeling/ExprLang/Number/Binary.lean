/-!
# Binary floating-point numbers

A floating-point number is a bit pattern of a binary interchange format: a sign, a biased
exponent and a fraction.  Every operation is the exact result rounded once to the nearest
number of the format, a tie going to the even significand.

Exact values are integers: each finite number of a format is an integral multiple of the
format's smallest positive number, and `Binary.scaled` is that multiple.  Sums, products,
quotients and remainders are therefore computed without loss on integers, and
`Binary.ofRatio` is the only place that rounds.

A NaN keeps its sign and payload through arithmetic, and an invalid operation answers the
quiet NaN with the sign bit set.
-/

namespace ExprLang

/-- The widths that fix a binary interchange format. -/
structure BinaryFormat where
  /-- Significand bits, the leading one included. -/
  precision : Nat
  /-- Bits of the exponent field. -/
  exponentBits : Nat
  deriving DecidableEq

namespace BinaryFormat

def double : BinaryFormat := ⟨53, 11⟩

def single : BinaryFormat := ⟨24, 8⟩

/-- Bits of a whole pattern: the sign takes the place of the hidden leading bit. -/
def width (f : BinaryFormat) : Nat := f.precision + f.exponentBits

/-- One step of the exponent field in a pattern. -/
def binade (f : BinaryFormat) : Nat := Nat.pow 2 (f.precision - 1)

/-- The smallest positive number is `2 ^ -unitShift`. -/
def unitShift (f : BinaryFormat) : Nat := Nat.pow 2 (f.exponentBits - 1) + f.precision - 3

/-- How often the smallest positive number goes into one. -/
def unitsInOne (f : BinaryFormat) : Nat := Nat.pow 2 f.unitShift

/-- The pattern of positive infinity; a larger magnitude is a NaN. -/
def infinityBits (f : BinaryFormat) : Nat := (Nat.pow 2 f.exponentBits - 1) * f.binade

end BinaryFormat

structure Binary (f : BinaryFormat) where
  bits : BitVec f.width
  deriving DecidableEq

abbrev Binary64 := Binary .double

abbrev Binary32 := Binary .single

/-!
## Rounding a ratio
-/

/-- The quotient rounded to the nearest natural number, a tie to the even one. -/
def roundQuotient (num den : Nat) : Nat :=
  let quotient := num / den
  let twice := 2 * (num % den)
  if twice < den then quotient
  else if den < twice then quotient + 1
  else quotient + quotient % 2

/-- The greatest `k` with `2 ^ k ≤ num / den`, for positive `num` and `den`. -/
def floorLog2Ratio (num den : Nat) : Int :=
  let k : Int := (num.log2 : Int) - den.log2
  if den * Nat.pow 2 k.toNat ≤ num * Nat.pow 2 (-k).toNat then k else k - 1

/-- The pattern of the magnitude nearest to `num / den`, infinity from the overflow
threshold on.  The formula also covers subnormal results and a carry into the next binade,
because patterns of neighbouring magnitudes are neighbouring numbers. -/
def BinaryFormat.magnitudeOfRatio (f : BinaryFormat) (num den : Nat) : Nat :=
  if num = 0 then 0 else
    let least : Int := -f.unitShift
    let exponent := max least (floorLog2Ratio num den - (f.precision - 1 : Nat))
    let significand :=
      roundQuotient (num * Nat.pow 2 (-exponent).toNat) (den * Nat.pow 2 exponent.toNat)
    min ((exponent - least).toNat * f.binade + significand) f.infinityBits

namespace Binary

variable {f : BinaryFormat}

/-- The number with the given sign and magnitude pattern. -/
def ofMagnitude (f : BinaryFormat) (negative : Bool) (magnitude : Nat) : Binary f :=
  ⟨BitVec.ofNat _ (if negative then Nat.pow 2 (f.width - 1) + magnitude else magnitude)⟩

/-- The number nearest to `num / den` with the given sign. -/
def ofRatio (f : BinaryFormat) (negative : Bool) (num den : Nat) : Binary f :=
  ofMagnitude f negative (f.magnitudeOfRatio num den)

/-- The number nearest to an integer; zero is positive. -/
def ofInt (f : BinaryFormat) (n : Int) : Binary f :=
  ofRatio f (n < 0) n.natAbs 1

/-- The number nearest to `scaled * 2 ^ -unitShift`; zero is positive. -/
def ofScaled (f : BinaryFormat) (scaled : Int) : Binary f :=
  ofRatio f (scaled < 0) scaled.natAbs f.unitsInOne

/-- The number nearest to `digits * 10 ^ exponent`.  Exponents far outside every format are
answered before a power of ten is formed. -/
def ofDecimal (f : BinaryFormat) (negative : Bool) (digits : Nat) (exponent : Int) : Binary f :=
  let size : Int := exponent + (digits.log2 / 3 : Nat)
  if digits = 0 then ofMagnitude f negative 0
  else if 400 < exponent then ofMagnitude f negative f.infinityBits
  else if size < -400 then ofMagnitude f negative 0
  else ofRatio f negative (digits * Nat.pow 10 exponent.toNat) (Nat.pow 10 (-exponent).toNat)

def zero : Binary f := ofMagnitude f false 0

def infinity (f : BinaryFormat) (negative : Bool) : Binary f :=
  ofMagnitude f negative f.infinityBits

/-- The quiet NaN with the given sign and no payload. -/
def nan (f : BinaryFormat) (negative : Bool) : Binary f :=
  ofMagnitude f negative (f.infinityBits + f.binade / 2)

/-- What an invalid operation answers. -/
def invalid : Binary f := nan f true

/-!
## Reading a pattern
-/

def isNegative (x : Binary f) : Bool := x.bits.msb

/-- The pattern without its sign bit. -/
def magnitude (x : Binary f) : Nat := x.bits.toNat % Nat.pow 2 (f.width - 1)

def isNaN (x : Binary f) : Bool := f.infinityBits < x.magnitude

def isInfinite (x : Binary f) : Bool := x.magnitude = f.infinityBits

def isFinite (x : Binary f) : Bool := x.magnitude < f.infinityBits

def isZero (x : Binary f) : Bool := x.magnitude = 0

/-- The absolute value of a finite number in units of `2 ^ -unitShift`. -/
def scaledAbs (x : Binary f) : Nat :=
  let exponent := x.magnitude / f.binade
  let fraction := x.magnitude % f.binade
  if exponent = 0 then fraction else (f.binade + fraction) * Nat.pow 2 (exponent - 1)

/-- The value of a finite number in units of `2 ^ -unitShift`. -/
def scaled (x : Binary f) : Int :=
  if x.isNegative then -(x.scaledAbs : Int) else x.scaledAbs

/-- A NaN with its quiet bit set. -/
def quieted (x : Binary f) : Binary f :=
  ⟨x.bits ||| BitVec.ofNat _ (f.binade / 2)⟩

/-!
## Sign operations
-/

/-- The number with its sign bit flipped, a NaN's too. -/
def neg (x : Binary f) : Binary f := ofMagnitude f (!x.isNegative) x.magnitude

/-- The number with its sign bit cleared, a NaN's too. -/
def abs (x : Binary f) : Binary f := ofMagnitude f false x.magnitude

/-!
## Arithmetic
-/

/-- Apply an operation unless an operand is a NaN; the first NaN is the answer then. -/
def propagate (x y : Binary f) (op : Binary f) : Binary f :=
  if x.isNaN then x.quieted else if y.isNaN then y.quieted else op

/-- The sum.  An exact zero is negative only when both operands are. -/
def add (x y : Binary f) : Binary f :=
  propagate x y <|
    match x.isInfinite, y.isInfinite with
    | true, true => if x.isNegative = y.isNegative then x else invalid
    | true, false => x
    | false, true => y
    | false, false =>
      let sum := x.scaled + y.scaled
      if sum = 0 then ofMagnitude f (x.isNegative && y.isNegative) 0 else ofScaled f sum

/-- The difference, as the sum with the negated number; a NaN keeps its sign. -/
def sub (x y : Binary f) : Binary f :=
  propagate x y (x.add y.neg)

def mul (x y : Binary f) : Binary f :=
  let negative := x.isNegative != y.isNegative
  propagate x y <|
    if x.isInfinite || y.isInfinite then
      if x.isZero || y.isZero then invalid else infinity f negative
    else ofRatio f negative (x.scaledAbs * y.scaledAbs) (Nat.pow 2 (2 * f.unitShift))

/-- The quotient; a non-zero number over zero is infinite. -/
def div (x y : Binary f) : Binary f :=
  let negative := x.isNegative != y.isNegative
  propagate x y <|
    match x.isInfinite, y.isInfinite with
    | true, true => invalid
    | true, false => infinity f negative
    | false, true => ofMagnitude f negative 0
    | false, false =>
      if y.isZero then (if x.isZero then invalid else infinity f negative)
      else ofRatio f negative x.scaledAbs y.scaledAbs

/-- The remainder of division truncated toward zero, with the sign of the dividend. -/
def rem (x y : Binary f) : Binary f :=
  propagate x y <|
    if x.isInfinite || y.isZero then invalid
    else if y.isInfinite then x
    else ofRatio f x.isNegative (x.scaledAbs % y.scaledAbs) f.unitsInOne

/-- The greatest `r` with `r * r ≤ n`. -/
def floorSqrt (n : Nat) : Nat :=
  if n = 0 then 0 else
    let r := 2 * floorSqrt (n / 4)
    if (r + 1) * (r + 1) ≤ n then r + 1 else r
termination_by n

/-- The square root.  The root is taken with more bits than the format holds and made odd
when it is inexact, so that one rounding decides. -/
def sqrt (x : Binary f) : Binary f :=
  if x.isNaN then x.quieted
  else if x.isZero then x
  else if x.isNegative then invalid
  else if x.isInfinite then x
  else
    let guard := f.unitShift + f.width
    let radicand := x.scaledAbs * f.unitsInOne * Nat.pow 4 guard
    let root := floorSqrt radicand
    let sticky := if root * root = radicand then 0 else 1
    ofRatio f false (2 * root + sticky) (Nat.pow 2 (f.unitShift + guard + 1))

/-!
## Rounding to integers
-/

/-- The greatest integral number not above `x`; zero, infinities and NaN are kept, and a
result of zero keeps the sign. -/
def floor (x : Binary f) : Binary f :=
  if x.isNaN then x.quieted
  else if x.isInfinite || x.isZero then x
  else
    let n := x.scaled.fdiv f.unitsInOne
    if n = 0 then ofMagnitude f x.isNegative 0 else ofInt f n

/-- The least integral number not below `x`, signed like `floor`. -/
def ceil (x : Binary f) : Binary f := x.neg.floor.neg

/-- The integer part of a finite number. -/
def truncated (x : Binary f) : Int := x.scaled.tdiv f.unitsInOne

/-- The integer part kept within `lo` and `hi`, to which the infinities go too; NaN is zero. -/
def toIntSaturating (x : Binary f) (lo hi : Int) : Int :=
  if x.isNaN then 0
  else if x.isInfinite then (if x.isNegative then lo else hi)
  else max lo (min hi x.truncated)

/-!
## Comparison
-/

/-- The order of two numbers; a NaN is unordered and the zeros are equal. -/
def compare? (x y : Binary f) : Option Ordering :=
  if x.isNaN || y.isNaN then none
  else
    let key (z : Binary f) : Int := if z.isNegative then -(z.magnitude : Int) else z.magnitude
    some (compare (key x) (key y))

/-- Numeric equality: a NaN differs from everything. -/
def equals (x y : Binary f) : Bool := compare? x y == some .eq

/-!
## Other formats
-/

/-- The nearest number of another format; a NaN keeps its sign and leading payload bits. -/
def convert (g : BinaryFormat) (x : Binary f) : Binary g :=
  if x.isNaN then
    let fraction := x.magnitude % f.binade
    let payload :=
      fraction * Nat.pow 2 (g.precision - f.precision) / Nat.pow 2 (f.precision - g.precision)
    (ofMagnitude g x.isNegative (g.infinityBits + payload)).quieted
  else if x.isInfinite then infinity g x.isNegative
  else ofRatio g x.isNegative x.scaledAbs f.unitsInOne

end Binary

/-- The power as the platform's mathematical library computes it. -/
def Binary64.pow (x y : Binary64) : Binary64 :=
  let result := Float.pow (Float.ofBits (.ofBitVec x.bits)) (Float.ofBits (.ofBitVec y.bits))
  if result.isNaN then Binary.propagate x y .invalid else ⟨result.toBits.toBitVec⟩

end ExprLang
