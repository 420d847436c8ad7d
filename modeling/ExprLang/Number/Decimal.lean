import ExprLang.Number.Binary
import ExprLang.Number.Digits

/-!
# Arbitrary-precision decimals

A decimal is an integer and a scale: the number `unscaled * 10 ^ -scale`.  Two decimals of
different scale may be the same number; comparison is numeric, while printing shows the
scale.  Each operation fixes the scale of its result.
-/

namespace ExprLang

/-- The number `unscaled * 10 ^ -scale`. -/
structure Decimal where
  unscaled : Int
  scale : Int
  deriving DecidableEq

namespace Decimal

def ofInt (n : Int) : Decimal := ⟨n, 0⟩

/-- The unscaled integer of the same number at a scale that is not smaller. -/
def unscaledAt (d : Decimal) (scale : Int) : Int :=
  d.unscaled * Nat.pow 10 (scale - d.scale).toNat

/-- The larger of two scales, at which both numbers are integers. -/
def commonScale (a b : Decimal) : Int := max a.scale b.scale

def compare (a b : Decimal) : Ordering :=
  let scale := commonScale a b
  Ord.compare (a.unscaledAt scale) (b.unscaledAt scale)

/-- Numeric equality, whatever the scales. -/
def equals (a b : Decimal) : Bool := compare a b == .eq

def isZero (a : Decimal) : Bool := a.unscaled = 0

def neg (a : Decimal) : Decimal := ⟨-a.unscaled, a.scale⟩

def abs (a : Decimal) : Decimal := ⟨a.unscaled.natAbs, a.scale⟩

/-!
## Sums and products
-/

/-- How many zeros adding zero may append at most. -/
def zeroPadding : Int := 15

/-- Adding zero of scale `scale` moves the scale of the other operand toward it. -/
def addZero (x : Decimal) (scale : Int) : Decimal :=
  let extra := min zeroPadding (max 0 (scale - x.scale))
  ⟨x.unscaledAt (x.scale + extra), x.scale + extra⟩

/-- The sum at the larger scale. -/
def add (a b : Decimal) : Decimal :=
  if b.isZero then addZero a b.scale
  else if a.isZero then addZero b a.scale
  else
    let scale := commonScale a b
    ⟨a.unscaledAt scale + b.unscaledAt scale, scale⟩

/-- The difference at the larger scale. -/
def sub (a b : Decimal) : Decimal :=
  let scale := commonScale a b
  ⟨a.unscaledAt scale - b.unscaledAt scale, scale⟩

/-- Strip at most `fuel` trailing zeros. -/
def stripZeros (unscaled scale : Int) : Nat → Decimal
  | 0 => ⟨unscaled, scale⟩
  | fuel + 1 =>
    if unscaled % 10 = 0 then stripZeros (unscaled / 10) (scale - 1) fuel else ⟨unscaled, scale⟩

/-- The same number with no trailing zero in the unscaled integer; zero has scale zero. -/
def normalized (a : Decimal) : Decimal :=
  if a.isZero then ⟨0, 0⟩ else stripZeros a.unscaled a.scale (digitCount a.unscaled.natAbs)

/-- The largest scale at which a factor is recognised as the number one. -/
def unitScaleLimit : Int := 38

/-- Whether the decimal is one, written at a scale from zero to the limit. -/
def isUnit (a : Decimal) : Bool :=
  0 ≤ a.scale && a.scale ≤ unitScaleLimit && a.unscaled = Nat.pow 10 a.scale.toNat

/-- The product; scales add, except that a factor of one leaves the other normalized. -/
def mul (a b : Decimal) : Decimal :=
  if a.isUnit then b.normalized
  else if b.isUnit then a.normalized
  else ⟨a.unscaled * b.unscaled, a.scale + b.scale⟩

/-- The remainder of division truncated toward zero, at the larger scale; the divisor is not
zero. -/
def rem (a b : Decimal) : Decimal :=
  let scale := commonScale a b
  ⟨(a.unscaledAt scale).tmod (b.unscaledAt scale), scale⟩

/-!
## Quotients
-/

/-- Digits that an inexact quotient is carried to. -/
def quotientDigits : Nat := 100

/-- Multiply the numerator by ten, at most `fuel` times, until it reaches the denominator. -/
def alignNumerator (num den : Nat) (scale : Int) : Nat → Nat × Int
  | 0 => (num, scale)
  | fuel + 1 =>
    if num < den then alignNumerator (num * 10) den (scale + 1) fuel else (num, scale)

/-- Continue a long division by at most `fuel` digits and round half up on the next one. -/
def longDivision (quotient remainder den : Nat) (scale : Int) : Nat → Nat × Int
  | 0 => (if 5 ≤ remainder * 10 / den then quotient + 1 else quotient, scale)
  | fuel + 1 =>
    if remainder = 0 then (quotient, scale)
    else
      let next := remainder * 10
      longDivision (quotient * 10 + next / den) (next % den) den (scale + 1) fuel

/-- The quotient of two positive integers as digits and scale: exact when it ends within
`quotientDigits` digits, rounded there otherwise.  Its integer part is never cut. -/
def divideMagnitudes (num den : Nat) (scale : Int) : Nat × Int :=
  let (num, scale) := alignNumerator num den scale (digitCount den)
  let quotient := num / den
  longDivision quotient (num % den) den scale (quotientDigits - digitCount quotient)

/-- The quotient before it is brought to the dividend's scale; the divisor is not zero. -/
def quotient (a b : Decimal) : Decimal :=
  if a.isZero || b.equals (ofInt 1) then a
  else if a.unscaled = b.unscaled then ⟨1, a.scale - b.scale⟩
  else
    let (digits, scale) :=
      divideMagnitudes a.unscaled.natAbs b.unscaled.natAbs (a.scale - b.scale)
    ⟨if (a.unscaled < 0) = (b.unscaled < 0) then digits else -(digits : Int), scale⟩

/-- The magnitude divided by `10 ^ places`, a half going away from zero. -/
def roundHalfUp (magnitude places : Nat) : Nat :=
  (magnitude + Nat.pow 10 places / 2) / Nat.pow 10 places

/-- The number brought to a scale, rounded half up on its magnitude. -/
def withScale (a : Decimal) (scale : Int) : Decimal :=
  if a.scale ≤ scale then ⟨a.unscaledAt scale, scale⟩
  else
    let magnitude := roundHalfUp a.unscaled.natAbs (a.scale - scale).toNat
    ⟨if a.unscaled < 0 then -(magnitude : Int) else magnitude, scale⟩

/-- The quotient at the dividend's scale; the divisor is not zero. -/
def div (a b : Decimal) : Decimal := (quotient a b).withScale a.scale

/-!
## Conversions
-/

def truncated (a : Decimal) : Int :=
  (a.unscaled * Nat.pow 10 (-a.scale).toNat).tdiv (Nat.pow 10 a.scale.toNat)

/-- Halve an even integer at most `places` times, and count the places left. -/
def halve (n : Nat) : Nat → Nat × Nat
  | 0 => (n, 0)
  | places + 1 => if n % 2 = 0 then halve (n / 2) places else (n, places + 1)

/-- The exact value of a finite floating-point number at the least possible scale; `none`
for a NaN or an infinity. -/
def ofBinary? {f : BinaryFormat} (x : Binary f) : Option Decimal :=
  if !x.isFinite then none
  else if x.isZero then some ⟨0, 0⟩
  else
    let (odd, places) := halve x.scaledAbs f.unitShift
    let unscaled := odd * Nat.pow 5 places
    some ⟨if x.isNegative then -(unscaled : Int) else unscaled, places⟩

/-- Digits that a conversion to floating point keeps at least. -/
def keptDigits : Nat := 25

/-- Digits dropped at a time. -/
def droppedDigits : Nat := 19

/-- An estimate from above of the digit count, by the number of bits. -/
def estimatedDigits (n : Nat) : Nat :=
  let bits := if n = 0 then 0 else n.log2 + 1
  (bits + 1) * 30102999566398120 / 100000000000000000

/-- A long unscaled integer loses trailing digits, a group at a time. -/
def shortened (a : Decimal) : Decimal :=
  let groups := (estimatedDigits a.unscaled.natAbs - keptDigits) / droppedDigits
  let places := groups * droppedDigits
  ⟨a.unscaled.tdiv (Nat.pow 10 places), a.scale - places⟩

/-- A power by squaring from the least significant bit on, rounding every product. -/
def binaryPower {f : BinaryFormat} (result base : Binary f) (n : Nat) : Binary f :=
  let result := if n % 2 = 1 then result.mul base else result
  if n / 2 = 0 then result else binaryPower result (base.mul base) (n / 2)
termination_by n

/-- The 64-bit number for a decimal.  A positive scale rounds the decimal text once; a
negative one multiplies by a rounded power of ten.  A scale beyond 32 bits is infinite. -/
def toBinary64 (a : Decimal) : Binary64 :=
  if a.isZero then .zero
  else if a.scale = 0 then Binary.ofInt _ a.unscaled
  else
    let short := a.shortened
    if short.scale ≤ Int32.minValue.toInt || Int32.maxValue.toInt < short.scale then
      Binary.infinity _ (a.unscaled < 0)
    else if short.scale ≤ 0 then
      (Binary.ofInt _ short.unscaled).mul
        (binaryPower (Binary.ofInt _ 1) (Binary.ofInt _ 10) (-short.scale).toNat)
    else Binary.ofDecimal _ (short.unscaled < 0) short.unscaled.natAbs (-short.scale)

/-- The 32-bit number for a decimal, by way of the 64-bit one. -/
def toBinary32 (a : Decimal) : Binary32 := a.toBinary64.convert _

/-!
## Text
-/

/-- The least scale and the greatest. -/
def scaleLow : Int := Int64.minValue.toInt
def scaleHigh : Int := Int64.maxValue.toInt

/-- Split at the first character that satisfies `p`, which is dropped. -/
def splitFirst (p : Char → Bool) (text : List Char) : List Char × Option (List Char) :=
  (text.takeWhile (!p ·), (text.dropWhile (!p ·)).tail?)

/-- Decimal text: a base, which is big integer text that a point may divide, and an optional
exponent, which is integer text.  The digits after the point less the exponent are the scale; it
has to fit, while the exponent itself may have any size. -/
def read? (text : List Char) : Option Decimal := do
  let (base, exponentText) := splitFirst (fun c => c = 'e' || c = 'E') text
  let exponent ← exponentText.elim (some 0) readInt?
  let (lead, trailText) := splitFirst (· = '.') base
  let trail := trailText.getD []
  let scale : Int := (trail.filter (· ≠ '_')).length - exponent
  let unscaled ← readBigInt? (lead ++ trail)
  if scaleLow ≤ scale && scale ≤ scaleHigh then some ⟨unscaled, scale⟩ else none

/-- Digits with the point or the exponent that a scale asks for: plain digits unless the scale is
negative or the exponent of the first digit is below minus six. -/
def setOut (digits : List Char) (scale : Int) : List Char :=
  let exponent : Int := digits.length - 1 - scale
  if scale = 0 then digits
  else if 0 < scale && -6 ≤ exponent then
    let places := scale.toNat
    if places < digits.length then
      digits.take (digits.length - places) ++ '.' :: digits.drop (digits.length - places)
    else '0' :: '.' :: List.replicate (places - digits.length) '0' ++ digits
  else
    let fraction := digits.drop 1
    let sign := if 0 ≤ exponent then ['+'] else []
    digits.take 1 ++ (if fraction.isEmpty then [] else '.' :: fraction)
      ++ 'E' :: sign ++ (intText exponent).toList

/-- The text of a decimal. -/
def text (a : Decimal) : String :=
  let body := setOut (natDigits a.unscaled.natAbs) a.scale
  String.ofList (if a.unscaled < 0 then '-' :: body else body)

end Decimal
end ExprLang
