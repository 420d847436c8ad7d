import ExprLang.Value

/-!
# Numbers behind values

A numeric value without the width it was boxed in, and the conversions between numbers:
integers keep their low bits, floating-point numbers saturate.
-/

namespace ExprLang

inductive Number
  | integral (n : Int64)
  | floating (x : Binary64)
  | bigInteger (n : Int)
  | bigDecimal (d : Decimal)

namespace Number

def ofValue? : Value → Option Number
  | .byte n => some (integral n.toInt64)
  | .short n => some (integral n.toInt64)
  | .int n => some (integral n.toInt64)
  | .long n => some (integral n)
  | .float x => some (floating (x.convert _))
  | .double x => some (floating x)
  | .bigInteger n => some (bigInteger n)
  | .bigDecimal d => some (bigDecimal d)
  | _ => none

/-- The low 64 bits of an integer of any size: the least digit of its magnitude in base
`2 ^ 64`, negated for a negative integer.  The negation may wrap around. -/
def lowBits (n : Int) : Int64 :=
  let digit := (UInt64.ofNat n.natAbs).toInt64
  if n < 0 then -digit else digit

theorem lowBits_eq_ofInt (n : Int) : lowBits n = Int64.ofInt n := by
  unfold lowBits
  rw [UInt64.toInt64_ofNat']
  cases n with
  | ofNat m => rfl
  | negSucc m =>
      have hneg : Int.negSucc m = -((m + 1 : Nat) : Int) := rfl
      rw [if_pos (Int.negSucc_lt_zero m), hneg, Int64.ofInt_neg]
      rfl

/-- The low 64 bits of the integer part; a floating-point number saturates. -/
def toInt64 : Number → Int64
  | integral n => n
  | floating x => Int64.ofInt (x.toIntSaturating Int64.minValue.toInt Int64.maxValue.toInt)
  | bigInteger n => lowBits n
  | bigDecimal d => lowBits d.truncated

/-- The low 32 bits of the integer part; a floating-point number saturates. -/
def toInt32 : Number → Int32
  | floating x => Int32.ofInt (x.toIntSaturating Int32.minValue.toInt Int32.maxValue.toInt)
  | number => number.toInt64.toInt32

/-- The low 16 bits of the 32-bit conversion. -/
def toInt16 (number : Number) : Int16 := number.toInt32.toInt16

/-- The low 8 bits of the 32-bit conversion. -/
def toInt8 (number : Number) : Int8 := number.toInt32.toInt8

def toBinary64 : Number → Binary64
  | integral n => Binary.ofInt _ n.toInt
  | floating x => x
  | bigInteger n => Binary.ofInt _ n
  | bigDecimal d => d.toBinary64

/-- The nearest 32-bit floating-point number; a decimal goes by way of 64 bits. -/
def toBinary32 : Number → Binary32
  | integral n => Binary.ofInt _ n.toInt
  | floating x => x.convert _
  | bigInteger n => Binary.ofInt _ n
  | bigDecimal d => d.toBinary32

/-- The integer part; a floating-point number goes by way of 64 bits. -/
def toInteger : Number → Int
  | bigInteger n => n
  | bigDecimal d => d.truncated
  | number => number.toInt64.toInt

/-- The exact decimal; a NaN or an infinity has none. -/
def toDecimal? : Number → Option Decimal
  | integral n => some (Decimal.ofInt n.toInt)
  | floating x => Decimal.ofBinary? x
  | bigInteger n => some (Decimal.ofInt n)
  | bigDecimal d => some d

end Number
end ExprLang
