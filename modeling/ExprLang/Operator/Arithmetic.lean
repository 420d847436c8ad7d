import ExprLang.Coercion

/-!
# Arithmetic operators

Each pair of operands selects one kind of number, to which both are converted before the
operation is carried out.
-/

namespace ExprLang

/-- Text that reads as a floating-point number: it has a point or an exponent. -/
def Value.isDecimalText : Value → Bool
  | .string s => s.toList.any fun c => c = '.' || c = 'e' || c = 'E'
  | _ => false

def Value.isBigDecimal : Value → Bool
  | .bigDecimal _ => true
  | _ => false

def Value.isBigInteger : Value → Bool
  | .bigInteger _ => true
  | _ => false

/-- The kind of number in which an operation is carried out; `zero` is the outcome of an
operation on null. -/
inductive Conversion
  | zero | bigDecimal | bigInteger | double | long
  deriving DecidableEq

namespace Conversion

def name : Conversion → String
  | zero => "Zero"
  | bigDecimal => "BigDecimal"
  | bigInteger => "BigInteger"
  | double => "Double"
  | long => "Long"

/-- The kind for two operands. -/
def of (left right : Value) : Conversion :=
  if left.isNull || right.isNull then zero
  else if left.isBigDecimal || right.isBigDecimal then bigDecimal
  else if left.isDecimalText || right.isDecimalText || left.isFloating || right.isFloating then
    if left.isBigInteger || right.isBigInteger then bigDecimal else double
  else if left.isBigInteger || right.isBigInteger then bigInteger
  else long

/-- The kind for a division, which has no integers. -/
def forDivision (left right : Value) : Conversion :=
  match of left right with
  | bigInteger => bigDecimal
  | long => double
  | other => other

end Conversion

inductive Arithmetic
  | add | sub | mul | div | mod
  deriving DecidableEq

namespace Arithmetic

/-- The kind of number for an operation. -/
def conversion (op : Arithmetic) (left right : Value) : Conversion :=
  if op = div then Conversion.forDivision left right else Conversion.of left right

def onDecimals (op : Arithmetic) (a b : Decimal) : Except EvalError Value :=
  match op with
  | add => .ok (.bigDecimal (a.add b))
  | sub => .ok (.bigDecimal (a.sub b))
  | mul => .ok (.bigDecimal (a.mul b))
  | div => if b.isZero then .error (.of .divisionByZero) else .ok (.bigDecimal (a.div b))
  | mod => if b.isZero then .error (.of .moduloByZero) else .ok (.bigDecimal (a.rem b))

/-- The operation on integers of any size; a quotient is a decimal. -/
def onIntegers (op : Arithmetic) (a b : Int) : Except EvalError Value :=
  match op with
  | add => .ok (.bigInteger (a + b))
  | sub => .ok (.bigInteger (a - b))
  | mul => .ok (.bigInteger (a * b))
  | div => onDecimals div (.ofInt a) (.ofInt b)
  | mod => if b = 0 then .error (.of .moduloByZero) else .ok (.bigInteger (a.tmod b))

def onBinaries (op : Arithmetic) (a b : Binary64) : Binary64 :=
  match op with
  | add => a.add b
  | sub => a.sub b
  | mul => a.mul b
  | div => a.div b
  | mod => a.rem b

/-- The operation on 64-bit integers, which wrap around; a quotient is a floating-point
number. -/
def onLongs (op : Arithmetic) (a b : Int64) : Except EvalError Value :=
  match op with
  | add => .ok (.long (a + b))
  | sub => .ok (.long (a - b))
  | mul => .ok (.long (a * b))
  | div => .ok (.double (Binary.div (Binary.ofInt _ a.toInt) (Binary.ofInt _ b.toInt)))
  | mod => if b = 0 then .error (.of .moduloByZero) else .ok (.long (a % b))

end Arithmetic

namespace Heap

def arithmetic (heap : Heap) (op : Arithmetic) (left right : Value) : Except EvalError Value :=
  match op.conversion left right with
  | .zero => .ok (.long 0)
  | .bigDecimal => do op.onDecimals (← heap.toDecimal left) (← heap.toDecimal right)
  | .bigInteger => do op.onIntegers (← heap.toInteger left) (← heap.toInteger right)
  | .double => do
    return .double (op.onBinaries (← heap.toBinary64 left) (← heap.toBinary64 right))
  | .long => do op.onLongs (← heap.toInt64 left) (← heap.toInt64 right)

def negate (heap : Heap) (value : Value) : Except EvalError Value :=
  match value with
  | .null => .ok (.long 0)
  | .bigDecimal d => .ok (.bigDecimal d.neg)
  | .bigInteger n => .ok (.bigInteger (-n))
  | .double x => .ok (.double x.neg)
  | .float x => .ok (.float x.neg)
  | .int n => .ok (.int (-n))
  | .short n => .ok (.short (-n))
  | .byte n => .ok (.byte (-n))
  | _ =>
    if value.isDecimalText then do return .double (← heap.toBinary64 value).neg
    else do return .long (-(← heap.toInt64 value))

end Heap
end ExprLang
