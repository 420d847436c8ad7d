import ExprLang.Heap.Equality
import ExprLang.Operator.Arithmetic

/-!
# Comparison and equality operators

The relational operators order two values as numbers or as text; the equality operators
compare them as numbers, truth values, constants of an enumeration or text, and otherwise
by natural equality.
-/

namespace ExprLang

/-- What two operands are compared as. -/
inductive Comparand
  | bigDecimal | bigInteger | double | long | text | other
  deriving DecidableEq

/-- What two operands are compared as.  Decimal text counts as a number only opposite a
number. -/
def Comparand.of (left right : Value) : Comparand :=
  let floating := left.isFloating || right.isFloating
    || (left.isDecimalText && right.isNumber) || (right.isDecimalText && left.isNumber)
  let big := left.isBigInteger || right.isBigInteger
  let isChar (v : Value) : Bool := match v with | .char _ => true | _ => false
  let isString (v : Value) : Bool := match v with | .string _ => true | _ => false
  if left.isBigDecimal || right.isBigDecimal || (big && floating) then bigDecimal
  else if big then bigInteger
  else if floating then double
  else if left.isIntegral || right.isIntegral || isChar left || isChar right then long
  else if isString left || isString right then text
  else other

namespace Heap

/-- The order of two values that are neither numbers nor text. -/
def compareOther? : Value → Value → Option Ordering
  | .bool a, .bool b => some (compare a.toNat b.toNat)
  | .enum s a, .enum t b => if s = t then some (compare a b) else none
  | _, _ => none

/-- The order of two values for a relational operator; `none` when one is null or not a
number. -/
def compare (heap : Heap) (op : BinaryOp) (left right : Value) :
    Except EvalError (Option Ordering) :=
  if left.isNull || right.isNull then .ok none
  else
    match Comparand.of left right with
    | .bigDecimal => do return some ((← heap.toDecimal left).compare (← heap.toDecimal right))
    | .bigInteger => do
      return some (Ord.compare (← heap.toInteger left) (← heap.toInteger right))
    | .double => do return (← heap.toBinary64 left).compare? (← heap.toBinary64 right)
    | .long => do
      return some (Ord.compare (← heap.toInt64 left).toInt (← heap.toInt64 right).toInt)
    | .text => .ok (some (Ord.compare (heap.text left) (heap.text right)))
    | .other =>
      match compareOther? left right with
      | some order => .ok (some order)
      | none =>
        .error (EvalError.of (.notComparable op (heap.typeName left) (heap.typeName right)))

/-- The equality of two values that are neither null nor numbers. -/
def equalsOther (heap : Heap) (left right : Value) : Except EvalError Bool :=
  match left, right with
  | .bool _, _ | _, .bool _ => do return (← heap.toBool left) == (← heap.toBool right)
  | .enum type _, _ => do return heap.equal (← heap.coerce .empty right (.enum type)) left
  | _, .enum type _ => do return heap.equal (← heap.coerce .empty left (.enum type)) right
  | .string _, _ | _, .string _ => .ok (heap.text left == heap.text right)
  | _, _ => .ok (heap.equal left right)

/-- The equality of two values for an equality operator. -/
def equals (heap : Heap) (left right : Value) : Except EvalError Bool :=
  if left.isNull || right.isNull then .ok (left.isNull && right.isNull)
  else
    match Comparand.of left right with
    | .bigDecimal => do return (← heap.toDecimal left).equals (← heap.toDecimal right)
    | .bigInteger => do return (← heap.toInteger left) == (← heap.toInteger right)
    | .double => do return (← heap.toBinary64 left).equals (← heap.toBinary64 right)
    | .long => do return (← heap.toInt64 left) == (← heap.toInt64 right)
    | .text | .other => heap.equalsOther left right

end Heap
end ExprLang
