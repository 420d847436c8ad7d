import ExprLang.Operator.Comparison

/-!
# Operators

The operators of the language on values.
-/

namespace ExprLang
namespace Heap

def applyBinary (heap : Heap) (op : BinaryOp) (left right : Value) : Except EvalError Value :=
  match op with
  | .add => heap.arithmetic .add left right
  | .sub => heap.arithmetic .sub left right
  | .mul => heap.arithmetic .mul left right
  | .div => heap.arithmetic .div left right
  | .mod => heap.arithmetic .mod left right
  | .eq => do return .bool (← heap.equals left right)
  | .notEq => do return .bool !(← heap.equals left right)
  | .lt => do return .bool ((← heap.compare op left right) == some .lt)
  | .ltEq => do
    let order ← heap.compare op left right
    return .bool (order == some .lt || order == some .eq)
  | .gt => do return .bool ((← heap.compare op left right) == some .gt)
  | .gtEq => do
    let order ← heap.compare op left right
    return .bool (order == some .gt || order == some .eq)
  | .and => do
    if ← heap.toBool left then return .bool (← heap.toBool right) else return .bool false
  | .or => do
    if ← heap.toBool left then return .bool true else return .bool (← heap.toBool right)

/-- Whether a value is null, empty text, or a collection without elements. -/
def isVacant (heap : Heap) : Value → Bool
  | .null => true
  | .string s => s.isEmpty
  | .list r | .set r | .array _ r => (heap.sequence r).isEmpty
  | .map r => (heap.entries r).isEmpty
  | _ => false

def applyUnary (heap : Heap) (op : UnaryOp) (value : Value) : Except EvalError Value :=
  match op with
  | .neg => heap.negate value
  | .not => do return .bool !(← heap.toBool value)
  | .empty => .ok (.bool (heap.isVacant value))

end Heap
end ExprLang
