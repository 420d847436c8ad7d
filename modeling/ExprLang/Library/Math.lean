import ExprLang.Library.Wrapper

/-!
# The class of mathematical functions

Constants and functions of one or two numbers.  A function keeps a narrow kind of number
where its rule says so, and works on 64-bit floating-point numbers otherwise.
-/

namespace ExprLang
namespace Library

/-- The type of 64-bit floating-point numbers, without null. -/
def double : ValueType := .primitive .double

def doubleFunction (name : String) (f : Binary64 → Binary64) : HostFunction :=
  reading name [double] double fun heap args => do
    return .double (f (← heap.toBinary64 (arg args 0)))

/-- The absolute value; integers wrap around, and those of the narrowest kinds widen. -/
def absolute (heap : Heap) (value : Value) : Except EvalError Value :=
  match value with
  | .int n => .ok (.int (if n < 0 then -n else n))
  | .float x => .ok (.float x.abs)
  | .bigDecimal d => .ok (.bigDecimal d.abs)
  | _ =>
    if value.isIntegral then do
      let n ← heap.toInt64 value
      return .long (if n < 0 then -n else n)
    else do return .double (← heap.toBinary64 value).abs

/-- One of two numbers, the first if `pickFirst` says so of its being the greater.  With a
NaN among them the choice is a NaN. -/
def choose (pickFirst : Bool → Bool) (heap : Heap) (a b : Value) : Except EvalError Value := do
  if a.isIntegral && b.isIntegral then
    let x ← heap.toInt64 a
    let y ← heap.toInt64 b
    return .long (if pickFirst (y < x) then x else y)
  else
    let x ← heap.toBinary64 a
    let y ← heap.toBinary64 b
    if x.isNaN || y.isNaN then return .double (.nan _ false)
    return .double (if pickFirst (x.compare? y == some .gt) then x else y)

/-- One with the sign of the number; a zero and a NaN are kept. -/
def signum (x : Binary64) : Binary64 :=
  if x.isNaN || x.isZero then x else .ofInt _ (if x.isNegative then -1 else 1)

/-- The nearest integer, a half going up; a NaN is zero. -/
def round (x : Binary64) : Int64 :=
  let half : Binary64 := .ofRatio _ false 1 2
  Int64.ofInt ((x.add half).floor.toIntSaturating Int64.minValue.toInt Int64.maxValue.toInt)

def mathClass : ClassDef :=
  (defaultClass "Math")
    |>.withField "PI" (.double (.ofDecimal _ false 3141592653589793 (-15)))
    |>.withField "E" (.double (.ofDecimal _ false 2718281828459045 (-15)))
    |>.withMethod (reading "abs" [.any] .any fun heap args => absolute heap (arg args 0))
    |>.withMethod (reading "max" [.any, .any] .any fun heap args =>
        choose id heap (arg args 0) (arg args 1))
    |>.withMethod (reading "min" [.any, .any] .any fun heap args =>
        choose not heap (arg args 0) (arg args 1))
    |>.withMethod (reading "pow" [double, double] double fun heap args => do
        let x ← heap.toBinary64 (arg args 0)
        return .double (x.pow (← heap.toBinary64 (arg args 1))))
    |>.withMethod (doubleFunction "sqrt" Binary.sqrt)
    |>.withMethod (doubleFunction "floor" Binary.floor)
    |>.withMethod (doubleFunction "ceil" Binary.ceil)
    |>.withMethod (doubleFunction "signum" signum)
    |>.withMethod (reading "round" [double] (.primitive .long) fun heap args => do
        return .long (round (← heap.toBinary64 (arg args 0))))

end Library
end ExprLang
