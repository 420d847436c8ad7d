import ExprLang.Converters
import ExprLang.Heap.Text
import ExprLang.Value.Number

/-!
# Coercion

The conversion of a value to a type.  A primitive type never yields null, a boxed or
reference type lets null pass, and each failure names the value and the type.
-/

namespace ExprLang
namespace Heap

/-- The fault of a value that does not convert to a type. -/
def cannotConvert (heap : Heap) (value : Value) (target : String) : EvalError :=
  EvalError.of (.cannotConvert (heap.display value) (heap.typeName value) target)

/-- The number read from text, or the fault of the value. -/
def orCannotConvert {α : Type} (heap : Heap) (value : Value) (target : String) :
    Option α → Except EvalError α
  | some a => .ok a
  | none => .error (heap.cannotConvert value target)

/-!
## Scalars
-/

/-- Whether text says `true`, in any case of the ASCII letters. -/
def readsTrue (text : String) : Bool :=
  text.toList.map Char.toLower = "true".toList

/-- The truth of a value: null is false, and so is text that does not say `true`. -/
def toBool (heap : Heap) : Value → Except EvalError Bool
  | .null => .ok false
  | .bool b => .ok b
  | .string s => .ok (readsTrue s)
  | value => .error (heap.cannotConvert value "Boolean")

/-- The low 16 bits of a code point, as a signed integer. -/
def codeUnit (c : Char) : Int16 := Int16.ofNat c.toNat

/-- A value about to be read as a number: empty text is zero, a character is its code unit,
and a truth value is refused. -/
def numeric (heap : Heap) (value : Value) (target : String) : Except EvalError Value :=
  match value with
  | .string s => .ok (if s.isEmpty then .long 0 else value)
  | .char c => .ok (.short (codeUnit c))
  | .bool _ => .error (heap.cannotConvert value target)
  | _ => .ok value

def readInt64? (text : String) : Option Int64 :=
  (readIntWithin? Int64.minValue.toInt Int64.maxValue.toInt text.toList).map Int64.ofInt

/-- The value of text in a numeric kind. -/
def readPrimitive? (kind : Primitive) (text : String) : Option Value :=
  let chars := text.toList
  match kind with
  | .byte =>
    (readIntWithin? Int8.minValue.toInt Int8.maxValue.toInt chars).map fun n => .byte (.ofInt n)
  | .short =>
    (readIntWithin? Int16.minValue.toInt Int16.maxValue.toInt chars).map fun n => .short (.ofInt n)
  | .int =>
    (readIntWithin? Int32.minValue.toInt Int32.maxValue.toInt chars).map fun n => .int (.ofInt n)
  | .long => (readInt64? text).map .long
  | .float => (Binary.readLenient? _ chars).map .float
  | .double => (Binary.readLenient? _ chars).map .double
  | .boolean | .char => none

/-- The value of a number in a numeric kind. -/
def ofNumber? (kind : Primitive) (number : Number) : Option Value :=
  match kind with
  | .byte => some (.byte number.toInt8)
  | .short => some (.short number.toInt16)
  | .int => some (.int number.toInt32)
  | .long => some (.long number.toInt64)
  | .float => some (.float number.toBinary32)
  | .double => some (.double number.toBinary64)
  | .boolean | .char => none

def toNumeric (heap : Heap) (value : Value) (kind : Primitive) : Except EvalError Value := do
  let value ← heap.numeric value kind.boxedName
  if heap.typeOf value = .boxed kind then
    return value
  heap.orCannotConvert value kind.boxedName <|
    match value with
    | .string s => readPrimitive? kind s
    | _ => Number.ofValue? value >>= ofNumber? kind

def toInt64 (heap : Heap) (value : Value) : Except EvalError Int64 := do
  let value ← heap.numeric value "Long"
  match value with
  | .null => return 0
  | .string s => heap.orCannotConvert value "Long" (readInt64? s)
  | _ => heap.orCannotConvert value "Long" ((Number.ofValue? value).map Number.toInt64)

/-- A 64-bit floating-point number for an operator. -/
def toBinary64 (heap : Heap) (value : Value) : Except EvalError Binary64 := do
  let value ← heap.numeric value "Double"
  match value with
  | .null => return Binary.zero
  | .string s => heap.orCannotConvert value "Double" (Binary.readLenient? _ s.toList)
  | _ => heap.orCannotConvert value "Double" ((Number.ofValue? value).map Number.toBinary64)

def toInteger (heap : Heap) (value : Value) : Except EvalError Int := do
  let value ← heap.numeric value "BigInteger"
  match value with
  | .null => return 0
  | .string s => heap.orCannotConvert value "BigInteger" (readBigInt? s.toList)
  | _ => heap.orCannotConvert value "BigInteger" ((Number.ofValue? value).map Number.toInteger)

def toDecimal (heap : Heap) (value : Value) : Except EvalError Decimal := do
  let value ← heap.numeric value "BigDecimal"
  match value with
  | .null => return Decimal.ofInt 0
  | .string s => heap.orCannotConvert value "BigDecimal" (Decimal.read? (Text.trim s.toList))
  | _ => heap.orCannotConvert value "BigDecimal" (Number.ofValue? value >>= Number.toDecimal?)

/-- The character with a 16-bit code; a surrogate is none. -/
def charOfUnit? (n : Int16) : Option Char :=
  let code := n.toUInt16.toNat
  if code.isValidChar then some (Char.ofNat code) else none

/-- A character: of text the first, of a number the one with its low 16 bits. -/
def toChar (heap : Heap) : Value → Except EvalError Char
  | .null => .ok '\x00'
  | .char c => .ok c
  | .string s => .ok (s.toList.headD '\x00')
  | value =>
    heap.orCannotConvert value "Character"
      (Number.ofValue? value >>= fun number => charOfUnit? number.toInt16)

/-- A value that is not null in a primitive kind. -/
def toPrimitive (heap : Heap) (value : Value) : Primitive → Except EvalError Value
  | .boolean => Value.bool <$> heap.toBool value
  | .char => Value.char <$> heap.toChar value
  | kind => heap.toNumeric value kind

/-!
## References
-/

/-- A constant of an enumeration: a constant of one with the same name, or the text of the
value as the name of a constant.  Empty text is null. -/
def toEnum (heap : Heap) (value : Value) (type : EnumType) : Except EvalError Value :=
  let named := heap.orCannotConvert value type.name (type.value? (heap.text value))
  match value with
  | .enum other _ => if other.name = type.name then .ok value else named
  | .string s => if s.isEmpty then .ok .null else named
  | _ => named

/-- Whether a value is an instance of a class.  Numbers are instances of `Number`; numbers,
text and truth values are instances of `Comparable`. -/
def isInstance (heap : Heap) (value : Value) (className : String) : Bool :=
  let simple := Text.simpleName className
  if simple = "Number" then value.isNumber
  else if simple = "Comparable" then
    value.isNumber || (match value with | .string _ | .bool _ => true | _ => false)
  else heap.typeName value = simple || heap.typeName value = className

/-- An instance of a class; text is given to the converter for the class. -/
def toInstance (heap : Heap) (converters : Converters) (value : Value) (className : String) :
    Except EvalError Value :=
  if heap.isInstance value className then .ok value
  else
    match value with
    | .string s =>
      match converters.converter? className with
      | some convert => convert s
      | none => if s.isEmpty then .ok .null else .error (heap.cannotConvert value className)
    | _ => .error (heap.cannotConvert value className)

/-- Whether a value is of a kind of reference. -/
def isOfKind : ValueType → Value → Bool
  | .list, .list _ | .set, .set _ | .map, .map _ | .array, .array .. | .lambda, .lambda _ => true
  | _, _ => false

def coerce (heap : Heap) (converters : Converters) (value : Value) (type : ValueType) :
    Except EvalError Value :=
  match type with
  | .any => .ok value
  | .void => .error (heap.cannotConvert value "void")
  | .string => .ok (.string (heap.text value))
  | .primitive kind => if value.isNull then .ok kind.zero else heap.toPrimitive value kind
  | .boxed kind => if value.isNull then .ok .null else heap.toPrimitive value kind
  | .bigInteger => if value.isNull then .ok .null else Value.bigInteger <$> heap.toInteger value
  | .bigDecimal => if value.isNull then .ok .null else Value.bigDecimal <$> heap.toDecimal value
  | .enum enumType => if value.isNull then .ok .null else heap.toEnum value enumType
  | .named className =>
    if value.isNull then .ok .null else heap.toInstance converters value className
  | .list | .set | .map | .array | .lambda =>
    if value.isNull then .ok .null
    else if isOfKind type value then .ok value
    else .error (heap.cannotConvert value type.name)

end Heap
end ExprLang
