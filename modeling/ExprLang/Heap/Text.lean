import ExprLang.Expr.Printer
import ExprLang.Heap
import ExprLang.Number.FloatText
import ExprLang.Text.Quoted

/-!
# Text and types of values

The text in which a value is shown, its text for diagnosis, and its type.
-/

namespace ExprLang
namespace Heap

/-- The name of the type of a value, as messages give it. -/
def typeName (heap : Heap) : Value → String
  | .null => "null"
  | .bool _ => "Boolean"
  | .char _ => "Character"
  | .byte _ => "Byte"
  | .short _ => "Short"
  | .int _ => "Integer"
  | .long _ => "Long"
  | .float _ => "Float"
  | .double _ => "Double"
  | .bigInteger _ => "BigInteger"
  | .bigDecimal _ => "BigDecimal"
  | .string _ => "String"
  | .enum type _ => type.name
  | .classRef .. => "Class"
  | .list _ => "List"
  | .set _ => "Set"
  | .map _ => "Map"
  | .array .. => "Array"
  | .bean r => (heap.object r).className
  | .lambda _ => "LambdaExpression"

/-- The type of a value; null is an object. -/
def typeOf (heap : Heap) : Value → ValueType
  | .null => .any
  | .bool _ => .boxed .boolean
  | .char _ => .boxed .char
  | .byte _ => .boxed .byte
  | .short _ => .boxed .short
  | .int _ => .boxed .int
  | .long _ => .boxed .long
  | .float _ => .boxed .float
  | .double _ => .boxed .double
  | .bigInteger _ => .bigInteger
  | .bigDecimal _ => .bigDecimal
  | .string _ => .string
  | .enum type _ => .enum type
  | .classRef .. => .named "Class"
  | .list _ => .list
  | .set _ => .set
  | .map _ => .map
  | .array .. => .array
  | .bean r => .named (heap.object r).className
  | .lambda _ => .lambda

/-!
## Shown text
-/

/-- Texts in brackets with commas between them. -/
def listed (parts : List String) : String := "[" ++ Text.joined ", " parts ++ "]"

/-- Texts in braces with commas between them. -/
def braced (parts : List String) : String := "\x7b" ++ Text.joined ", " parts ++ "\x7d"

/-- The text of a value, looking into collections and beans down to a depth of `fuel`. -/
def showUpTo (heap : Heap) : Nat → Value → String
  | _, .null => "null"
  | _, .bool b => if b then "true" else "false"
  | _, .char c => String.singleton c
  | _, .byte n => intText n.toInt
  | _, .short n => intText n.toInt
  | _, .int n => intText n.toInt
  | _, .long n => intText n.toInt
  | _, .float x => x.text
  | _, .double x => x.text
  | _, .bigInteger n => intText n
  | _, .bigDecimal d => d.text
  | _, .string s => s
  | _, .enum type ordinal => type.constant ordinal
  | _, .classRef name _ => "class " ++ name
  | _, .lambda r => "LambdaExpression(" ++ Text.joined ", " (heap.closure r).params ++ ")"
  | fuel + 1, .list r | fuel + 1, .set r | fuel + 1, .array _ r =>
    listed ((heap.sequence r).map (heap.showUpTo fuel))
  | fuel + 1, .map r =>
    braced ((heap.entries r).map fun (k, v) => heap.showUpTo fuel k ++ "=" ++ heap.showUpTo fuel v)
  | fuel + 1, .bean r =>
    (heap.object r).className
      ++ braced ((heap.object r).properties.map fun p =>
        p.name ++ "=" ++ heap.showUpTo fuel p.value)
  | 0, .list _ | 0, .set _ | 0, .array .. | 0, .map _ | 0, .bean _ => "..."

/-- The text in which a value is shown. -/
def display (heap : Heap) (value : Value) : String := heap.showUpTo (heap.size + 1) value

/-- The text of a value within other text, where null is empty. -/
def text (heap : Heap) : Value → String
  | .null => ""
  | value => heap.display value

/-- The text of a value for diagnosis. -/
def debug (heap : Heap) : Value → String
  | .null => "Null"
  | .string s => "Str(" ++ Text.quoted s ++ ")"
  | .enum type ordinal => "Enum(" ++ type.name ++ "." ++ type.constant ordinal ++ ")"
  | .lambda r =>
    let closure := heap.closure r
    "LambdaValue \x7b params: " ++ listed (closure.params.map Text.quoted)
      ++ ", body: " ++ Text.quoted closure.body.text ++ ", .. \x7d"
  | value => heap.typeName value ++ "(" ++ heap.display value ++ ")"

end Heap
end ExprLang
