import ExprLang.Text.Parts

/-!
# Types of values

The types that a value can be converted to, with the names that users write for them and the
names under which they are shown.
-/

namespace ExprLang

/-- An enumeration: its name and its constants in order. -/
structure EnumType where
  name : String
  constants : List String
  deriving DecidableEq

namespace EnumType

def ordinal? (type : EnumType) (constant : String) : Option Nat :=
  type.constants.findIdx? (· = constant)

end EnumType

/-!
## Primitive kinds
-/

/-- The kinds that exist both without null and, boxed, with it. -/
inductive Primitive
  | boolean | char | byte | short | int | long | float | double
  deriving DecidableEq

namespace Primitive

def all : List Primitive := [boolean, char, byte, short, int, long, float, double]

theorem mem_all (p : Primitive) : p ∈ all := by
  cases p <;> simp [all]

def isNumeric (p : Primitive) : Bool := p ≠ boolean && p ≠ char

/-- The name of the kind without null. -/
def name : Primitive → String
  | boolean => "boolean"
  | char => "char"
  | byte => "byte"
  | short => "short"
  | int => "int"
  | long => "long"
  | float => "float"
  | double => "double"

def boxedName : Primitive → String
  | boolean => "Boolean"
  | char => "Character"
  | byte => "Byte"
  | short => "Short"
  | int => "Integer"
  | long => "Long"
  | float => "Float"
  | double => "Double"

end Primitive

/-!
## Value types
-/

/-- A type that a value can be converted to. -/
inductive ValueType
  | void
  | any
  | primitive (kind : Primitive)
  | boxed (kind : Primitive)
  | bigInteger
  | bigDecimal
  | string
  | enum (type : EnumType)
  | list
  | set
  | map
  | array
  | lambda
  | named (name : String)
  deriving DecidableEq

namespace ValueType

def isNullable : ValueType → Bool
  | primitive _ | void => false
  | _ => true

/-- The primitive kind behind a primitive or boxed type. -/
def kind? : ValueType → Option Primitive
  | primitive p | boxed p => some p
  | _ => none

def isNumeric : ValueType → Bool
  | primitive p | boxed p => p.isNumeric
  | bigInteger | bigDecimal => true
  | _ => false

/-- The name under which a type is shown. -/
def name : ValueType → String
  | void => "void"
  | any => "Object"
  | primitive p => p.name
  | boxed p => p.boxedName
  | bigInteger => "BigInteger"
  | bigDecimal => "BigDecimal"
  | string => "String"
  | enum type => type.name
  | list => "List"
  | set => "Set"
  | map => "Map"
  | array => "Array"
  | lambda => "LambdaExpression"
  | named name => name

/-- The types that have a name for users to write. -/
def written : List ValueType :=
  [void, any] ++ Primitive.all.map primitive ++ Primitive.all.map boxed
    ++ [bigInteger, bigDecimal, string, list, set, map]

/-- Packages that may stand before the name of a type. -/
def packages : List String := ["java.lang.", "java.math."]

/-- The type that a user's name stands for. -/
def ofName? (name : String) : Option ValueType :=
  let simple := packages.foldl (fun s package => Text.withoutLead package.toList s) name.toList
  written.find? fun type => type.name.toList = simple

end ValueType
end ExprLang
