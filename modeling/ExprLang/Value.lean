import ExprLang.Number.Decimal
import ExprLang.Value.Type

/-!
# Values

What an expression denotes.  Scalars are values themselves; collections, beans and lambdas
are references into a heap, so that a change made through one reference is seen through all.
-/

namespace ExprLang

/-- The place of an object in the heap. -/
abbrev Ref := Nat

/-- A value.  A class reference carries the qualified name of the class and its number among
the defined classes. -/
inductive Value
  | null
  | bool (b : Bool)
  | char (c : Char)
  | byte (n : Int8)
  | short (n : Int16)
  | int (n : Int32)
  | long (n : Int64)
  | float (x : Binary32)
  | double (x : Binary64)
  | bigInteger (n : Int)
  | bigDecimal (d : Decimal)
  | string (s : String)
  | enum (type : EnumType) (ordinal : Nat)
  | classRef (name : String) (number : Nat)
  | list (r : Ref)
  | set (r : Ref)
  | map (r : Ref)
  | array (component : ValueType) (r : Ref)
  | bean (r : Ref)
  | lambda (r : Ref)
  deriving DecidableEq

namespace Value

instance : Inhabited Value := ⟨null⟩

def isNull : Value → Bool
  | null => true
  | _ => false

/-- Whether the value is a number of any width. -/
def isNumber : Value → Bool
  | byte _ | short _ | int _ | long _ | float _ | double _ | bigInteger _ | bigDecimal _ => true
  | _ => false

def isFloating : Value → Bool
  | float _ | double _ => true
  | _ => false

/-- Whether the value is an integer of a fixed width. -/
def isIntegral : Value → Bool
  | byte _ | short _ | int _ | long _ => true
  | _ => false

/-- A count as an integer value, at most the greatest one. -/
def ofCount (n : Nat) : Value := int (Int32.ofNat (min n (Nat.pow 2 31 - 1)))

end Value

/-- The constant of an enumeration at a position. -/
def EnumType.constant (type : EnumType) (ordinal : Nat) : String :=
  type.constants.getD ordinal ""

/-- The constant of an enumeration with a name. -/
def EnumType.value? (type : EnumType) (constant : String) : Option Value :=
  (type.ordinal? constant).map (Value.enum type)

/-- All constants of an enumeration in order. -/
def EnumType.values (type : EnumType) : List Value :=
  (List.range type.constants.length).map (Value.enum type)

/-- What null becomes where null is not allowed. -/
def Primitive.zero : Primitive → Value
  | boolean => .bool false
  | char => .char '\x00'
  | byte => .byte 0
  | short => .short 0
  | int => .int 0
  | long => .long 0
  | float => .float Binary.zero
  | double => .double Binary.zero

end ExprLang
