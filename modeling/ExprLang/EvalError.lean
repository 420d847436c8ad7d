import ExprLang.Expr
import ExprLang.Number.Digits

/-!
# Evaluation errors

The causes for which an evaluation fails, their wording, and the category under which each
is reported.
-/

namespace ExprLang

inductive EvalFault
  /-- A name, or with `base` a property of a value of that type, does not exist. -/
  | propertyNotFound (property : String) (base : Option String)
  | propertyNotWritable (property : String)
  | invalidAssignmentTarget
  /-- A function, or with `base` a method on a value of that type, does not exist. -/
  | methodNotFound (method : String) (base : Option String)
  | cannotConvert (value source target : String)
  | divisionByZero
  | moduloByZero
  | notComparable (op : BinaryOp) (left right : String)
  | arityMismatch (name : String) (expected got : Nat)
  | notCallable (typeName : String)
  | parse (message : String)
  | custom (message : String)
  deriving DecidableEq

inductive ErrorCategory
  | propertyNotFound | propertyNotWritable | methodNotFound | cannotConvert | evaluation
  deriving DecidableEq

def ErrorCategory.name : ErrorCategory → String
  | propertyNotFound => "PropertyNotFound"
  | propertyNotWritable => "PropertyNotWritable"
  | methodNotFound => "MethodNotFound"
  | cannotConvert => "CannotConvert"
  | evaluation => "Evaluation"

namespace EvalFault

/-- The name of the kind of fault. -/
def name : EvalFault → String
  | propertyNotFound .. => "PropertyNotFound"
  | propertyNotWritable _ => "PropertyNotWritable"
  | invalidAssignmentTarget => "InvalidAssignmentTarget"
  | methodNotFound .. => "MethodNotFound"
  | cannotConvert .. => "CannotConvert"
  | divisionByZero => "DivisionByZero"
  | moduloByZero => "ModuloByZero"
  | notComparable .. => "NotComparable"
  | arityMismatch .. => "ArityMismatch"
  | notCallable _ => "NotCallable"
  | parse _ => "Parse"
  | custom _ => "Custom"

def category : EvalFault → ErrorCategory
  | propertyNotFound .. => .propertyNotFound
  | propertyNotWritable _ | invalidAssignmentTarget => .propertyNotWritable
  | methodNotFound .. => .methodNotFound
  | cannotConvert .. => .cannotConvert
  | _ => .evaluation

def message : EvalFault → String
  | propertyNotFound property (some base) =>
    "property '" ++ property ++ "' not found on type " ++ base
  | propertyNotFound property none => "identifier '" ++ property ++ "' cannot be resolved"
  | propertyNotWritable property => "property '" ++ property ++ "' is not writable"
  | invalidAssignmentTarget => "left side of assignment is not an identifier or member access"
  | methodNotFound method (some base) => "method '" ++ method ++ "' not found on type " ++ base
  | methodNotFound method none => "function '" ++ method ++ "' not found"
  | cannotConvert value source target =>
    "cannot convert '" ++ value ++ "' of type " ++ source ++ " to " ++ target
  | divisionByZero => "division by zero"
  | moduloByZero => "modulo by zero"
  | notComparable op left right =>
    "operator `" ++ op.symbol ++ "` cannot compare " ++ left ++ " with " ++ right
  | arityMismatch name expected got =>
    let counted := intText expected ++ (if expected = 1 then " argument" else " arguments")
    (if name.isEmpty then "expected " else name ++ " expects ")
      ++ counted ++ ", got " ++ intText got
  | notCallable typeName => typeName ++ " is not callable"
  | parse message => "failed to parse expression: " ++ message
  | custom message => message

end EvalFault

/-- A fault with notes on where it arose, the outermost last. -/
structure EvalError where
  fault : EvalFault
  notes : List String
  deriving DecidableEq

namespace EvalError

/-- The error of a fault, without notes. -/
def of (fault : EvalFault) : EvalError := ⟨fault, []⟩

instance : Coe EvalFault EvalError := ⟨of⟩

/-- An error with a message of its own. -/
def custom (message : String) : EvalError := of (.custom message)

/-- The fault of an argument that is not of the kind a method expects. -/
def wrongArgument (method expected : String) : EvalError :=
  custom (method ++ " expects a " ++ expected ++ " argument")

def withNote (error : EvalError) (note : String) : EvalError :=
  { error with notes := error.notes ++ [note] }

def category (error : EvalError) : ErrorCategory := error.fault.category

/-- The message of the fault, followed by a line for each note. -/
def message (error : EvalError) : String :=
  error.notes.foldl (fun text note => text ++ "\n  note: " ++ note) error.fault.message

end EvalError
end ExprLang
