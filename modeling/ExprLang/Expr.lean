import ExprLang.Number.FloatText

/-!
# Expression trees

The tree that parsing produces and evaluation walks.  Trees carry no spans, so two readings
of one text give equal trees.
-/

namespace ExprLang

/-- The operators with two operands.  Concatenation is a node of its own. -/
inductive BinaryOp
  | add
  | sub
  | mul
  | div
  | mod
  | eq
  | notEq
  | lt
  | ltEq
  | gt
  | gtEq
  | and
  | or
  deriving DecidableEq

namespace BinaryOp

/-- Every operator, in order of declaration. -/
def all : List BinaryOp :=
  [add, sub, mul, div, mod, eq, notEq, lt, ltEq, gt, gtEq, and, or]

theorem mem_all (op : BinaryOp) : op ∈ all := by
  cases op <;> decide

def name : BinaryOp → String
  | add => "Add"
  | sub => "Sub"
  | mul => "Mul"
  | div => "Div"
  | mod => "Mod"
  | eq => "Eq"
  | notEq => "NotEq"
  | lt => "Lt"
  | ltEq => "LtEq"
  | gt => "Gt"
  | gtEq => "GtEq"
  | and => "And"
  | or => "Or"

def symbol : BinaryOp → String
  | add => "+"
  | sub => "-"
  | mul => "*"
  | div => "/"
  | mod => "%"
  | eq => "=="
  | notEq => "!="
  | lt => "<"
  | ltEq => "<="
  | gt => ">"
  | gtEq => ">="
  | and => "&&"
  | or => "||"

def isArithmetic : BinaryOp → Bool
  | add | sub | mul | div | mod => true
  | _ => false

def isRelational : BinaryOp → Bool
  | lt | ltEq | gt | gtEq => true
  | _ => false

def isLogical : BinaryOp → Bool
  | and | or => true
  | _ => false

end BinaryOp

inductive UnaryOp
  | neg
  | not
  | empty
  deriving DecidableEq

namespace UnaryOp

/-- Every operator, in order of declaration. -/
def all : List UnaryOp := [neg, not, empty]

def name : UnaryOp → String
  | neg => "Neg"
  | not => "Not"
  | empty => "Empty"

/-- The spelling in front of an operand; a word keeps a blank after it. -/
def symbol : UnaryOp → String
  | neg => "-"
  | not => "!"
  | empty => "empty "

end UnaryOp

/-- An expression. -/
inductive Expr
  | null
  | bool (value : Bool)
  | int (value : Int64)
  /-- An integer literal of more than 64 bits, by its digits. -/
  | bigInt (digits : String)
  | float (value : Binary64)
  | str (text : String)
  /-- A name, or `namespace:name` for a function. -/
  | ident (name : String)
  | member (object : Expr) (name : String)
  | index (object : Expr) (key : Expr)
  /-- A call; the shape of the callee decides what is called. -/
  | call (callee : Expr) (args : List Expr)
  | lambda (params : List String) (body : Expr)
  | list (items : List Expr)
  | set (items : List Expr)
  | map (entries : List (Expr × Expr))
  | binary (op : BinaryOp) (left right : Expr)
  | unary (op : UnaryOp) (operand : Expr)
  | ternary (condition yes no : Expr)
  | assign (target value : Expr)
  /-- Concatenation of the operands' texts. -/
  | concat (left right : Expr)
  /-- Evaluation of the left side for its effects, then of the right side. -/
  | seq (left right : Expr)
  /-- A deferred segment of a template. -/
  | deferred (inner : Expr)
  /-- An immediate segment of a template. -/
  | dynamic (inner : Expr)

namespace Expr

/-- Whether the expression may stand on the left of an assignment. -/
def isAssignable : Expr → Bool
  | ident _ | member .. | index .. => true
  | _ => false

/-- The expression inside a template segment, or the expression itself. -/
def unwrapped : Expr → Expr
  | deferred e | dynamic e => e
  | e => e

end Expr
end ExprLang
