import Mathlib.Tactic.Common
import ExprLang.Expr.Printer
import ExprLang.Proofs.Source.Lexemes

/-!
# Writable expressions

The expressions whose text can be read back: their literals and names are ones that a lexer
answers, and no lambda and no integer stands where the text would read as something else.
-/

namespace ExprLang
namespace Expr

/-- Whether the expression may be an operand.  A lambda extends as far as it can, and there is
nothing in its text that ends it. -/
def isOperand : Expr → Bool
  | lambda .. => false
  | _ => true

/-- Whether a member may be named after the text: a point after an integer is part of a
number. -/
def takesMember : Expr → Bool
  | int _ | bigInt _ | lambda .. => false
  | _ => true

/-- An expression with a text of its own. -/
inductive Writable : Expr → Prop
  | null : Writable .null
  | bool (b : Bool) : Writable (.bool b)
  | int {n : Int64} : 0 ≤ n → Writable (.int n)
  | bigInt {n : Nat} : 2 ^ 63 ≤ n → Writable (.bigInt (String.ofList (natDigits n)))
  | float {x : Binary64} : x.isFinite → x.isNegative = false → Writable (.float x)
  | str (s : String) : Writable (.str s)
  | ident {name : String} : Lexeme.isName name → Writable (.ident name)
  | member {object : Expr} {name : String} :
      Writable object → object.takesMember → Lexeme.isName name →
      Writable (.member object name)
  | index {object key : Expr} :
      Writable object → object.isOperand → Writable key → Writable (.index object key)
  | call {callee : Expr} {args : List Expr} :
      Writable callee → callee.isOperand → (∀ arg ∈ args, Writable arg) →
      Writable (.call callee args)
  /-- A call of a qualified name, which is a name nowhere else. -/
  | callQualified {space name : String} {args : List Expr} :
      Lexeme.isName space → Lexeme.isName name → (∀ arg ∈ args, Writable arg) →
      Writable (.call (.ident (space ++ ":" ++ name)) args)
  | lambda {params : List String} {body : Expr} :
      (∀ param ∈ params, Lexeme.isName param) → Writable body → Writable (.lambda params body)
  | list {items : List Expr} : (∀ item ∈ items, Writable item) → Writable (.list items)
  | set {items : List Expr} : (∀ item ∈ items, Writable item) → Writable (.set items)
  | map {entries : List (Expr × Expr)} :
      entries ≠ [] → (∀ entry ∈ entries, Writable entry.1) →
      (∀ entry ∈ entries, Writable entry.2) → Writable (.map entries)
  | binary (op : BinaryOp) {left right : Expr} :
      Writable left → left.isOperand → Writable right → right.isOperand →
      Writable (.binary op left right)
  | unary (op : UnaryOp) {operand : Expr} :
      Writable operand → operand.isOperand → Writable (.unary op operand)
  | ternary {condition yes no : Expr} :
      Writable condition → condition.isOperand → Writable yes → yes.isOperand →
      Writable no → no.isOperand → Writable (.ternary condition yes no)
  | assign {target value : Expr} :
      Writable target → target.isOperand → Writable value → Writable (.assign target value)
  | concat {left right : Expr} :
      Writable left → left.isOperand → Writable right → right.isOperand →
      Writable (.concat left right)
  | seq {left right : Expr} : Writable left → Writable right → Writable (.seq left right)

theorem isOperand_of_takesMember {e : Expr} (h : e.takesMember) : e.isOperand := by
  cases e <;> first | rfl | cases h

end Expr
end ExprLang
