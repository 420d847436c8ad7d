import ExprLang.Expr

/-!
# Expression text

`Expr.text` writes an expression back as source.  Every operator application is put in
parentheses, so that reading the text needs no precedence.
-/

namespace ExprLang
namespace Expr

/-- A string literal: single quotes, with a backslash before a quote or a backslash. -/
def literal (s : String) : String :=
  String.ofList ('\'' ::
    s.toList.flatMap (fun c => if c = '\'' || c = '\\' then ['\\', c] else [c]) ++ ['\''])

mutual

/-- The source text of an expression. -/
def text : Expr → String
  | null => "null"
  | bool b => if b then "true" else "false"
  | int n => intText n.toInt
  | bigInt digits => digits
  | float x => x.literal
  | str s => literal s
  | ident name => name
  | member object name => text object ++ "." ++ name
  | index object key => text object ++ "[" ++ text key ++ "]"
  | call callee args => text callee ++ "(" ++ textItems args ++ ")"
  | lambda params body => "(" ++ ", ".intercalate params ++ ") -> " ++ text body
  | list items => "[" ++ textItems items ++ "]"
  | set items => "\x7b" ++ textItems items ++ "\x7d"
  | map entries => "\x7b" ++ textEntries entries ++ "\x7d"
  | binary op left right =>
    "(" ++ text left ++ " " ++ op.symbol ++ " " ++ text right ++ ")"
  | unary op operand => "(" ++ op.symbol ++ text operand ++ ")"
  | ternary condition yes no =>
    "(" ++ text condition ++ " ? " ++ text yes ++ " : " ++ text no ++ ")"
  | assign target value => "(" ++ text target ++ " = " ++ text value ++ ")"
  | concat left right => "(" ++ text left ++ " += " ++ text right ++ ")"
  | seq left right => "(" ++ text left ++ "; " ++ text right ++ ")"
  | deferred inner => "#\x7b" ++ text inner ++ "\x7d"
  | dynamic inner => "$\x7b" ++ text inner ++ "\x7d"

def textItems : List Expr → String
  | [] => ""
  | [e] => text e
  | e :: d :: rest => text e ++ ", " ++ textItems (d :: rest)

def textEntries : List (Expr × Expr) → String
  | [] => ""
  | [(key, value)] => text key ++ ": " ++ text value
  | (key, value) :: entry :: rest =>
    text key ++ ": " ++ text value ++ ", " ++ textEntries (entry :: rest)

end

end Expr
end ExprLang
