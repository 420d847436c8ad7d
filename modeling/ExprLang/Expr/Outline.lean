import ExprLang.Expr
import ExprLang.Text.Quoted

/-!
# Outlines

An outline lays a tree out over indented lines, one constituent to a line.  It is how a
parsed expression is shown for inspection.
-/

namespace ExprLang

inductive Outline
  | leaf (text : String)
  | group (label : String) (parts : List Outline)
  | record (label : String) (fields : List (String × Outline))
  | list (items : List Outline)

namespace Outline

def indent : String := "    "

mutual

/-- The text of an outline whose following lines start with `margin`. -/
def text (margin : String) : Outline → String
  | leaf s => s
  | group label parts => label ++ "(\n" ++ textParts (margin ++ indent) parts ++ margin ++ ")"
  | record label fields =>
    label ++ " \x7b\n" ++ textFields (margin ++ indent) fields ++ margin ++ "\x7d"
  | list [] => "[]"
  | list (item :: items) =>
    "[\n" ++ textParts (margin ++ indent) (item :: items) ++ margin ++ "]"

/-- Each part on a line of its own. -/
def textParts (margin : String) : List Outline → String
  | [] => ""
  | part :: rest => margin ++ text margin part ++ ",\n" ++ textParts margin rest

/-- Each field on a line of its own. -/
def textFields (margin : String) : List (String × Outline) → String
  | [] => ""
  | (name, part) :: rest =>
    margin ++ name ++ ": " ++ text margin part ++ ",\n" ++ textFields margin rest

end

end Outline

namespace Expr

open Outline in
mutual

def outline : Expr → Outline
  | null => leaf "Null"
  | bool b => group "Bool" [leaf (if b then "true" else "false")]
  | int n => group "Number" [group "Integer" [leaf (intText n.toInt)]]
  | bigInt digits => group "Number" [group "BigInteger" [leaf (Text.quoted digits)]]
  | float x => group "Number" [group "Float" [leaf (intText x.bits.toNat)]]
  | str s => group "String" [leaf (Text.quoted s)]
  | ident name => group "Identifier" [leaf (Text.quoted name)]
  | member object name =>
    record "Member"
      [("object", outline object), ("property", group "Name" [leaf (Text.quoted name)])]
  | index object key =>
    record "Member" [("object", outline object), ("property", group "Expr" [outline key])]
  | call callee args =>
    record "Call" [("callee", outline callee), ("args", Outline.list (outlines args))]
  | lambda params body =>
    record "Lambda"
      [("params", Outline.list (params.map fun p => leaf (Text.quoted p))), ("body", outline body)]
  | .list items => group "List" [Outline.list (outlines items)]
  | set items => group "Set" [Outline.list (outlines items)]
  | map entries => group "Map" [Outline.list (outlinePairs entries)]
  | binary op left right =>
    record "Binary" [("op", leaf op.name), ("left", outline left), ("right", outline right)]
  | unary op operand => record "Unary" [("op", leaf op.name), ("operand", outline operand)]
  | ternary condition yes no =>
    record "Ternary"
      [("cond", outline condition), ("then_branch", outline yes), ("else_branch", outline no)]
  | assign target value => record "Assign" [("target", outline target), ("value", outline value)]
  | concat left right => record "Concat" [("left", outline left), ("right", outline right)]
  | seq left right => record "Semicolon" [("left", outline left), ("right", outline right)]
  | deferred inner => group "Deferred" [outline inner]
  | dynamic inner => group "Dynamic" [outline inner]

def outlines : List Expr → List Outline
  | [] => []
  | e :: rest => outline e :: outlines rest

def outlinePairs : List (Expr × Expr) → List Outline
  | [] => []
  | (key, value) :: rest => group "" [outline key, outline value] :: outlinePairs rest

end

end Expr
end ExprLang
