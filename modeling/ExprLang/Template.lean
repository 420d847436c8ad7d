import ExprLang.Expr.Parser
import ExprLang.Template.Segment

/-!
# Templates

A template becomes one expression.  A single segment stands for itself, so that it keeps the
type of its value; several segments are concatenated from left to right.  A template may not
mix immediate and deferred expressions.
-/

namespace ExprLang

inductive TemplateKind
  | literal
  | dynamic
  | deferred
  deriving DecidableEq

def TemplateKind.name : TemplateKind → String
  | literal => "Literal"
  | dynamic => "Dynamic"
  | deferred => "Deferred"

/-- A compiled template: an expression without delimiters. -/
structure Template where
  expr : Expr
  kind : TemplateKind

namespace Template

/-- The expression of a segment, wrapped according to its delimiter. -/
def segmentExpr : Segment → Except ParseError Expr
  | .text content => .ok (.str content)
  | .expression deferred tokens _ => do
    let body ← Expr.ofTokens tokens
    pure (if deferred then .deferred body else .dynamic body)

/-- The wrapped expressions of a template's segments. -/
def segments (source : String) : Except ParseError (List Expr) :=
  match Segment.list source.toList with
  | .error e => .error (.lex e)
  | .ok pieces => pieces.mapM segmentExpr

def isDeferred : Expr → Bool
  | .deferred _ => true
  | _ => false

def isDynamic : Expr → Bool
  | .dynamic _ => true
  | _ => false

/-- The kind of a template with the given segments; `none` when it mixes delimiters. -/
def kindOf (segments : List Expr) : Option TemplateKind :=
  match segments.any isDeferred, segments.any isDynamic with
  | true, true => none
  | true, false => some .deferred
  | false, true => some .dynamic
  | false, false => some .literal

/-- The concatenation of expressions from left to right; of none, the empty text. -/
def joined : List Expr → Expr
  | [] => .str ""
  | e :: rest => rest.foldl .concat e

def ofSegments (segments : List Expr) : Except ParseError Template :=
  match kindOf segments with
  | none => .error .mixedDelimiters
  | some kind => .ok ⟨joined (segments.map Expr.unwrapped), kind⟩

def compile (source : String) : Except ParseError Template := do
  ofSegments (← segments source)

/-- Template text that holds just an expression. -/
def bracket (expression : String) : String := "$\x7b" ++ expression ++ "\x7d"

/-- Whether text has an expression of either kind in it. -/
def isTemplate (source : String) : Bool :=
  occurs source.toList
where
  occurs : List Char → Bool
    | c :: d :: rest => Segment.isMark c && d = '\x7b' || occurs (d :: rest)
    | _ => false

end Template
end ExprLang
