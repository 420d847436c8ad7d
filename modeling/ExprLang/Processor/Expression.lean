import ExprLang.Evaluation
import ExprLang.Template

/-!
# Value expressions

A compiled template with the type that its value is converted to.  It holds no state and can
be used in any context.
-/

namespace ExprLang

/-- A compiled template with the type of its value. -/
structure ValueExpression where
  source : String
  template : Template
  type : ValueType

namespace ValueExpression

def expr (expression : ValueExpression) : Expr := expression.template.expr

/-- Whether the text has no expression in it. -/
def isLiteral (expression : ValueExpression) : Bool := expression.template.kind = .literal

def isDeferred (expression : ValueExpression) : Bool := expression.template.kind = .deferred

/-- Expressions are the same when their texts are, whatever their types. -/
def same (a b : ValueExpression) : Bool := a.source = b.source

/-- The value, in the type of the expression. -/
def value (expression : ValueExpression) (context : Context) : Action Value :=
  context.evalAs expression.expr expression.type

end ValueExpression
end ExprLang
