import ExprLang.EvalError
import ExprLang.Table
import ExprLang.Text.Quoted
import ExprLang.Value

/-!
# Converters

Readers that turn text into an instance of a class, registered by the class's name.
-/

namespace ExprLang

/-- Reads text as an instance of one class. -/
abbrev Converter := String → Except EvalError Value

abbrev Converters := Table Converter

namespace Converters

/-- The converter for a class: one under the name as given, else one under its simple name. -/
def converter? (converters : Converters) (className : String) : Option Converter :=
  converters.find? className <|> converters.find? (Text.simpleName className)

end Converters
end ExprLang
