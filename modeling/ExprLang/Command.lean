import ExprLang.Expr.Outline
import ExprLang.Processor

/-!
# Commands

What the command-line tool prints for its arguments: the value of an expression, its tree or
its tokens.
-/

namespace ExprLang

/-- What a command prints, and its exit status. -/
structure Output where
  status : Nat
  stdout : String
  stderr : String
  deriving DecidableEq

/-- What the evaluation of an expression is given besides it. -/
structure EvalOptions where
  /-- Names with the expressions that define them, in order. -/
  defines : List (String × String) := []
  expected : ValueType := .any

/-- Arguments that are no options. -/
inductive OptionError
  | missingDefinition (option : String)
  | malformedDefinition (definition : String)
  | missingType
  | unknownType (name : String)
  | unknownOption (option : String)

def OptionError.message : OptionError → String
  | missingDefinition option => option ++ " needs a `name=<expr>` argument"
  | malformedDefinition definition => "expected `name=<expr>`, found '" ++ definition ++ "'"
  | missingType => "--as needs a type name"
  | unknownType name => "unknown type '" ++ name ++ "'"
  | unknownOption option => "unknown option '" ++ option ++ "'"

namespace EvalOptions

/-- A name and an expression around the first equals sign. -/
def readDefinition (definition : String) : Except OptionError (String × String) :=
  match Text.splitFirst? '=' definition.toList with
  | none => .error (.malformedDefinition definition)
  | some (name, expr) =>
    let name := Text.trim name
    if name.isEmpty then .error (.malformedDefinition definition)
    else .ok (String.ofList name, String.ofList expr)

def withDefinition (options : EvalOptions) (definition : String) :
    Except OptionError EvalOptions := do
  return { options with defines := options.defines ++ [← readDefinition definition] }

/-- What stands before a definition in the same argument. -/
def definitionLead : String := "--define="

def readFrom (options : EvalOptions) : List String → Except OptionError EvalOptions
  | [] => .ok options
  | [option] =>
    if option = "--define" || option = "-d" then .error (.missingDefinition option)
    else if option = "--as" then .error .missingType
    else readSingle options option
  | option :: arg :: rest =>
    if option = "--define" || option = "-d" then do
      readFrom (← options.withDefinition arg) rest
    else if option = "--as" then
      match ValueType.ofName? arg with
      | some type => readFrom { options with expected := type } rest
      | none => .error (.unknownType arg)
    else do readFrom (← readSingle options option) (arg :: rest)
where
  readSingle (options : EvalOptions) (option : String) : Except OptionError EvalOptions :=
    if definitionLead.toList.isPrefixOf option.toList then
      options.withDefinition (String.ofList (option.toList.drop definitionLead.length))
    else .error (.unknownOption option)

def read (args : List String) : Except OptionError EvalOptions := readFrom {} args

end EvalOptions

namespace Command

/-- Evaluate the definitions of the options in order. -/
def defineAll : List (String × String) → Session Unit
  | [] => return ()
  | (name, expr) :: rest => do
    let value ← Session.noting ("in definition of '" ++ name ++ "'") (Session.eval expr .any)
    Session.define name value
    defineAll rest

/-- Evaluate template text as it is, and other text as a bare expression. -/
def evaluate (source : String) (options : EvalOptions) : Session Value := do
  defineAll options.defines
  if Template.isTemplate source then
    Session.value (← Session.templateExpression source options.expected)
  else Session.eval source options.expected

def lines (texts : List String) : String := String.join (texts.map (· ++ "\n"))

def success (texts : List String) : Output := ⟨0, lines texts, ""⟩

def failure (texts : List String) : Output := ⟨1, "", lines texts⟩

/-- The error line of a failed evaluation. -/
def failureText : Failure → String
  | .error e => "error[" ++ e.category.name ++ "]: " ++ e.message
  | .tooDeep => "error[" ++ ErrorCategory.evaluation.name ++ "]: calls are nested too deep"

def printValue (config : Config) (source : String) (options : EvalOptions) : Output :=
  match evaluate source options (.ofConfig config) with
  | .ok value processor => success [processor.world.heap.display value]
  | .error e _ => failure [failureText e]

/-- Print the tree of an expression or a template. -/
def printTree (source : String) : Output :=
  let parsed :=
    if Template.isTemplate source then
      (Template.compile source).map fun template => (template.expr, template.kind.name)
    else (Expr.parse source).map fun expr => (expr, "Bare")
  match parsed with
  | .error e => failure ["error: " ++ e.message]
  | .ok (expr, kind) =>
    success ["Parse result for '" ++ source ++ "':", "  Kind: " ++ kind, "  Tree: " ++ expr.text,
      "", expr.outline.text ""]

def printTokens (source : String) : Output :=
  match Token.list source.toList with
  | .error e => failure ["error: " ++ e.message]
  | .ok tokens =>
    success (("Tokens for '" ++ source ++ "' (" ++ intText tokens.length ++ " tokens):")
      :: tokens.map fun token => "  " ++ token.kind.outline ++ " @ " ++ token.span.text)

def usage : List String := [
  "EL expression evaluator",
  "",
  "Usage: el <command> [options]",
  "",
  "Commands:",
  "  eval <expr>          Evaluate an expression or $\x7b...\x7d template",
  "  parse <expr>         Parse and display the expression tree",
  "  lex <expr>           Tokenize and display tokens",
  "  help                 Show this help message",
  "  version              Show version information",
  "",
  "Eval options:",
  "  --define, -d <name>=<expr>   Define a bean before evaluating",
  "  --as <type>                  Coerce the result to <type>",
  "",
  "Environment:",
  "  EL_CACHE=0|1         Disable or enable the compile cache",
  "  EL_READ_ONLY=0|1     Reject every assignment",
  "  RUST_LOG=<filter>    Enable tracing output"]

/-- How the evaluation of an expression is used. -/
def evalUsage : List String := [
  "Usage: el eval <expr> [options]",
  "",
  "Options:",
  "  --define, -d <name>=<expr>   Define a bean before evaluating",
  "  --as <type>                  Coerce the result (int, double, String, ...)"]

def version : String := "el 0.1.0"

/-- What the tool prints for its arguments. -/
def run (config : Config) : List String → Output
  | [] => success usage
  | "eval" :: [] => failure evalUsage
  | "eval" :: source :: args =>
    match EvalOptions.read args with
    | .error e => failure ["error: " ++ e.message]
    | .ok options => printValue config source options
  | "parse" :: [] => failure ["Usage: el parse <expr>"]
  | "parse" :: source :: _ => printTree source
  | "lex" :: [] => failure ["Usage: el lex <expr>"]
  | "lex" :: source :: _ => printTokens source
  | command :: _ =>
    if ["help", "--help", "-h"].contains command then success usage
    else if ["version", "--version", "-v"].contains command then success [version]
    else ⟨1, lines usage, lines ["Unknown command: " ++ command, ""]⟩

end Command
end ExprLang
