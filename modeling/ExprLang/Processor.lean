import ExprLang.Processor.Cache
import ExprLang.Processor.Config
import ExprLang.Processor.Expression

/-!
# Processors

A processor evaluates expressions one after the other against one set of beans, variables,
functions and imports.
-/

namespace ExprLang

/-- The state of a processor. -/
structure Processor where
  config : Config
  cache : Cache
  context : Context
  world : World

/-- A step in the use of a processor. -/
abbrev Session := EStateM Failure Processor

namespace Processor

def ofConfig (config : Config) : Processor where
  config := config
  cache := .empty config.cache
  context := .standard config.resolverOptions
  world := default

def cacheOutline (processor : Processor) : String :=
  "ExpressionFactory \x7b cached: " ++ intText processor.cache.size ++ " \x7d"

def beansOutline (processor : Processor) : String :=
  "BeanRegistry \x7b beans: " ++ Heap.listed (processor.world.beans.names.map Text.quoted)
    ++ " \x7d"

def convertersOutline (processor : Processor) : String :=
  "ConverterRegistry \x7b classes: "
    ++ Heap.listed (processor.context.converters.names.map Text.quoted) ++ " \x7d"

def contextOutline (processor : Processor) : String :=
  processor.context.outline processor.world.scopes.depth

end Processor

namespace Session

def now : Session Processor := get

def changeContext (change : Context → Context) : Session Unit :=
  modify fun processor => { processor with context := change processor.context }

/-- Change the world by an action in the processor's context. -/
def evaluate {α : Type} (action : Context → Action α) : Session α := fun processor =>
  match action processor.context processor.world with
  | .ok a world => .ok a { processor with world }
  | .error e world => .error e { processor with world }

/-- The fault of text that does not parse. -/
def parseFailure (error : ParseError) : Failure := .error (.of (.parse error.message))

def compile (text : String) : Session Template := fun processor =>
  match processor.cache.compile text with
  | .ok (template, cache) => .ok template { processor with cache }
  | .error e => .error (parseFailure e) processor

/-- Compile template text into an expression of a type. -/
def templateExpression (text : String) (type : ValueType) : Session ValueExpression := do
  return ⟨text, ← compile text, type⟩

/-- Compile a bare expression into an expression of a type. -/
def expression (text : String) (type : ValueType) : Session ValueExpression :=
  templateExpression (Template.bracket text) type

def value (expression : ValueExpression) : Session Value := evaluate expression.value

/-- Evaluate a bare expression in a type. -/
def eval (text : String) (type : ValueType) : Session Value := do
  value (← expression text type)

/-- Store a value at the place that a bare expression denotes. -/
def assign (text : String) (newValue : Value) : Session Unit := do
  let target ← expression text .any
  evaluate fun context => context.assign target.expr newValue

/-- Bind a top-level name; a value of null removes it. -/
def define (name : String) (newValue : Value) : Session Unit :=
  modify fun processor => { processor with world := processor.world.define name newValue }

def bindValue (name : String) (value : Value) : Session Unit :=
  changeContext fun context => context.bind name (.constant value)

/-- Drop a variable, and answer whether it was bound. -/
def unbind (name : String) : Session Bool := do
  let bindings := (← now).context.bindings
  changeContext fun context => { context with bindings := bindings.erase name }
  return bindings.contains name

/-- Register a converter, and answer how many there are. -/
def convert (className : String) (converter : Converter) : Session Nat := do
  changeContext fun context => context.convert className converter
  return (← now).context.converters.size

/-- Bind a variable to a bare expression. -/
def defineVariable (name text : String) (type : ValueType) : Session Unit := do
  let template ← compile (Template.bracket text)
  changeContext fun context => context.bind name (.expression template.expr type)

/-- Import a static member under its own name. -/
def importStatic (path : String) : Session Unit := fun processor =>
  match processor.context.importStatic path with
  | .ok context => .ok () { processor with context }
  | .error e => .error (.error e) processor

/-- Note where an error of a step arose. -/
def noting {α : Type} (note : String) (step : Session α) : Session α := fun processor =>
  match step processor with
  | .error (.error e) processor => .error (.error (e.withNote note)) processor
  | outcome => outcome

end Session
end ExprLang
