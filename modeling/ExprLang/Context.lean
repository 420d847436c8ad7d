import ExprLang.Library
import ExprLang.Resolver.Standard

/-!
# Contexts

Everything an evaluation consults and does not change: the resolver, the variables and
functions that the host maps, the imports and the converters.
-/

namespace ExprLang

/-- What a mapped variable stands for. -/
inductive Variable
  /-- An expression, evaluated on every use and converted to a type; a store goes through to
  the expression. -/
  | expression (expr : Expr) (type : ValueType)
  /-- A value, which is not stored in. -/
  | constant (value : Value)

/-- What an evaluation consults. -/
structure Context where
  resolver : Resolver
  /-- The variables by name. -/
  bindings : Table Variable
  /-- Functions under their names, with a prefix and a colon before them if they have one. -/
  functions : Table HostFunction
  imports : Imports
  converters : Converters
  classes : ClassTable
  behaviours : Table Behaviour

namespace Context

/-- A context with the default imports and nothing mapped. -/
def ofResolver (resolver : Resolver) : Context where
  resolver := resolver
  bindings := .empty
  functions := .empty
  imports := Library.imports
  converters := .empty
  classes := Library.classes
  behaviours := .empty

def standard (options : ResolverOptions) : Context :=
  ofResolver (.chain (Resolver.standard options))

instance : Inhabited Context := ⟨standard {}⟩

/-- The name under which a function is called. -/
def qualifiedName (qualifier name : String) : String :=
  if qualifier.isEmpty then name else qualifier ++ ":" ++ name

def mapFunction (context : Context) (qualifier name : String) (function : HostFunction) :
    Context :=
  { context with functions := context.functions.insert (qualifiedName qualifier name) function }

def bind (context : Context) (name : String) (binding : Variable) : Context :=
  { context with bindings := context.bindings.insert name binding }

/-- Make a class known by its qualified name. -/
def defineClass (context : Context) (c : ClassDef) : Context :=
  { context with
    classes := context.classes.push c
    imports := context.imports.define c context.classes.size }

/-- Make a class known by its qualified and its simple name. -/
def importClass (context : Context) (c : ClassDef) : Context :=
  { context with
    classes := context.classes.push c
    imports := context.imports.addClass c context.classes.size }

def importPackage (context : Context) (package : String) : Context :=
  { context with imports := context.imports.addPackage package }

/-- Import a static member under its own name. -/
def importStatic (context : Context) (path : String) : Except EvalError Context := do
  return { context with imports := ← context.imports.addStatic context.classes path }

/-- Register a converter, in place of an earlier one for the same class. -/
def convert (context : Context) (className : String) (converter : Converter) : Context :=
  { context with converters := context.converters.insert className converter }

/-- The class that a name stands for. -/
def class? (context : Context) (name : String) : Option ClassDef :=
  (context.imports.find? name).map fun number => context.classes.getD number default

/-- The reference to the class that a name stands for. -/
def classRef? (context : Context) (name : String) : Option Value :=
  (context.imports.find? name).map fun number =>
    .classRef (context.classes.getD number default).qualifiedName number

/-- The class whose member is imported under its own name. -/
def staticOwner? (context : Context) (member : String) : Option ClassDef :=
  (context.imports.findStatic? member).map fun number => context.classes.getD number default

/-- The statically imported field of a name. -/
def staticField? (context : Context) (name : String) : Option Value :=
  context.staticOwner? name >>= (·.field? name)

/-- The statically imported method of a name. -/
def staticMethod? (context : Context) (name : String) : Option HostFunction :=
  context.staticOwner? name >>= (·.method? name)

/-- A summary of the context in a number of lambda invocations. -/
def outline (context : Context) (depth : Nat) : String :=
  "EvalContext \x7b resolver: " ++ Text.quoted context.resolver.name
    ++ ", variables: " ++ intText context.bindings.size
    ++ ", functions: " ++ intText context.functions.size
    ++ ", lambda_depth: " ++ intText depth ++ ", .. \x7d"

end Context
end ExprLang
