import ExprLang.Context
import ExprLang.Operator

/-!
# Evaluation

The value of an expression, its type, whether it refuses to be stored in, the store itself,
and the place it denotes.

A name is looked up among the lambda scopes, the mapped variables, the properties of null,
the imported classes and the statically imported fields, in this order.

Evaluation goes along the expression.  Where it leaves the expression, for the body of a
lambda or for the expression of a variable, it uses operations given as `Deeper`; these are
tied to the depth to which such calls may be nested.
-/

namespace ExprLang

/-- The place that an expression denotes: a property of a base value. -/
structure Place where
  base : Value
  property : Value

/-- The operations on expressions that are not parts of the one in hand. -/
structure Deeper where
  eval : Expr → Action Value
  type : Expr → Action ValueType
  readOnly : Expr → Action Bool
  assign : Expr → Value → Action Unit
  place? : Expr → Action (Option Place)

namespace Evaluation

variable (context : Context) (deeper : Deeper)

/-!
## Calls
-/

/-- Apply a lambda: its body sees what the lambda captured and its parameters.  Surplus
arguments are ignored. -/
def apply (r : Ref) (args : List Value) : Action Value := do
  let closure := (← World.heapNow).closure r
  if args.length < closure.params.length then
    .fail (.arityMismatch "lambda" closure.params.length args.length)
  else
    World.withLayer (closure.captured.insertAll (closure.params.zip args))
      (deeper.eval closure.body)

def services : Services where
  converters := context.converters
  classes := context.classes
  behaviours := context.behaviours
  invoke := apply deeper

def invokeMethod (base : Value) (method : String) (args : List Value) : Action Value := do
  match ← context.resolver.invoke (services context deeper) base method args with
  | .resolved value => return value
  | .unresolved => .fail (.methodNotFound method (some (← World.typeName base)))

def variableValue : Variable → Action Value
  | .constant value => return value
  | .expression expr type => do (services context deeper).coerce (← deeper.eval expr) type

def topLevel (name : String) : Action (Resolution Value) :=
  context.resolver.get (services context deeper) .null (.string name)

/-- The lambda that a name is bound to.  A name with a prefix is never bound. -/
def boundLambda? (name : String) : Action (Option Ref) := do
  if name.contains ':' then return none
  let value ← match (← World.now).scopes.find? name with
    | some value => pure (some value)
    | none =>
      match context.bindings.find? name with
      | some binding => some <$> variableValue context deeper binding
      | none => Resolution.toOption <$> topLevel context deeper name
  return match value with
    | some (.lambda r) => some r
    | _ => none

/-- Call by name: a lambda bound to the name, else a mapped function, else a statically
imported method. -/
def callName (name : String) (args : List Value) : Action Value := do
  match ← boundLambda? context deeper name with
  | some r => apply deeper r args
  | none =>
    match context.functions.find? name <|> context.staticMethod? name with
    | some function => function.call context.converters args
    | none => .fail (.methodNotFound name none)

/-- Call a value, which has to be a lambda. -/
def callValue (callee : Value) (args : List Value) : Action Value := do
  match callee with
  | .lambda r => apply deeper r args
  | other => .fail (.notCallable (← World.typeName other))

/-!
## Names and members
-/

def nameValue (name : String) : Action Value := do
  match (← World.now).scopes.find? name with
  | some value => return value
  | none =>
    match context.bindings.find? name with
    | some binding => variableValue context deeper binding
    | none =>
      match ← topLevel context deeper name with
      | .resolved value => return value
      | .unresolved =>
        match context.classRef? name <|> context.staticField? name with
        | some value => return value
        | none => .fail (.propertyNotFound name none)

/-- The fault of a property that no resolver knows. -/
def missing (base key : Value) : Action EvalFault := do
  let name ← World.text key
  if base.isNull then return .propertyNotFound name none
  else return .propertyNotFound name (some (← World.typeName base))

def property (base key : Value) : Action Value := do
  match ← context.resolver.get (services context deeper) base key with
  | .resolved value => return value
  | .unresolved => .fail (← missing base key)

/-- The class that an expression names while its value is something else. -/
def shadowedClass? (object : Expr) (base : Value) : Option Value :=
  match object, base with
  | _, .classRef .. => none
  | .ident name, _ => context.classRef? name
  | _, _ => none

/-- The value of a member of an object that is not null.  If the object is a name that also
stands for a class, the member may be one of the class. -/
def memberValue (object : Expr) (base key : Value) : Action Value := do
  match ← (property context deeper base key).attempt with
  | .ok value => return value
  | .error e =>
    match shadowedClass? context object base with
    | none => throw (.error e)
    | some owner =>
      match ← (property context deeper owner key).attempt with
      | .ok value => return value
      | .error _ => throw (.error e)

def store (base key value : Value) : Action Unit := do
  match ← context.resolver.set (services context deeper) base key value with
  | .resolved () => return ()
  | .unresolved => .fail (← missing base key)

def assignName (name : String) (value : Value) : Action Unit := do
  if (← World.now).scopes.isBound name then .fail (.propertyNotWritable name)
  else
    match context.bindings.find? name with
    | some (.expression expr _) => deeper.assign expr value
    | some (.constant _) => .fail (.propertyNotWritable name)
    | none => store context deeper .null (.string name) value

/-!
## Values
-/

/-- The value of an integer literal that is too large for 64 bits. -/
def bigLiteral (digits : String) : Action Value :=
  match readBigInt digits.toList with
  | .ok n => return .bigInteger n
  | .error fault => .fail (.parse fault.message)

/-- A lambda with the bindings that are visible now. -/
def newLambda (params : List String) (body : Expr) : Action Value := do
  let captured := (← World.now).scopes.capture
  return .lambda (← World.allocate (·.addClosure ⟨params, body, captured⟩))

def binary (op : BinaryOp) (left right : Value) : Action Value := do
  .ofExcept ((← World.heapNow).applyBinary op left right)

def unary (op : UnaryOp) (value : Value) : Action Value := do
  .ofExcept ((← World.heapNow).applyUnary op value)

def concat (left right : String) : Value := .string (left ++ right)

mutual

def eval : Expr → Action Value
  | .null => return .null
  | .bool b => return .bool b
  | .int n => return .long n
  | .bigInt digits => bigLiteral digits
  | .float x => return .double x
  | .str s => return .string s
  | .ident name => nameValue context deeper name
  | .member object name => do
    let base ← eval object
    if base.isNull then return .null
    else memberValue context deeper object base (.string name)
  | .index object key => do
    let base ← eval object
    if base.isNull then return .null
    else memberValue context deeper object base (← eval key)
  | .call (.member object method) args => do
    let base ← eval object
    let args ← evalAll args
    if base.isNull then return .null else invokeMethod context deeper base method args
  | .call (.index object key) args => do
    let base ← eval object
    let method ← World.text (← eval key)
    let args ← evalAll args
    if base.isNull then return .null else invokeMethod context deeper base method args
  | .call (.ident name) args => do callName context deeper name (← evalAll args)
  | .call callee args => do
    let target ← eval callee
    callValue deeper target (← evalAll args)
  | .lambda params body => newLambda params body
  | .list items => do World.newList (← evalAll items)
  | .set items => do World.newSet (← evalAll items)
  | .map entries => do World.newMap (← evalEntries [] entries)
  | .binary .and left right => do
    if ← World.truth (← eval left) then return .bool (← World.truth (← eval right))
    else return .bool false
  | .binary .or left right => do
    if ← World.truth (← eval left) then return .bool true
    else return .bool (← World.truth (← eval right))
  | .binary op left right => do
    let left ← eval left
    binary op left (← eval right)
  | .unary op operand => do unary op (← eval operand)
  | .ternary condition yes no => do
    if ← World.truth (← eval condition) then eval yes else eval no
  | .assign target value => do
    let value ← eval value
    assign target value
    return value
  | .concat left right => do
    let left ← World.text (← eval left)
    return concat left (← World.text (← eval right))
  | .seq left right => do
    let _ ← eval left
    eval right
  | .deferred inner => eval inner
  | .dynamic inner => eval inner

/-- The values of expressions, from left to right. -/
def evalAll : List Expr → Action (List Value)
  | [] => return []
  | item :: rest => do
    let value ← eval item
    return value :: (← evalAll rest)

/-- The entries of a map, added to those before. -/
def evalEntries (entries : List (Value × Value)) :
    List (Expr × Expr) → Action (List (Value × Value))
  | [] => return entries
  | (key, value) :: rest => do
    let key ← eval key
    let value ← eval value
    evalEntries (Assoc.insert (← World.heapNow).equal key value entries) rest

/-- Store a value at the place that an expression denotes. -/
def assign : Expr → Value → Action Unit
  | .ident name, value => assignName context deeper name value
  | .member object name, value => do
    store context deeper (← eval object) (.string name) value
  | .index object key, value => do
    let base ← eval object
    store context deeper base (← eval key) value
  | .deferred inner, value => assign inner value
  | .dynamic inner, value => assign inner value
  | _, _ => .fail .invalidAssignmentTarget

end

/-!
## Places, types and read-only checks
-/

/-- The place that an expression denotes; only names and members denote one. -/
def place? : Expr → Action (Option Place)
  | .ident name =>
    match context.bindings.find? name with
    | some (.expression expr _) => deeper.place? expr
    | some (.constant _) => return none
    | none => return some ⟨.null, .string name⟩
  | .member object name => return some ⟨← eval context deeper object, .string name⟩
  | .index object key => do
    let base ← eval context deeper object
    return some ⟨base, ← eval context deeper key⟩
  | .deferred inner => place? inner
  | .dynamic inner => place? inner
  | _ => return none

def nameType (name : String) : Action ValueType := do
  match (← World.now).scopes.find? name with
  | some value => return (← World.heapNow).typeOf value
  | none =>
    match context.bindings.find? name with
    | some (.expression expr _) => deeper.type expr
    | some (.constant value) => return (← World.heapNow).typeOf value
    | none =>
      match ← context.resolver.type (services context deeper) .null (.string name) with
      | .resolved type => return type
      | .unresolved =>
        match context.classRef? name <|> context.staticField? name with
        | some value => return (← World.heapNow).typeOf value
        | none => .fail (.propertyNotFound name none)

/-- What the resolver says of a property of a value that is not null. -/
def askMember {α : Type} (ask : Services → Value → Value → Action (Resolution α))
    (base key : Value) : Action α := do
  if base.isNull then .fail (← missing base key)
  else
    match ← ask (services context deeper) base key with
    | .resolved answer => return answer
    | .unresolved => .fail (← missing base key)

/-- The type of an expression: for a name or a member the declared type, otherwise the type
of the value. -/
def typeOf : Expr → Action ValueType
  | .ident name => nameType context deeper name
  | .member object name => do
    askMember context deeper context.resolver.type (← eval context deeper object) (.string name)
  | .index object key => do
    let base ← eval context deeper object
    askMember context deeper context.resolver.type base (← eval context deeper key)
  | .ternary condition yes no => do
    if ← World.truth (← eval context deeper condition) then typeOf yes else typeOf no
  | .seq left right => do
    let _ ← eval context deeper left
    typeOf right
  | .deferred inner => typeOf inner
  | .dynamic inner => typeOf inner
  | other => do
    let value ← eval context deeper other
    return (← World.heapNow).typeOf value

/-- Whether a name refuses to be stored in. -/
def nameReadOnly (name : String) : Action Bool := do
  if (← World.now).scopes.isBound name then return true
  match context.bindings.find? name with
  | some (.expression expr _) => deeper.readOnly expr
  | some (.constant _) => return true
  | none =>
    match ← context.resolver.readOnly (services context deeper) .null (.string name) with
    | .resolved answer => return answer
    | .unresolved => .fail (.propertyNotFound name none)

/-- Whether the place that an expression denotes refuses to be stored in; an expression that
denotes none does. -/
def readOnly : Expr → Action Bool
  | .ident name => nameReadOnly context deeper name
  | .member object name => do
    askMember context deeper context.resolver.readOnly (← eval context deeper object)
      (.string name)
  | .index object key => do
    let base ← eval context deeper object
    askMember context deeper context.resolver.readOnly base (← eval context deeper key)
  | .deferred inner => readOnly inner
  | .dynamic inner => readOnly inner
  | _ => return true

/-!
## Depth
-/

/-- The operations with calls nested at most `depth` deep. -/
def within (depth : Nat) : Deeper where
  eval expr := match depth with
    | 0 => throw .tooDeep
    | depth + 1 => eval context (within depth) expr
  type expr := match depth with
    | 0 => throw .tooDeep
    | depth + 1 => typeOf context (within depth) expr
  readOnly expr := match depth with
    | 0 => throw .tooDeep
    | depth + 1 => readOnly context (within depth) expr
  assign expr value := match depth with
    | 0 => throw .tooDeep
    | depth + 1 => assign context (within depth) expr value
  place? expr := match depth with
    | 0 => throw .tooDeep
    | depth + 1 => place? context (within depth) expr

/-- How deep calls may be nested. -/
def depthLimit : Nat := 5000

end Evaluation

namespace Context

def operations (context : Context) : Deeper := Evaluation.within context Evaluation.depthLimit

def eval (context : Context) (expr : Expr) : Action Value := context.operations.eval expr

def coerce (context : Context) (value : Value) (type : ValueType) : Action Value := do
  .ofExcept ((← World.heapNow).coerce context.converters value type)

/-- The value of an expression, converted to a type. -/
def evalAs (context : Context) (expr : Expr) (type : ValueType) : Action Value := do
  context.coerce (← context.eval expr) type

def typeOf (context : Context) (expr : Expr) : Action ValueType := context.operations.type expr

def readOnly (context : Context) (expr : Expr) : Action Bool := context.operations.readOnly expr

def assign (context : Context) (expr : Expr) (value : Value) : Action Unit :=
  context.operations.assign expr value

def place? (context : Context) (expr : Expr) : Action (Option Place) :=
  context.operations.place? expr

def invokeMethod (context : Context) (base : Value) (method : String) (args : List Value) :
    Action Value :=
  Evaluation.invokeMethod context context.operations base method args

/-- What resolvers are given by the context. -/
def services (context : Context) : Services := Evaluation.services context context.operations

end Context
end ExprLang
