import ExprLang.Host.Imports

/-!
# Resolvers

A resolver handles the properties and methods of one family of base values and leaves all
other values to others.  Resolvers in a list are asked in order, and the first that handles
the question answers it.
-/

namespace ExprLang

/-- The answer of a resolver. -/
inductive Resolution (α : Type)
  | resolved (answer : α)
  /-- The question is for another resolver. -/
  | unresolved

namespace Resolution

def toOption {α : Type} : Resolution α → Option α
  | resolved answer => some answer
  | unresolved => none

end Resolution

/-- What resolvers need from the evaluation that asks them. -/
structure Services where
  converters : Converters
  classes : ClassTable
  behaviours : Table Behaviour
  invoke : Ref → List Value → Action Value

namespace Services

def coerce (services : Services) (value : Value) (type : ValueType) : Action Value := do
  .ofExcept ((← World.heapNow).coerce services.converters value type)

def classAt (services : Services) (number : Nat) : ClassDef :=
  services.classes.getD number default

def call (services : Services) (function : HostFunction) (args : List Value) : Action Value :=
  function.call services.converters args

end Services

/-- Access to the properties and methods of values.  A top-level name is a property of
null. -/
structure Resolver where
  name : String
  get : Services → Value → Value → Action (Resolution Value)
  type : Services → Value → Value → Action (Resolution ValueType)
  set : Services → Value → Value → Value → Action (Resolution Unit)
  /-- Whether a property refuses to be stored in. -/
  readOnly : Services → Value → Value → Action (Resolution Bool)
  invoke : Services → Value → String → List Value → Action (Resolution Value)

/-- Which stores the standard resolvers accept. -/
structure ResolverOptions where
  /-- Refuse every store. -/
  readOnly : Bool := false
  /-- A store in an unknown top-level name defines it. -/
  allowCreation : Bool := false

namespace Resolver

def silent (name : String) : Resolver where
  name := name
  get _ _ _ := return .unresolved
  type _ _ _ := return .unresolved
  set _ _ _ _ := return .unresolved
  readOnly _ _ _ := return .unresolved
  invoke _ _ _ _ := return .unresolved

/-- The answer of the first action that resolves. -/
def first {α : Type} : List (Action (Resolution α)) → Action (Resolution α)
  | [] => return .unresolved
  | attempt :: rest => do
    match ← attempt with
    | .resolved answer => return .resolved answer
    | .unresolved => first rest

/-- The resolver that asks others in order. -/
def chain (resolvers : List Resolver) : Resolver where
  name := "composite"
  get services base property := first (resolvers.map fun r => r.get services base property)
  type services base property := first (resolvers.map fun r => r.type services base property)
  set services base property value :=
    first (resolvers.map fun r => r.set services base property value)
  readOnly services base property :=
    first (resolvers.map fun r => r.readOnly services base property)
  invoke services base method args :=
    first (resolvers.map fun r => r.invoke services base method args)

/-- The names of resolvers as a list of quoted text. -/
def outline (resolvers : List Resolver) : String :=
  Heap.listed (resolvers.map fun r => Text.quoted r.name)

theorem first_cons_resolved {α : Type} {attempt : Action (Resolution α)}
    {rest : List (Action (Resolution α))} {answer : α} {before after : World}
    (h : attempt before = .ok (.resolved answer) after) :
    first (attempt :: rest) before = .ok (.resolved answer) after := by
  simp [first, bind, EStateM.bind, h, pure, EStateM.pure]

theorem first_cons_unresolved {α : Type} {attempt : Action (Resolution α)}
    {rest : List (Action (Resolution α))} {before after : World}
    (h : attempt before = .ok .unresolved after) :
    first (attempt :: rest) before = first rest after := by
  simp [first, bind, EStateM.bind, h]

theorem first_cons_error {α : Type} {attempt : Action (Resolution α)}
    {rest : List (Action (Resolution α))} {failure : Failure} {before after : World}
    (h : attempt before = .error failure after) :
    first (attempt :: rest) before = .error failure after := by
  simp [first, bind, EStateM.bind, h]

end Resolver
end ExprLang
