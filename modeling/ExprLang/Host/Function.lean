import ExprLang.World

/-!
# Host functions

Functions, methods and behaviours that the host of an evaluation supplies.
-/

namespace ExprLang

/-- A function of the host: the types its arguments are converted to, the type its result is
converted to, and what it does.  If it is variadic, the last parameter takes any number of
arguments. -/
structure HostFunction where
  name : String
  params : List ValueType
  variadic : Bool
  returns : ValueType
  body : List Value → HeapAction Value

/-- What a method of a bean does, given the bean. -/
abbrev Behaviour := Ref → List Value → HeapAction Value

namespace HostFunction

def accepts (function : HostFunction) (count : Nat) : Bool :=
  if function.variadic then function.params.length ≤ count + 1
  else count = function.params.length

/-- The type of the argument at a position. -/
def paramType (function : HostFunction) (position : Nat) : ValueType :=
  match function.params[position]? with
  | some type => type
  | none => if function.variadic then function.params.getLast?.getD .any else .any

/-- Arguments in the types of their parameters; the leftmost that does not convert is
blamed. -/
def convertArgs (function : HostFunction) (heap : Heap) (converters : Converters)
    (args : List Value) : Except EvalError (List Value) :=
  args.zipIdx.mapM fun (arg, position) => heap.coerce converters arg (function.paramType position)

/-- Call a function with converted arguments, and convert its result. -/
def call (function : HostFunction) (converters : Converters) (args : List Value) :
    Action Value := do
  if !function.accepts args.length then
    .fail (.arityMismatch function.name function.params.length args.length)
  else
    let args ← .ofExcept (function.convertArgs (← World.heapNow) converters args)
    let result ← World.onHeap (function.body args)
    .ofExcept ((← World.heapNow).coerce converters result function.returns)

end HostFunction
end ExprLang
