import ExprLang.Coercion
import ExprLang.Heap.Equality
import ExprLang.Scopes

/-!
# Actions on the world

What an evaluation reads and changes: the heap, the named beans and the lambda scopes.  An
action keeps its changes when it fails.
-/

namespace ExprLang

/-- What an evaluation reads and changes. -/
structure World where
  heap : Heap
  /-- The top-level names with their values; no name has the value null. -/
  beans : Table Value
  scopes : Scopes

instance : Inhabited World := ⟨⟨.empty, .empty, .empty⟩⟩

/-- Why an action has no result. -/
inductive Failure
  | error (error : EvalError)
  /-- The action does not come to an end: calls were nested deeper than the evaluation allows,
  or a change of a map waits for that map. -/
  | tooDeep

abbrev Action := EStateM Failure World

/-- A computation that changes the heap only. -/
abbrev HeapAction := EStateM EvalError Heap

/-!
## Failing
-/

def Action.ofExcept {α : Type} : Except EvalError α → Action α
  | .ok a => pure a
  | .error e => throw (.error e)

def Action.fail {α : Type} (fault : EvalFault) : Action α := throw (.error (.of fault))

/-- Run an action and answer its error as a value.  An action without an end has no such error. -/
def Action.attempt {α : Type} (action : Action α) : Action (Except EvalError α) := fun world =>
  match action world with
  | .ok a world => .ok (.ok a) world
  | .error (.error e) world => .ok (.error e) world
  | .error .tooDeep world => .error .tooDeep world

namespace World

/-!
## Heap
-/

def now : Action World := get

def heapNow : Action Heap := return (← now).heap

def onHeap {α : Type} (action : HeapAction α) : Action α := fun world =>
  match action world.heap with
  | .ok a heap => .ok a { world with heap }
  | .error e heap => .error (.error e) { world with heap }

def allocate (add : Heap → Ref × Heap) : Action Ref := fun world =>
  let (r, heap) := add world.heap
  .ok r { world with heap }

def changeHeap (change : Heap → Heap) : Action Unit := fun world =>
  .ok () { world with heap := change world.heap }

def newList (items : List Value) : Action Value :=
  return .list (← allocate (·.addSequence items))

/-- A new set of the first occurrences among some values. -/
def newSet (items : List Value) : Action Value :=
  return .set (← allocate fun heap => heap.addSequence (heap.distinct items))

def newMap (entries : List (Value × Value)) : Action Value :=
  return .map (← allocate (·.addMap entries))

def truth (value : Value) : Action Bool := do .ofExcept ((← heapNow).toBool value)

def text (value : Value) : Action String := return (← heapNow).text value

def typeName (value : Value) : Action String := return (← heapNow).typeName value

/-!
## Beans
-/

/-- Bind a top-level name; a value of null removes it. -/
def define (world : World) (name : String) (value : Value) : World :=
  { world with
    beans := if value.isNull then world.beans.erase name else world.beans.insert name value }

/-!
## Scopes
-/

/-- Run an action with a layer of bindings pushed, and drop the layer however it ends. -/
def withLayer {α : Type} (layer : Table Value) (action : Action α) : Action α := fun world =>
  match action { world with scopes := world.scopes.push layer } with
  | .ok a world => .ok a { world with scopes := world.scopes.pop }
  | .error e world => .error e { world with scopes := world.scopes.pop }

end World
end ExprLang
