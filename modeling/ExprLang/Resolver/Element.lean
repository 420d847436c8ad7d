import ExprLang.Resolver

/-!
# Elements by position

The elements of lists and arrays as properties named by their positions.  A position past
the end reads as null and is not stored in.  An array converts what is stored to the type
of its elements, and has a property for its length.
-/

namespace ExprLang

namespace Heap

/-- A position: an integral number, a character, a truth value or integer text. -/
def position (heap : Heap) (property : Value) : Except EvalError Int64 :=
  match property with
  | .bool b => .ok (if b then 1 else 0)
  | .string _ | .char _ => heap.toInt64 property
  | _ =>
    if property.isNumber then heap.toInt64 property
    else .error (heap.cannotConvert property "int")

end Heap

namespace Resolver

/-- A position among a number of elements. -/
def within? (position : Int64) (count : Nat) : Option Nat :=
  if 0 ≤ position.toInt && position.toInt < count then some position.toInt.toNat else none

/-- The position that a property names; on failure the property does not exist. -/
def positionIn (typeName : String) (property : Value) : Action Int64 := do
  let heap ← World.heapNow
  match heap.position property with
  | .ok position => return position
  | .error _ => .fail (.propertyNotFound (heap.display property) (some typeName))

/-- The fault of a position outside a sequence. -/
def outside (typeName : String) (position : Int64) : EvalFault :=
  .propertyNotFound (intText position.toInt) (some typeName)

/-- The element at the position that a property names. -/
def elementAt (typeName : String) (r : Ref) (property : Value) : Action Value := do
  let position ← positionIn typeName property
  let items := (← World.heapNow).sequence r
  match within? position items.length with
  | some i => return items.getD i .null
  | none => return .null

/-- The type of the element at the position that a property names. -/
def elementType (typeName : String) (r : Ref) (property : Value) (type : ValueType) :
    Action ValueType := do
  let position ← positionIn typeName property
  match within? position ((← World.heapNow).sequence r).length with
  | some _ => return type
  | none => .fail (outside typeName position)

def storeAt (typeName : String) (r : Ref) (position : Int64) (value : Value) : Action Unit := do
  let items := (← World.heapNow).sequence r
  match within? position items.length with
  | some i => World.changeHeap fun heap => heap.setSequence r ((heap.sequence r).set i value)
  | none => .fail (outside typeName position)

def listElements (readOnly : Bool) : Resolver where
  name := "list"
  get _ base property := do
    match base with
    | .list r => return .resolved (← elementAt "List" r property)
    | _ => return .unresolved
  type _ base property := do
    match base with
    | .list r => return .resolved (← elementType "List" r property .any)
    | _ => return .unresolved
  set _ base property value := do
    match base with
    | .list r =>
      if readOnly then .fail (.propertyNotWritable ((← World.heapNow).display property))
      else do
        let position ← positionIn "List" property
        return .resolved (← storeAt "List" r position value)
    | _ => return .unresolved
  readOnly _ base _ := do
    match base with
    | .list _ => return .resolved readOnly
    | _ => return .unresolved
  invoke _ _ _ _ := return .unresolved

/-- Whether a property of an array is its length. -/
def isLength (property : Value) : Bool := property = .string "length"

def arrayElements (readOnly : Bool) : Resolver where
  name := "array"
  get _ base property := do
    match base with
    | .array _ r =>
      if isLength property then
        return .resolved (.ofCount ((← World.heapNow).sequence r).length)
      else return .resolved (← elementAt "Array" r property)
    | _ => return .unresolved
  type _ base property := do
    match base with
    | .array component r =>
      if isLength property then return .resolved (.primitive .int)
      else return .resolved (← elementType "Array" r property component)
    | _ => return .unresolved
  set services base property value := do
    match base with
    | .array component r =>
      if readOnly || isLength property then
        .fail (.propertyNotWritable ((← World.heapNow).display property))
      else do
        let position ← positionIn "Array" property
        let value ← services.coerce value component
        return .resolved (← storeAt "Array" r position value)
    | _ => return .unresolved
  readOnly _ base property := do
    match base with
    | .array .. => return .resolved (readOnly || isLength property)
    | _ => return .unresolved
  invoke _ _ _ _ := return .unresolved

end Resolver
end ExprLang
