import ExprLang.Resolver

/-!
# Bean properties

The properties and methods of beans.  What is stored is first converted to the declared type
of the property.
-/

namespace ExprLang

namespace Heap

/-- Store a value in a property of a bean as it is, unless the property is read-only or does
not exist. -/
def storeProperty (heap : Heap) (r : Ref) (name : String) (value : Value) :
    Except EvalError Heap :=
  let bean := heap.object r
  match bean.property? name with
  | none => .error (.of (.propertyNotFound name (some bean.className)))
  | some property =>
    if property.readOnly then .error (.of (.propertyNotWritable name))
    else .ok (heap.setObject r (bean.store name value))

end Heap

namespace Resolver

/-- The property of a bean that a value names. -/
def beanProperty (r : Ref) (name : Value) : Action Property := do
  let name ← World.text name
  let bean := (← World.heapNow).object r
  match bean.property? name with
  | some property => return property
  | none => .fail (.propertyNotFound name (some bean.className))

def beanProperties (readOnly : Bool) : Resolver where
  name := "bean"
  get _ base property := do
    match base with
    | .bean r => return .resolved (← beanProperty r property).value
    | _ => return .unresolved
  type _ base property := do
    match base with
    | .bean r => return .resolved (← beanProperty r property).type
    | _ => return .unresolved
  set services base property value := do
    match base with
    | .bean r => do
      let place ← beanProperty r property
      if readOnly || place.readOnly then .fail (.propertyNotWritable place.name)
      else do
        let value ← services.coerce value place.type
        let heap ← .ofExcept ((← World.heapNow).storeProperty r place.name value)
        World.changeHeap fun _ => heap
        return .resolved ()
    | _ => return .unresolved
  readOnly _ base property := do
    match base with
    | .bean r => return .resolved (readOnly || (← beanProperty r property).readOnly)
    | _ => return .unresolved
  invoke services base method args := do
    match base with
    | .bean r => do
      let bean := (← World.heapNow).object r
      match bean.methods.find? method >>= services.behaviours.find? with
      | some behaviour => return .resolved (← World.onHeap (behaviour r args))
      | none => .fail (.methodNotFound method (some bean.className))
    | _ => return .unresolved

end Resolver
end ExprLang
