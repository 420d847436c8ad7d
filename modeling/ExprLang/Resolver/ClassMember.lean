import ExprLang.Resolver

/-!
# Class members

Static fields and static methods of classes.  A class answers every question about itself,
if only with an error, and its fields are never stored in.
-/

namespace ExprLang
namespace Resolver

def staticField (services : Services) (number : Nat) (property : Value) : Action Value := do
  let field ← World.text property
  let owner := services.classAt number
  match owner.field? field with
  | some value => return value
  | none => .fail (.propertyNotFound field (some owner.name))

def classMembers : Resolver where
  name := "static-field"
  get services base property := do
    match base with
    | .classRef _ number => return .resolved (← staticField services number property)
    | _ => return .unresolved
  type services base property := do
    match base with
    | .classRef _ number => do
      let value ← staticField services number property
      return .resolved ((← World.heapNow).typeOf value)
    | _ => return .unresolved
  set _ base property _ := do
    match base with
    | .classRef .. => .fail (.propertyNotWritable (← World.text property))
    | _ => return .unresolved
  readOnly _ base _ := do
    match base with
    | .classRef .. => return .resolved true
    | _ => return .unresolved
  invoke services base method args := do
    match base with
    | .classRef _ number => do
      let owner := services.classAt number
      match owner.method? method with
      | some function => return .resolved (← services.call function args)
      | none => .fail (.methodNotFound method (some owner.name))
    | _ => return .unresolved

end Resolver
end ExprLang
