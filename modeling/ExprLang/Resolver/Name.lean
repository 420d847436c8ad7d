import ExprLang.Resolver

/-!
# Top-level names

Names are the properties of null: text asked of null is looked up among the beans.
-/

namespace ExprLang
namespace Resolver

/-- The top-level name that a base and a property stand for. -/
def topName? : Value → Value → Option String
  | .null, .string name => some name
  | _, _ => none

/-- The bean that a base and a property stand for. -/
def bean? (world : World) (base property : Value) : Option Value :=
  topName? base property >>= world.beans.find?

def names (options : ResolverOptions) : Resolver where
  name := "bean-name"
  get _ base property := do
    match bean? (← World.now) base property with
    | some bean => return .resolved bean
    | none => return .unresolved
  type _ base property := do
    match bean? (← World.now) base property with
    | some bean => return .resolved ((← World.heapNow).typeOf bean)
    | none => return .unresolved
  set _ base property value := do
    match topName? base property with
    | none => return .unresolved
    | some name =>
      if !(← World.now).beans.contains name && !options.allowCreation then return .unresolved
      else if options.readOnly then .fail (.propertyNotWritable name)
      else do
        modify fun world => world.define name value
        return .resolved ()
  readOnly _ base property := do
    if (bean? (← World.now) base property).isSome then return .resolved options.readOnly
    else return .unresolved
  invoke _ _ _ _ := return .unresolved

end Resolver
end ExprLang
