import ExprLang.Resolver

/-!
# Map entries

The entries of a map as its properties, and the methods of maps.  A missing entry reads as
null.  A store locks the map while it compares keys, so it never ends when a comparison has to
look into that map.
-/

namespace ExprLang
namespace Resolver

inductive MapQuery
  | size | isEmpty | keySet | values

/-- The methods of maps with one argument. -/
inductive MapLookup
  | containsKey | containsValue | get

def MapQuery.ofName? : String → Option MapQuery
  | "size" => some size
  | "isEmpty" => some isEmpty
  | "keySet" => some keySet
  | "values" => some values
  | _ => none

def MapLookup.ofName? : String → Option MapLookup
  | "containsKey" => some containsKey
  | "containsValue" => some containsValue
  | "get" => some get
  | _ => none

/-- A method without arguments on the entries of a map. -/
def MapQuery.run (entries : List (Value × Value)) : MapQuery → Action Value
  | size => return .ofCount entries.length
  | isEmpty => return .bool entries.isEmpty
  | keySet => World.newSet (entries.map Prod.fst)
  | values => World.newList (entries.map Prod.snd)

/-- A method with one argument on the entries of a map. -/
def MapLookup.run (heap : Heap) (entries : List (Value × Value)) (arg : Value) :
    MapLookup → Value
  | containsKey => .bool (Assoc.contains heap.equal arg entries)
  | containsValue => .bool (entries.any fun entry => heap.equal entry.2 arg)
  | get => (Assoc.find? heap.equal arg entries).getD .null

def mapMethod (entries : List (Value × Value)) (method : String) (args : List Value) :
    Action Value :=
  match MapQuery.ofName? method, MapLookup.ofName? method, args with
  | some query, _, [] => query.run entries
  | some _, _, _ => .fail (.arityMismatch method 0 args.length)
  | none, some lookup, [arg] => return lookup.run (← World.heapNow) entries arg
  | none, some _, _ => .fail (.arityMismatch method 1 args.length)
  | none, none, _ => .fail (.methodNotFound method (some "Map"))

def mapEntries (readOnly : Bool) : Resolver where
  name := "map"
  get _ base property := do
    match base with
    | .map r =>
      let heap ← World.heapNow
      return .resolved ((Assoc.find? heap.equal property (heap.entries r)).getD .null)
    | _ => return .unresolved
  type _ base _ := do
    match base with
    | .map _ => return .resolved .any
    | _ => return .unresolved
  set _ base property value := do
    match base with
    | .map r =>
      if readOnly then .fail (.propertyNotWritable (← World.text property))
      else do
        let heap ← World.heapNow
        match Assoc.insert? (heap.equalBeside? r) property value (heap.entries r) with
        | some entries => do
          World.changeHeap (·.setEntries r entries)
          return .resolved ()
        | none => throw .tooDeep
    | _ => return .unresolved
  readOnly _ base _ := do
    match base with
    | .map _ => return .resolved readOnly
    | _ => return .unresolved
  invoke _ base method args := do
    match base with
    | .map r => return .resolved (← mapMethod ((← World.heapNow).entries r) method args)
    | _ => return .unresolved

end Resolver
end ExprLang
