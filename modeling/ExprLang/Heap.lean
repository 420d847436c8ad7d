import ExprLang.Expr
import ExprLang.Table
import ExprLang.Value

/-!
# The heap

Objects with identity: the elements of lists, sets and arrays, the entries of maps, the
properties of beans, and closures.  Each kind has its own store, and objects are never
removed, so a reference stays valid.
-/

namespace ExprLang

/-- A lambda together with the bindings that were visible where it was written. -/
structure Closure where
  params : List String
  body : Expr
  captured : Table Value

instance : Inhabited Closure := ⟨⟨[], .null, .empty⟩⟩

/-- A named, typed place of a bean. -/
structure Property where
  name : String
  type : ValueType
  value : Value
  readOnly : Bool

/-- An object with properties in the order of their declaration.  Its methods map names to
behaviours that the host supplies. -/
structure Bean where
  className : String
  properties : List Property
  methods : Table String

namespace Bean

instance : Inhabited Bean := ⟨⟨"", [], .empty⟩⟩

def property? (bean : Bean) (name : String) : Option Property :=
  bean.properties.find? (·.name = name)

/-- Add a property, or replace one of the same name in its place. -/
def declare (bean : Bean) (property : Property) : Bean :=
  if (bean.property? property.name).isSome then
    { bean with
      properties := bean.properties.map fun p => if p.name = property.name then property else p }
  else { bean with properties := bean.properties ++ [property] }

def store (bean : Bean) (name : String) (value : Value) : Bean :=
  { bean with
    properties := bean.properties.map fun p => if p.name = name then { p with value } else p }

end Bean

/-- The objects of all kinds. -/
structure Heap where
  sequences : Array (List Value)
  maps : Array (List (Value × Value))
  objects : Array Bean
  closures : Array Closure

namespace Heap

def empty : Heap := ⟨#[], #[], #[], #[]⟩

instance : Inhabited Heap := ⟨empty⟩

def size (heap : Heap) : Nat :=
  heap.sequences.size + heap.maps.size + heap.objects.size + heap.closures.size

/-!
## Reading
-/

/-- The elements of a list, set or array. -/
def sequence (heap : Heap) (r : Ref) : List Value := heap.sequences.getD r []

def entries (heap : Heap) (r : Ref) : List (Value × Value) := heap.maps.getD r []

def object (heap : Heap) (r : Ref) : Bean := heap.objects.getD r default

def closure (heap : Heap) (r : Ref) : Closure := heap.closures.getD r default

/-- The elements of a list, set or array, in order. -/
def items? (heap : Heap) : Value → Option (List Value)
  | .list r | .set r | .array _ r => some (heap.sequence r)
  | _ => none

/-!
## New objects
-/

/-- A new sequence, to be held by a list, a set or an array. -/
def addSequence (heap : Heap) (items : List Value) : Ref × Heap :=
  (heap.sequences.size, { heap with sequences := heap.sequences.push items })

def addMap (heap : Heap) (entries : List (Value × Value)) : Ref × Heap :=
  (heap.maps.size, { heap with maps := heap.maps.push entries })

def addObject (heap : Heap) (bean : Bean) : Ref × Heap :=
  (heap.objects.size, { heap with objects := heap.objects.push bean })

def addClosure (heap : Heap) (closure : Closure) : Ref × Heap :=
  (heap.closures.size, { heap with closures := heap.closures.push closure })

/-!
## Changing objects
-/

def setSequence (heap : Heap) (r : Ref) (items : List Value) : Heap :=
  { heap with sequences := heap.sequences.setIfInBounds r items }

def setEntries (heap : Heap) (r : Ref) (entries : List (Value × Value)) : Heap :=
  { heap with maps := heap.maps.setIfInBounds r entries }

def setObject (heap : Heap) (r : Ref) (bean : Bean) : Heap :=
  { heap with objects := heap.objects.setIfInBounds r bean }

end Heap
end ExprLang
