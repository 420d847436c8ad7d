import ExprLang.Table
import ExprLang.Value

/-!
# Lambda scopes

The bindings of the lambda invocations in progress, as layers with the innermost first.
-/

namespace ExprLang

/-- Layers of bindings, the innermost first. -/
structure Scopes where
  layers : List (Table Value)

namespace Scopes

def empty : Scopes := ⟨[]⟩

instance : Inhabited Scopes := ⟨empty⟩

def push (scopes : Scopes) (layer : Table Value) : Scopes := ⟨layer :: scopes.layers⟩

/-- Drop the innermost layer, if there is one. -/
def pop (scopes : Scopes) : Scopes := ⟨scopes.layers.tail⟩

def find? (scopes : Scopes) (name : String) : Option Value :=
  scopes.layers.findSome? (·.find? name)

def isBound (scopes : Scopes) (name : String) : Bool := (scopes.find? name).isSome

def depth (scopes : Scopes) : Nat := scopes.layers.length

/-- All visible bindings in one table, where inner layers win. -/
def capture (scopes : Scopes) : Table Value :=
  scopes.layers.foldr (fun layer table => table.insertAll layer.entries) .empty

@[simp]
theorem pop_push (scopes : Scopes) (layer : Table Value) : (scopes.push layer).pop = scopes := rfl

@[simp]
theorem depth_push (scopes : Scopes) (layer : Table Value) :
    (scopes.push layer).depth = scopes.depth + 1 := rfl

theorem find?_push (scopes : Scopes) (layer : Table Value) (name : String) :
    (scopes.push layer).find? name = (layer.find? name <|> scopes.find? name) := by
  simp only [find?, push, List.findSome?_cons]
  cases layer.find? name <;> rfl

end Scopes
end ExprLang
