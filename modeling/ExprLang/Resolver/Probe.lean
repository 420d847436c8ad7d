import ExprLang.Resolver

/-!
# Probes

A resolver that gives one answer to every question about a property, or none, and tallies
the questions in the heap.
-/

namespace ExprLang
namespace Resolver

def mark (tally : Ref) : Action Unit :=
  World.changeHeap fun heap => heap.setSequence tally (.null :: heap.sequence tally)

/-- The number of marks in a tally. -/
def marks (heap : Heap) (tally : Ref) : Nat := (heap.sequence tally).length

/-- The resolver that answers with a value, or leaves all to others, and tallies the
questions. -/
def probe (tally : Ref) (answer : Option Value) : Resolver :=
  let reply {α : Type} (ofValue : Heap → Value → α) : Action (Resolution α) := do
    mark tally
    match answer with
    | some value => return .resolved (ofValue (← World.heapNow) value)
    | none => return .unresolved
  { silent "probe" with
    get := fun _ _ _ => reply fun _ value => value
    type := fun _ _ _ => reply Heap.typeOf
    set := fun _ _ _ _ => reply fun _ _ => ()
    readOnly := fun _ _ _ => reply fun _ _ => true }

end Resolver
end ExprLang
