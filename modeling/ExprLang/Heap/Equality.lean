import ExprLang.Assoc
import ExprLang.Heap

/-!
# Natural equality

Two values are equal when they are of one kind and hold equal contents: floating-point
numbers by their bits, decimals by the number, lists and sets by their elements in order,
maps by their entries in any order.  Arrays, beans and lambdas are equal to themselves only.
-/

namespace ExprLang

/-- Equality of values that does not look into collections. -/
def Value.matches : Value → Value → Bool
  | .bigDecimal a, .bigDecimal b => a.equals b
  | .classRef a _, .classRef b _ => a = b
  | .array _ r, .array _ s => r = s
  | a, b => a = b

namespace Heap

/-- Equality that looks into collections down to a depth of `fuel`. -/
def equalUpTo (heap : Heap) : Nat → Value → Value → Bool
  | fuel + 1, .list r, .list s | fuel + 1, .set r, .set s =>
    r = s || (heap.sequence r).isEqv (heap.sequence s) (heap.equalUpTo fuel)
  | fuel + 1, .map r, .map s =>
    r = s || Assoc.equal (heap.equalUpTo fuel) (heap.equalUpTo fuel) (heap.entries r)
      (heap.entries s)
  | _, a, b => a.matches b

/-- Natural equality.  No value without a cycle is nested deeper than the heap is large. -/
def equal (heap : Heap) (a b : Value) : Bool := heap.equalUpTo (heap.size + 1) a b

/-- Equality down to a depth of `fuel` that may not look into the map `held`; it has no answer
when it would have to. -/
def equalBesideUpTo? (heap : Heap) (held : Ref) : Nat → Value → Value → Option Bool
  | fuel + 1, .list r, .list s | fuel + 1, .set r, .set s =>
    if r = s then some true
    else Assoc.agree? (heap.equalBesideUpTo? held fuel) (heap.sequence r) (heap.sequence s)
  | fuel + 1, .map r, .map s =>
    if r = s then some true
    else if r = held || s = held then none
    else
      Assoc.equal? (heap.equalBesideUpTo? held fuel) (heap.equalBesideUpTo? held fuel)
        (heap.entries r) (heap.entries s)
  | _, a, b => some (a.matches b)

/-- Natural equality while a map is locked for a change. -/
def equalBeside? (heap : Heap) (held : Ref) (a b : Value) : Option Bool :=
  heap.equalBesideUpTo? held (heap.size + 1) a b

/-- The first occurrences in a list of values. -/
def distinct (heap : Heap) (items : List Value) : List Value := Assoc.distinct heap.equal items

end Heap
end ExprLang
