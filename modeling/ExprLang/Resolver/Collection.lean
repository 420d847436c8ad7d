import ExprLang.Operator
import ExprLang.Resolver

/-!
# Methods of collections

The methods of lists, sets and arrays.  Each works on the elements that the collection held
when it was called and answers with a new list or a single value, so that calls can be
chained.
-/

namespace ExprLang

inductive CollectionMethod
  | stream | toList | filter | map | forEach | reduce | count | sum | average | min | max
  | anyMatch | allMatch | noneMatch | distinct | sorted | limit | skip | findFirst
  | size | isEmpty | contains
  deriving DecidableEq

namespace CollectionMethod

def ofName? : String → Option CollectionMethod
  | "stream" => some stream
  | "toList" => some toList
  | "filter" => some filter
  | "map" => some map
  | "forEach" => some forEach
  | "reduce" => some reduce
  | "count" => some count
  | "sum" => some sum
  | "average" => some average
  | "min" => some min
  | "max" => some max
  | "anyMatch" => some anyMatch
  | "allMatch" => some allMatch
  | "noneMatch" => some noneMatch
  | "distinct" => some distinct
  | "sorted" => some sorted
  | "limit" => some limit
  | "skip" => some skip
  | "findFirst" => some findFirst
  | "size" => some size
  | "isEmpty" => some isEmpty
  | "contains" => some contains
  | _ => none

/-- The least and the greatest number of arguments. -/
def arity : CollectionMethod → Nat × Nat
  | stream | toList | count | sum | average | distinct | findFirst | size | isEmpty => (0, 0)
  | filter | map | forEach | anyMatch | allMatch | noneMatch | limit | skip | contains => (1, 1)
  | min | max | sorted => (0, 1)
  | reduce => (1, 2)

end CollectionMethod

namespace Collection

/-- The application of a lambda that was passed to a method. -/
abbrev Lambda := List Value → Action Value

def lambdaArg (services : Services) (method : String) (arg : Value) : Action Lambda :=
  match arg with
  | .lambda r => return services.invoke r
  | _ => throw (.error (.wrongArgument method "lambda"))

/-- The lambda that the first argument is, if there is one. -/
def lambdaArg? (services : Services) (method : String) (args : List Value) :
    Action (Option Lambda) :=
  match args with
  | [] => return none
  | arg :: _ => some <$> lambdaArg services method arg

/-!
## Filters, maps and folds
-/

def filtered (predicate : Lambda) : List Value → Action (List Value)
  | [] => return []
  | item :: rest => do
    let keep ← World.truth (← predicate [item])
    let kept ← filtered predicate rest
    return if keep then item :: kept else kept

/-- The results of a lambda on the elements. -/
def mapped (transform : Lambda) : List Value → Action (List Value)
  | [] => return []
  | item :: rest => do
    let image ← transform [item]
    return image :: (← mapped transform rest)

/-- Combine the elements with an accumulated value, from left to right. -/
def folded (combine : Lambda) (acc : Value) : List Value → Action Value
  | [] => return acc
  | item :: rest => do folded combine (← combine [acc, item]) rest

/-- Whether the truth of a predicate is `wanted` for some element; later elements are not
asked. -/
def someIs (wanted : Bool) (predicate : Lambda) : List Value → Action Bool
  | [] => return false
  | item :: rest => do
    if (← World.truth (← predicate [item])) == wanted then return true
    else someIs wanted predicate rest

/-- Whether the truth of a predicate is `wanted` for some element; all elements are asked. -/
def someIsOfAll (wanted : Bool) (predicate : Lambda) : List Value → Action Bool
  | [] => return false
  | item :: rest => do
    let here := (← World.truth (← predicate [item])) == wanted
    let later ← someIsOfAll wanted predicate rest
    return here || later

/-- The sum of the elements, from left to right. -/
def total (heap : Heap) (items : List Value) : Except EvalError Value :=
  items.foldlM (heap.arithmetic .add) (.long 0)

/-!
## Order
-/

/-- The order of two elements: the sign of the comparator's result, or their natural order.
Elements that cannot be ordered count as equal. -/
def order (comparator : Option Lambda) (a b : Value) : Action Ordering := do
  match comparator with
  | some comparator =>
    let sign ← comparator [a, b]
    return (← .ofExcept ((← World.heapNow).compare .gt sign (.long 0))).getD .eq
  | none => return (← .ofExcept ((← World.heapNow).compare .lt a b)).getD .eq

/-- The first element that no other precedes in the sense of `wanted`, after `best`. -/
def extreme (comparator : Option Lambda) (wanted : Ordering) (best : Value) :
    List Value → Action Value
  | [] => return best
  | item :: rest => do
    if (← order comparator item best) = wanted then extreme comparator wanted item rest
    else extreme comparator wanted best rest

/-- The elements sorted so far, the greatest first, and the first error of a comparison.  A
comparison that fails counts as equality. -/
structure Sorting where
  reversed : List Value
  failure : Option EvalError

/-- Place an element among sorted ones, the greatest first, behind those it precedes. -/
def place (comparator : Option Lambda) (item : Value) (failure : Option EvalError) :
    List Value → Action Sorting
  | [] => return ⟨[item], failure⟩
  | greatest :: rest => do
    match ← (order comparator item greatest).attempt with
    | .ok .lt => do
      let placed ← place comparator item failure rest
      return ⟨greatest :: placed.reversed, placed.failure⟩
    | .ok _ => return ⟨item :: greatest :: rest, failure⟩
    | .error e => return ⟨item :: greatest :: rest, failure <|> some e⟩

/-- The elements in ascending order; equal ones keep their order. -/
def sorted (comparator : Option Lambda) (items : List Value) : Action (List Value) := do
  let sorting ← items.foldlM
    (fun sorting item => place comparator item sorting.failure sorting.reversed) ⟨[], none⟩
  match sorting.failure with
  | some e => throw (.error e)
  | none => return sorting.reversed.reverse

/-!
## Methods
-/

/-- A number of elements; a negative one is zero. -/
def countArg (arg : Value) : Action Nat := do
  return (← .ofExcept ((← World.heapNow).toInt64 arg)).toInt.toNat

def query (items : List Value) (heap : Heap) : CollectionMethod → Action Value
  | .count => return .long (Int64.ofNat items.length)
  | .sum => .ofExcept (total heap items)
  | .average =>
    if items.isEmpty then return .null
    else do
      let sum ← .ofExcept (total heap items >>= heap.toBinary64)
      return .double (sum.div (.ofInt _ items.length))
  | .distinct => World.newList (heap.distinct items)
  | .findFirst => return items.headD .null
  | .size => return .ofCount items.length
  | .isEmpty => return .bool items.isEmpty
  | _ => World.newList items

/-- A method on elements; the number of arguments fits the method. -/
def run (services : Services) (method : CollectionMethod) (name : String)
    (items args : List Value) : Action Value :=
  let lambda (arg : Value) := lambdaArg services name arg
  match method, args with
  | .filter, [arg] => do World.newList (← filtered (← lambda arg) items)
  | .map, [arg] => do World.newList (← mapped (← lambda arg) items)
  | .forEach, [arg] => do
    let _ ← mapped (← lambda arg) items
    return .null
  | .reduce, [arg] =>
    match items with
    | [] => return .null
    | head :: rest => do folded (← lambda arg) head rest
  | .reduce, [identity, arg] => do folded (← lambda arg) identity items
  | .anyMatch, [arg] => do return .bool (← someIs true (← lambda arg) items)
  | .allMatch, [arg] => do return .bool !(← someIs false (← lambda arg) items)
  | .noneMatch, [arg] => do return .bool !(← someIsOfAll true (← lambda arg) items)
  | .limit, [arg] => do World.newList (items.take (← countArg arg))
  | .skip, [arg] => do World.newList (items.drop (← countArg arg))
  | .contains, [arg] => do
    let heap ← World.heapNow
    return .bool (items.any (heap.equal · arg))
  | .min, _ => do
    let comparator ← lambdaArg? services name args
    match items with
    | [] => return .null
    | head :: rest => extreme comparator .lt head rest
  | .max, _ => do
    let comparator ← lambdaArg? services name args
    match items with
    | [] => return .null
    | head :: rest => extreme comparator .gt head rest
  | .sorted, _ => do
    let comparator ← lambdaArg? services name args
    World.newList (← sorted comparator items)
  | query, _ => do Collection.query items (← World.heapNow) query

end Collection

def Resolver.collectionMethods : Resolver :=
  { Resolver.silent "stream" with
    invoke := fun services base name args => do
      match (← World.heapNow).items? base, CollectionMethod.ofName? name with
      | some items, some method =>
        let (least, greatest) := method.arity
        if args.length < least || greatest < args.length then
          .fail (.arityMismatch name least args.length)
        else return .resolved (← Collection.run services method name items args)
      | _, _ => return .unresolved }

end ExprLang
