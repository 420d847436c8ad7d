import ExprLang.Resolver
import ExprLang.Text.Case

/-!
# Methods of text

Searching, cutting and changing text.  Positions count characters.
-/

namespace ExprLang

/-- The methods of text with their numbers of arguments. -/
inductive TextMethod
  | length | isEmpty | toUpperCase | toLowerCase | trim
  | contains | startsWith | endsWith | concat | indexOf | charAt
  | substring

namespace TextMethod

def ofName? : String → Option TextMethod
  | "length" => some length
  | "isEmpty" => some isEmpty
  | "toUpperCase" => some toUpperCase
  | "toLowerCase" => some toLowerCase
  | "trim" => some trim
  | "contains" => some contains
  | "startsWith" => some startsWith
  | "endsWith" => some endsWith
  | "concat" => some concat
  | "indexOf" => some indexOf
  | "charAt" => some charAt
  | "substring" => some substring
  | _ => none

/-- The error of a position outside a text. -/
def outOfRange (position : Int64) (text : List Char) : EvalError :=
  .custom ("index " ++ intText position.toInt ++ " out of range for string of length "
    ++ intText text.length)

def character (text : List Char) (position : Int64) : Except EvalError Value :=
  match if position < 0 then none else text[position.toInt.toNat]? with
  | some c => .ok (.char c)
  | none => .error (outOfRange position text)

/-- The part of a text from one position to another. -/
def part (text : List Char) (start stop : Int64) : Except EvalError Value :=
  if 0 ≤ start && start ≤ stop && stop.toInt ≤ text.length then
    .ok (.string (String.ofList ((text.take stop.toInt.toNat).drop start.toInt.toNat)))
  else .error (outOfRange (if start < 0 then start else stop) text)

/-- The position of a text within another, or minus one. -/
def indexIn (needle text : List Char) : Value :=
  match Text.position? needle text with
  | some i => .ofCount i
  | none => .int (-1)

/-- A method on a text; the name is the one that messages give. -/
def run (heap : Heap) (method : TextMethod) (name : String) (s : String) (args : List Value) :
    Except EvalError Value :=
  let text := s.toList
  let wrongCount (expected : Nat) : Except EvalError Value :=
    .error (.of (.arityMismatch name expected args.length))
  match method, args with
  | length, [] => .ok (.ofCount text.length)
  | isEmpty, [] => .ok (.bool text.isEmpty)
  | toUpperCase, [] => .ok (.string (Text.toUpper s))
  | toLowerCase, [] => .ok (.string (Text.toLower s))
  | trim, [] => .ok (.string (String.ofList (Text.trim text)))
  | contains, [arg] => .ok (.bool (Text.occursIn (heap.text arg).toList text))
  | startsWith, [arg] => .ok (.bool ((heap.text arg).toList.isPrefixOf text))
  | endsWith, [arg] => .ok (.bool ((heap.text arg).toList.isSuffixOf text))
  | concat, [arg] => .ok (.string (s ++ heap.text arg))
  | indexOf, [arg] => .ok (indexIn (heap.text arg).toList text)
  | charAt, [arg] => do character text (← heap.toInt64 arg)
  | substring, [start] => do part text (← heap.toInt64 start) (Int64.ofNat text.length)
  | substring, [start, stop] => do part text (← heap.toInt64 start) (← heap.toInt64 stop)
  | length, _ | isEmpty, _ | toUpperCase, _ | toLowerCase, _ | trim, _ => wrongCount 0
  | contains, _ | startsWith, _ | endsWith, _ | concat, _ | indexOf, _ | charAt, _
  | substring, _ => wrongCount 1

end TextMethod

def Resolver.textMethods : Resolver :=
  { Resolver.silent "string" with
    invoke := fun _ base method args => do
      match base, TextMethod.ofName? method with
      | .string s, some m => return .resolved (← .ofExcept (m.run (← World.heapNow) method s args))
      | _, _ => return .unresolved }

end ExprLang
