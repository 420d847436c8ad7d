/-!
# Parts of text

Searching and cutting text, counted in characters.
-/

namespace ExprLang
namespace Text

/-- The text without a given beginning, if it starts with it. -/
def withoutLead (lead text : List Char) : List Char :=
  if lead.isPrefixOf text then text.drop lead.length else text

/-- The parts before and after the last occurrence of a mark. -/
def splitLast? (mark : Char) : List Char → Option (List Char × List Char)
  | [] => none
  | c :: rest =>
    match splitLast? mark rest with
    | some (before, after) => some (c :: before, after)
    | none => if c = mark then some ([], rest) else none

/-- The parts before and after the first occurrence of a mark. -/
def splitFirst? (mark : Char) : List Char → Option (List Char × List Char)
  | [] => none
  | c :: rest =>
    if c = mark then some ([], rest)
    else (splitFirst? mark rest).map fun (before, after) => (c :: before, after)

/-- The least position at which a text occurs in another. -/
def position? (needle : List Char) : List Char → Option Nat
  | [] => if needle.isEmpty then some 0 else none
  | c :: rest =>
    if needle.isPrefixOf (c :: rest) then some 0 else (position? needle rest).map (· + 1)

def occursIn (needle text : List Char) : Bool := (position? needle text).isSome

/-- The part of a dotted name after its last dot. -/
def simpleName (name : String) : String :=
  match splitLast? '.' name.toList with
  | some (_, simple) => String.ofList simple
  | none => name

/-- The part of a dotted name before its last dot. -/
def packageName (name : String) : String :=
  match splitLast? '.' name.toList with
  | some (package, _) => String.ofList package
  | none => ""

def joined (separator : String) (parts : List String) : String :=
  separator.intercalate parts

end Text
end ExprLang
