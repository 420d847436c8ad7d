import ExprLang.Host.Class

/-!
# Imports

Which names stand for which classes.  A defined class is known by its qualified name; by its
simple name it is known once it, or its package, is imported.
-/

namespace ExprLang

/-- The defined classes, by number. -/
abbrev ClassTable := Array ClassDef

/-- The names that stand for classes, by the numbers of the classes. -/
structure Imports where
  /-- Defined classes by qualified name. -/
  known : Table Nat
  /-- Imported classes by simple name. -/
  classes : Table Nat
  /-- Imported packages, the earliest first. -/
  packages : List String
  /-- The classes of statically imported members, by member. -/
  statics : Table Nat

namespace Imports

def empty : Imports := ⟨.empty, .empty, [], .empty⟩

/-- Make a class known by its qualified name. -/
def define (imports : Imports) (c : ClassDef) (number : Nat) : Imports :=
  { imports with known := imports.known.insert c.qualifiedName number }

/-- Make a class known by its simple name too. -/
def addClass (imports : Imports) (c : ClassDef) (number : Nat) : Imports :=
  { imports.define c number with classes := imports.classes.insert c.name number }

/-- Make the classes of a package known by their simple names. -/
def addPackage (imports : Imports) (package : String) : Imports :=
  if imports.packages.contains package then imports
  else { imports with packages := imports.packages ++ [package] }

/-- The number of the class that a simple or qualified name stands for. -/
def find? (imports : Imports) (name : String) : Option Nat :=
  imports.classes.find? name
    <|> imports.known.find? name
    <|> imports.packages.findSome? fun package => imports.known.find? (package ++ "." ++ name)

/-- The number of the class whose member is imported under its own name. -/
def findStatic? (imports : Imports) (member : String) : Option Nat := imports.statics.find? member

/-- Import a member, written after its class and a dot, under its own name. -/
def addStatic (imports : Imports) (table : ClassTable) (path : String) :
    Except EvalError Imports :=
  match Text.splitLast? '.' path.toList with
  | none => .error (.custom ("static import '" ++ path ++ "' must name a class member"))
  | some (owner, member) =>
    let owner := String.ofList owner
    let member := String.ofList member
    match imports.find? owner with
    | none =>
      .error (.custom ("cannot import '" ++ path ++ "': class '" ++ owner ++ "' not found"))
    | some number =>
      if (table.getD number default).hasMember member then
        .ok { imports with statics := imports.statics.insert member number }
      else
        .error (.custom ("cannot import '" ++ path ++ "': '" ++ owner ++ "' has no member '"
          ++ member ++ "'"))

end Imports
end ExprLang
