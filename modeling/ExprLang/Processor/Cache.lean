import ExprLang.Table
import ExprLang.Template

/-!
# Compile cache

Compiled templates by their text.  The first template stored under a text stays.
-/

namespace ExprLang

/-- Compiled templates by text; a disabled cache stays empty. -/
structure Cache where
  enabled : Bool
  entries : Table Template

namespace Cache

def empty (enabled : Bool) : Cache := ⟨enabled, .empty⟩

def find? (cache : Cache) (text : String) : Option Template := cache.entries.find? text

/-- Store a template unless its text has one already, and answer with the one that counts. -/
def insert (cache : Cache) (text : String) (template : Template) : Template × Cache :=
  if !cache.enabled then (template, cache)
  else
    match cache.find? text with
    | some stored => (stored, cache)
    | none => (template, { cache with entries := cache.entries.insert text template })

/-- The template of a text, compiled unless it is stored. -/
def compile (cache : Cache) (text : String) : Except ParseError (Template × Cache) :=
  match cache.find? text with
  | some stored => .ok (stored, cache)
  | none => (cache.insert text ·) <$> Template.compile text

def size (cache : Cache) : Nat := cache.entries.size

def isEmpty (cache : Cache) : Bool := cache.entries.isEmpty

def clear (cache : Cache) : Cache := { cache with entries := .empty }

end Cache
end ExprLang
