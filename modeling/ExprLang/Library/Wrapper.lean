import ExprLang.Host.Class
import ExprLang.Text.Alphabetic
import ExprLang.Text.Case

/-!
# Classes of the primitive kinds

The least and greatest values of the primitive kinds, the readers of their text, and the
classes of characters.
-/

namespace ExprLang
namespace Library

def package : String := "java.lang"

def defaultClass (name : String) : ClassDef := .named (package ++ "." ++ name)

/-- A function that reads the heap at most. -/
def reading (name : String) (params : List ValueType) (returns : ValueType)
    (body : Heap → List Value → Except EvalError Value) : HostFunction where
  name := name
  params := params
  variadic := false
  returns := returns
  body args := do
    match body (← get) args with
    | .ok value => return value
    | .error error => throw error

/-- The argument at a position; a function is never called with fewer than it declares. -/
def arg (args : List Value) (position : Nat) : Value := args.getD position .null

/-- A function that only converts: its argument to one type, its result to another. -/
def converting (name : String) (param returns : ValueType) : HostFunction :=
  reading name [param] returns fun _ args => .ok (arg args 0)

/-- The class of a numeric kind, with the name of the reader of its text. -/
def wrapper (kind : Primitive) (reader : String) (least greatest : Value) : ClassDef :=
  (defaultClass kind.boxedName)
    |>.withField "MIN_VALUE" least
    |>.withField "MAX_VALUE" greatest
    |>.withMethod (converting reader .string (.primitive kind))
    |>.withMethod (converting "valueOf" .string (.boxed kind))

/-- Add the values of a floating-point kind that are no numbers. -/
def withSpecials (c : ClassDef) (nan positive negative : Value) : ClassDef :=
  c |>.withField "NaN" nan
    |>.withField "POSITIVE_INFINITY" positive
    |>.withField "NEGATIVE_INFINITY" negative

/-- The least positive number and the greatest finite one. -/
def leastPositive (f : BinaryFormat) : Binary f := .ofMagnitude f false 1
def greatestFinite (f : BinaryFormat) : Binary f := .ofMagnitude f false (f.infinityBits - 1)

def floatClass : ClassDef :=
  withSpecials
    (wrapper .float "parseFloat" (.float (leastPositive _)) (.float (greatestFinite _)))
    (.float (.nan _ false)) (.float (.infinity _ false)) (.float (.infinity _ true))

def doubleClass : ClassDef :=
  withSpecials
    (wrapper .double "parseDouble" (.double (leastPositive _)) (.double (greatestFinite _)))
    (.double (.nan _ false)) (.double (.infinity _ false)) (.double (.infinity _ true))

def truthReader (name : String) : HostFunction :=
  reading name [.string] .any fun _ args =>
    .ok (.bool (match arg args 0 with | .string s => Heap.readsTrue s | _ => false))

def booleanClass : ClassDef :=
  (defaultClass "Boolean")
    |>.withField "TRUE" (.bool true)
    |>.withField "FALSE" (.bool false)
    |>.withMethod (truthReader "parseBoolean")
    |>.withMethod (truthReader "valueOf")

def charTest (name : String) (test : Char → Bool) : HostFunction :=
  reading name [.primitive .char] .any fun _ args =>
    .ok (.bool (match arg args 0 with | .char c => test c | _ => false))

def charMap (name : String) (map : Char → Char) : HostFunction :=
  reading name [.primitive .char] .any fun _ args =>
    .ok (match arg args 0 with | .char c => .char (map c) | other => other)

def characterClass : ClassDef :=
  (defaultClass "Character")
    |>.withField "MIN_VALUE" (.char '\x00')
    |>.withField "MAX_VALUE" (.char '\uffff')
    |>.withMethod (charTest "isDigit" Char.isDigit)
    |>.withMethod (charTest "isLetter" Text.isAlphabetic)
    |>.withMethod (charTest "isWhitespace" Text.isBlank)
    |>.withMethod (charMap "toUpperCase" fun c => (Text.upperChar c).headD c)
    |>.withMethod (charMap "toLowerCase" fun c => (Text.lowerChar c).headD c)

def stringClass : ClassDef :=
  (defaultClass "String").withMethod <|
    reading "valueOf" [.any] .string fun heap args => .ok (.string (heap.text (arg args 0)))

end Library
end ExprLang
