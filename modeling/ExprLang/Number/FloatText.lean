import ExprLang.Number.Shortest
import ExprLang.Number.Digits
import ExprLang.Text.Blank

/-!
# Floating-point text

Both written forms use the shortest digits.  They differ in the exponents written without
an exponent mark, in the mark, and in the words for the infinities; `FloatStyle` holds
these choices.  Numeric text allows surrounding white space and a trailing type suffix.
-/

namespace ExprLang

structure FloatStyle where
  /-- The least exponent of the first digit written positionally. -/
  lowest : Int
  /-- The first exponent no longer written positionally. -/
  highest : Int
  /-- What stands before an exponent. -/
  mark : Char
  /-- Whether a single digit before an exponent gets a fraction of zero. -/
  padded : Bool
  /-- The word for an infinity. -/
  infinity : String

/-- Literals in expression text: exponents from sixteen on and below minus four. -/
def FloatStyle.literal : FloatStyle := ⟨-4, 16, 'e', false, "inf"⟩

/-- Text of a value: exponents from seven on and below minus three. -/
def FloatStyle.display : FloatStyle := ⟨-3, 7, 'E', true, "Infinity"⟩

/-- Digits with the point in its place and at least one digit on either side. -/
def positional (digits : List Char) (exponent : Int) : List Char :=
  if exponent < 0 then '0' :: '.' :: List.replicate (-exponent - 1).toNat '0' ++ digits
  else
    let whole := exponent.toNat + 1
    let fraction := digits.drop whole
    digits.take whole ++ List.replicate (whole - digits.length) '0'
      ++ '.' :: (if fraction.isEmpty then ['0'] else fraction)

def exponential (style : FloatStyle) (digits : List Char) (exponent : Int) : List Char :=
  let fraction := digits.drop 1
  let point :=
    if !fraction.isEmpty then '.' :: fraction else if style.padded then ['.', '0'] else []
  digits.take 1 ++ point ++ style.mark :: (intText exponent).toList

namespace Binary

variable {f : BinaryFormat}

/-- The text of a number in a style; every NaN is written alike. -/
def textIn (style : FloatStyle) (x : Binary f) : String :=
  let sign := if x.isNegative then ['-'] else []
  if x.isNaN then "NaN"
  else if x.isInfinite then String.ofList (sign ++ style.infinity.toList)
  else if x.isZero then String.ofList (sign ++ ['0', '.', '0'])
  else
    let decimal := x.shortest
    let digits := natDigits decimal.digits
    let body :=
      if style.lowest ≤ decimal.exponent && decimal.exponent < style.highest then
        positional digits decimal.exponent
      else exponential style digits decimal.exponent
    String.ofList (sign ++ body)

/-- The text of the number as a value. -/
def text (x : Binary f) : String := x.textIn .display

/-- The text of the number as a literal. -/
def literal (x : Binary f) : String := x.textIn .literal

/-!
## Reading
-/

/-- An exponent at the head of text: the mark, an optional sign and digits. -/
def readMarkedExponent? : List Char → Option Int
  | [] => some 0
  | c :: rest => if c = 'e' || c = 'E' then readInt? rest else none

/-- A decimal number without a sign: digits, a point among them or not, and an exponent. -/
def readUnsigned? (text : List Char) : Option (Nat × Int) := do
  let whole := text.takeWhile Char.isDigit
  let rest := text.dropWhile Char.isDigit
  let (fraction, rest) := match rest with
    | '.' :: rest => (rest.takeWhile Char.isDigit, rest.dropWhile Char.isDigit)
    | rest => ([], rest)
  let exponent ← readMarkedExponent? rest
  if whole.isEmpty && fraction.isEmpty then none
  else some (digitsValue (whole ++ fraction), exponent - fraction.length)

/-- Number text: an optional sign, then a decimal number or, in any case, `nan`, `inf` or
`infinity`. -/
def read? (f : BinaryFormat) (text : List Char) : Option (Binary f) :=
  let (negative, unsigned) := splitSign text
  let word := String.ofList (unsigned.map Char.toLower)
  if word = "nan" then some (nan f negative)
  else if word = "inf" || word = "infinity" then some (infinity f negative)
  else (readUnsigned? unsigned).map fun (digits, exponent) =>
    ofDecimal f negative digits exponent

/-- Whether a character is a type suffix of number text. -/
def isTypeSuffix (c : Char) : Bool := c = 'd' || c = 'D' || c = 'f' || c = 'F'

/-- Number text with white space around it and one type suffix at its end.  The suffix goes
before the text is read, so the short word for infinity does not survive. -/
def readLenient? (f : BinaryFormat) (text : List Char) : Option (Binary f) :=
  let trimmed := Text.trim text
  match trimmed.getLast? with
  | none => none
  | some c => read? f (if isTypeSuffix c then trimmed.dropLast else trimmed)

end Binary
end ExprLang
