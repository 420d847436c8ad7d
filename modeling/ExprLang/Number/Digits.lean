/-!
# Decimal digits

Reading and writing natural numbers and integers as ASCII decimal digits.
-/

namespace ExprLang

/-- The number that a run of ASCII digits denotes, most significant digit first. -/
def digitsValue (digits : List Char) : Nat :=
  digits.foldl (fun n c => 10 * n + (c.toNat - '0'.toNat)) 0

/-- Split off an optional sign; the flag says whether it is a minus. -/
def splitSign : List Char → Bool × List Char
  | '-' :: rest => (true, rest)
  | '+' :: rest => (false, rest)
  | text => (false, text)

/-- Integer text: an optional sign and at least one ASCII digit. -/
def readInt? (text : List Char) : Option Int :=
  let (negative, digits) := splitSign text
  if digits.isEmpty || !digits.all Char.isDigit then none
  else some (if negative then -(digitsValue digits : Int) else digitsValue digits)

/-- Integer text with a value from `low` to `high`. -/
def readIntWithin? (low high : Int) (text : List Char) : Option Int :=
  (readInt? text).filter fun n => low ≤ n && n ≤ high

/-- Why text is not a big integer. -/
inductive BigIntFault
  | empty
  | invalid
  deriving DecidableEq

def BigIntFault.message : BigIntFault → String
  | .empty => "cannot parse integer from empty string"
  | .invalid => "invalid digit found in string"

/-- The magnitude part of big integer text: digits, among which underscores may stand
anywhere but first. -/
def readMagnitude (text : List Char) : Except BigIntFault Nat :=
  if text.isEmpty then .error .empty
  else if text.head? = some '_' then .error .invalid
  else if text.all fun c => c.isDigit || c = '_' then
    .ok (digitsValue (text.filter Char.isDigit))
  else .error .invalid

/-- Drop one sign character unless a plus follows it. -/
def dropSign (sign : Char) : List Char → Option (List Char)
  | [] => none
  | c :: rest => if c = sign && rest.head? != some '+' then some rest else none

/-- Big integer text: a minus may lead, otherwise a plus may; then a magnitude.  A minus in
front of a plus is left standing and makes the text invalid. -/
def readBigInt (text : List Char) : Except BigIntFault Int := do
  let negative := text.head? = some '-'
  let unsigned := (dropSign '-' text).getD text
  let magnitude ← readMagnitude ((dropSign '+' unsigned).getD unsigned)
  pure (if negative then -(magnitude : Int) else magnitude)

/-- Big integer text without the reason of a failure. -/
def readBigInt? (text : List Char) : Option Int := (readBigInt text).toOption

/-- The decimal digits of a natural number. -/
def natDigits (n : Nat) : List Char := Nat.toDigits 10 n

def intText (n : Int) : String :=
  String.ofList (if n < 0 then '-' :: natDigits n.natAbs else natDigits n.natAbs)

/-- How many decimal digits a natural number has; zero has one. -/
def digitCount (n : Nat) : Nat := (natDigits n).length

end ExprLang
