import ExprLang.Text.Letter
import ExprLang.Token

/-!
# Lexemes

`Lexeme.next?` reads the longest token at the head of text.  A name that spells a word of
the token table is that word.
-/

namespace ExprLang

/-- A token kind with the characters it was read from. -/
structure Lexeme where
  text : List Char
  kind : TokenKind

namespace Lexeme

/-!
## The token table
-/

/-- The words with a meaning of their own. -/
def words : List (String × TokenKind) := [
  ("true", .true), ("false", .false), ("null", .null), ("empty", .empty),
  ("div", .slash), ("mod", .percent), ("eq", .eqEq), ("ne", .notEq),
  ("lt", .lt), ("le", .ltEq), ("gt", .gt), ("ge", .gtEq),
  ("and", .andAnd), ("or", .orOr), ("not", .bang)]

/-- The symbols, every symbol before those that begin it. -/
def symbols : List (String × TokenKind) := [
  ("+=", .plusEq), ("->", .arrow), ("==", .eqEq), ("!=", .notEq), ("<=", .ltEq),
  (">=", .gtEq), ("&&", .andAnd), ("||", .orOr),
  ("+", .plus), ("-", .minus), ("*", .star), ("/", .slash), ("%", .percent), ("<", .lt),
  (">", .gt), ("!", .bang), ("?", .question), (":", .colon), ("=", .eq), (";", .semicolon),
  (",", .comma), (".", .dot), ("(", .lparen), (")", .rparen), ("[", .lbracket),
  ("]", .rbracket), ("\x7b", .lbrace), ("\x7d", .rbrace)]

/-- Whether a character may start a name. -/
def isNameStart (c : Char) : Bool := Text.isLetter c || c = '_' || c = '$'

/-- Whether a character may continue a name. -/
def isNamePart (c : Char) : Bool := isNameStart c || Text.isNumber c

/-!
## Names and symbols
-/

/-- The name at the head of text, or the word it spells. -/
def word (text : List Char) : Lexeme :=
  let name := text.takeWhile isNamePart
  ⟨name, (words.lookup (String.ofList name)).getD (.ident (String.ofList name))⟩

/-- The longest symbol at the head of text. -/
def symbol? (text : List Char) : Option Lexeme :=
  (symbols.find? fun entry => entry.1.toList.isPrefixOf text).map fun entry =>
    ⟨entry.1.toList, entry.2⟩

/-!
## Numbers
-/

/-- The exponent at the head of text: a mark, an optional sign and digits; empty if there is
none. -/
def exponentPart : List Char → List Char
  | [] => []
  | c :: rest =>
    let sign := rest.take 1 |>.filter fun s => s = '+' || s = '-'
    let digits := (rest.drop sign.length).takeWhile Char.isDigit
    if (c = 'e' || c = 'E') && !digits.isEmpty then c :: sign ++ digits else []

/-- An integer literal: 64 bits if it fits them, its digits without leading zeros if not. -/
def integer (digits : List Char) : Lexeme :=
  let n := digitsValue digits
  ⟨digits, if n < Nat.pow 2 63 then .int (Int64.ofNat n)
    else .bigInt (String.ofList (digits.dropWhile (· = '0')))⟩

/-- A floating literal, rounded once from its decimal text. -/
def float (text : List Char) : Lexeme :=
  let (digits, exponent) := (Binary.readUnsigned? text).getD (0, 0)
  ⟨text, .float (Binary.ofDecimal _ false digits exponent)⟩

/-- The number at the head of text.  A point needs a digit on one side, and a mark without
digits after it is not part of the number. -/
def number? (text : List Char) : Option Lexeme :=
  let whole := text.takeWhile Char.isDigit
  match text.dropWhile Char.isDigit with
  | '.' :: rest =>
    let fraction := rest.takeWhile Char.isDigit
    if whole.isEmpty && fraction.isEmpty then none
    else some (float (whole ++ '.' :: fraction ++ exponentPart (rest.dropWhile Char.isDigit)))
  | rest =>
    if whole.isEmpty then none
    else if (exponentPart rest).isEmpty then some (integer whole)
    else some (float (whole ++ exponentPart rest))

/-!
## Strings
-/

/-- The characters before the closing quote.  A backslash takes the next character with it,
which may not be a line feed. -/
def stringBody? (quote : Char) : List Char → Option (List Char)
  | [] => none
  | '\\' :: c :: rest =>
    if c = '\n' then none else (stringBody? quote rest).map fun body => '\\' :: c :: body
  | c :: rest =>
    if c = quote then some []
    else if c = '\\' then none
    else (stringBody? quote rest).map (c :: ·)

/-- How many characters of an unclosed string are read before it fails. -/
def unclosedLength : List Char → Nat
  | [] => 0
  | '\\' :: c :: rest => if c = '\n' then 0 else unclosedLength rest + 2
  | c :: rest => if c = '\\' then 0 else unclosedLength rest + 1

/-- The text that a string body stands for; an unknown escape stands for itself. -/
def unescape : List Char → List Char
  | [] => []
  | '\\' :: c :: rest =>
    let decoded :=
      if c = '\\' || c = '\'' || c = '"' then [c]
      else if c = 'n' then ['\n']
      else if c = 't' then ['\t']
      else if c = 'r' then ['\r']
      else ['\\', c]
    decoded ++ unescape rest
  | c :: rest => c :: unescape rest

/-- The string literal after an opening quote. -/
def string? (quote : Char) (rest : List Char) : Option Lexeme :=
  (stringBody? quote rest).map fun body =>
    ⟨quote :: body ++ [quote], .string (String.ofList (unescape body))⟩

def isQuote (c : Char) : Bool := c = '"' || c = '\''

/-- The longest lexeme at the head of text. -/
def next? : List Char → Option Lexeme
  | [] => none
  | c :: rest =>
    if isNameStart c then some (word (c :: rest))
    else if isQuote c then string? c rest
    else (number? (c :: rest)).or (symbol? (c :: rest))

end Lexeme
end ExprLang
