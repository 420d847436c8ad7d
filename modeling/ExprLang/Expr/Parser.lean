import ExprLang.Expr
import ExprLang.Token.Lexer

/-!
# Reading expressions

A recursive-descent reader of token lists.  From the loosest level to the tightest the
grammar has: sequences, lambdas and assignments, choices, the binary levels of `Level`,
prefix operators, and values with their suffixes.

Each reader returns the tokens it leaves together with a proof that they are fewer than it
was given, which is why the whole reader terminates.
-/

namespace ExprLang

/-- Why a token list, or the text of one, is not an expression. -/
inductive ParseError
  | lex (error : LexError)
  | unexpectedToken (expected found : String) (span : Span)
  | expectedExpression (found : String) (span : Span)
  /-- A template with both immediate and deferred expressions. -/
  | mixedDelimiters
  deriving DecidableEq

namespace ParseError

/-- The name of the kind of error. -/
def name : ParseError → String
  | lex error => error.name
  | unexpectedToken .. => "UnexpectedToken"
  | expectedExpression .. => "ExpectedExpression"
  | mixedDelimiters => "MixedDelimiters"

def span : ParseError → Span
  | lex error => error.span
  | unexpectedToken _ _ s | expectedExpression _ s => s
  | mixedDelimiters => ⟨0, 0⟩

def message : ParseError → String
  | lex error => error.message
  | unexpectedToken expected found s =>
    "expected " ++ expected ++ ", found " ++ found ++ " at " ++ s.text
  | expectedExpression found s => "expected expression, found " ++ found ++ " at " ++ s.text
  | mixedDelimiters => "expression mixes $\x7b...\x7d and #\x7b...\x7d segments"

end ParseError

/-- A value read from the front of a token list, and the tokens left, fewer than `bound`. -/
structure Parsed (α : Type) (bound : Nat) where
  value : α
  rest : List Token
  shorter : rest.length < bound

/-- The same value without the next token, if that token has the given kind. -/
def Parsed.eat? {α : Type} {bound : Nat} (kind : TokenKind) (parsed : Parsed α bound) :
    Option (Parsed α bound) :=
  match h : parsed.rest with
  | [] => none
  | token :: rest =>
    if token.kind = kind then
      some ⟨parsed.value, rest, by
        have := parsed.shorter
        simp only [h, List.length_cons] at this
        omega⟩
    else none

/-- The binary levels, loosest first. -/
inductive Level
  | or
  | and
  | equality
  | comparison
  | concat
  | additive
  | multiplicative
  deriving DecidableEq

namespace Level

/-- The next tighter level; `none` before the prefix operators. -/
def tighter : Level → Option Level
  | or => and
  | and => equality
  | equality => comparison
  | comparison => concat
  | concat => additive
  | additive => multiplicative
  | multiplicative => none

/-- The number of tighter levels. -/
def rank : Level → Nat
  | or => 6
  | and => 5
  | equality => 4
  | comparison => 3
  | concat => 2
  | additive => 1
  | multiplicative => 0

theorem rank_le (level : Level) : level.rank ≤ 6 := by
  cases level <;> decide

theorem rank_lt_of_tighter {level inner : Level} (h : level.tighter = some inner) :
    inner.rank < level.rank := by
  cases level <;> cases h <;> decide

/-- The application of the operator that a token denotes at this level. -/
def operator? : Level → TokenKind → Option (Expr → Expr → Expr)
  | or, .orOr => some (.binary .or)
  | and, .andAnd => some (.binary .and)
  | equality, .eqEq => some (.binary .eq)
  | equality, .notEq => some (.binary .notEq)
  | comparison, .lt => some (.binary .lt)
  | comparison, .ltEq => some (.binary .ltEq)
  | comparison, .gt => some (.binary .gt)
  | comparison, .gtEq => some (.binary .gtEq)
  | concat, .plusEq => some .concat
  | additive, .plus => some (.binary .add)
  | additive, .minus => some (.binary .sub)
  | multiplicative, .star => some (.binary .mul)
  | multiplicative, .slash => some (.binary .div)
  | multiplicative, .percent => some (.binary .mod)
  | _, _ => none

end Level

namespace Grammar

/-- The operator that a token denotes in front of an operand. -/
def unaryOp? : TokenKind → Option UnaryOp
  | .minus => some .neg
  | .bang => some .not
  | .empty => some .empty
  | _ => none

/-- The expression that a single token denotes. -/
def literal? : TokenKind → Option Expr
  | .int n => some (.int n)
  | .bigInt digits => some (.bigInt digits)
  | .float x => some (.float x)
  | .string s => some (.str s)
  | .true => some (.bool true)
  | .false => some (.bool false)
  | .null => some .null
  | _ => none

/-- The next token; past the end there is an empty one. -/
def head : List Token → Token
  | [] => ⟨.eof, ⟨0, 0⟩⟩
  | token :: _ => token

/-- The error at the next token when something else was expected. -/
def unexpected (expected : String) (tokens : List Token) : ParseError :=
  .unexpectedToken expected (head tokens).kind.description (head tokens).span

/-- Read a token of a kind without a value. -/
def expect (kind : TokenKind) (tokens : List Token) :
    Except ParseError (Parsed Unit tokens.length) :=
  match tokens with
  | [] => .error (unexpected kind.description [])
  | token :: rest =>
    if token.kind = kind then .ok ⟨(), rest, by simp⟩
    else .error (unexpected kind.description (token :: rest))

def expectName (tokens : List Token) : Except ParseError (Parsed String tokens.length) :=
  match tokens with
  | ⟨.ident name, _⟩ :: rest => .ok ⟨name, rest, by simp⟩
  | tokens => .error (unexpected "identifier" tokens)

/-- The parameters from the first name up to the arrow after the closing parenthesis. -/
def lambdaNames? (tokens : List Token) : Option (Parsed (List String) tokens.length) :=
  match tokens with
  | ⟨.ident name, _⟩ :: ⟨.rparen, _⟩ :: ⟨.arrow, _⟩ :: rest =>
    some ⟨[name], rest, by simp only [List.length_cons]; omega⟩
  | ⟨.ident name, _⟩ :: ⟨.comma, _⟩ :: rest =>
    match lambdaNames? rest with
    | some ⟨names, after, h⟩ =>
      some ⟨name :: names, after, by simp only [List.length_cons]; omega⟩
    | none => none
  | _ => none

/-- The head of a lambda, `x ->` or `(a, b) ->`, and the tokens of its body. -/
def lambdaHead? (tokens : List Token) : Option (Parsed (List String) tokens.length) :=
  match tokens with
  | ⟨.ident name, _⟩ :: ⟨.arrow, _⟩ :: rest =>
    some ⟨[name], rest, by simp only [List.length_cons]; omega⟩
  | ⟨.lparen, _⟩ :: ⟨.rparen, _⟩ :: ⟨.arrow, _⟩ :: rest =>
    some ⟨[], rest, by simp only [List.length_cons]; omega⟩
  | ⟨.lparen, _⟩ :: rest =>
    match lambdaNames? rest with
    | some ⟨names, after, h⟩ => some ⟨names, after, by simp only [List.length_cons]; omega⟩
    | none => none
  | _ => none

def adjacent (s t : Span) : Bool := s.stop = t.start

/-- A name, qualified by another when a colon touches both and an argument list follows. -/
def name (first : String) (span : Span) (tokens : List Token) :
    Parsed Expr (tokens.length + 1) :=
  match tokens with
  | ⟨.colon, colon⟩ :: ⟨.ident second, inner⟩ :: ⟨.lparen, paren⟩ :: rest =>
    if adjacent span colon && adjacent colon inner then
      ⟨.ident (first ++ ":" ++ second), ⟨.lparen, paren⟩ :: rest,
        by simp only [List.length_cons]; omega⟩
    else
      ⟨.ident first, ⟨.colon, colon⟩ :: ⟨.ident second, inner⟩ :: ⟨.lparen, paren⟩ :: rest,
        Nat.lt_succ_self _⟩
  | tokens => ⟨.ident first, tokens, Nat.lt_succ_self _⟩

mutual

def sequence (tokens : List Token) : Except ParseError (Parsed Expr tokens.length) := do
  let ⟨left, rest, _⟩ ← assignment tokens
  let ⟨whole, rest, _⟩ ← sequenceTail left rest
  pure ⟨whole, rest, by omega⟩
termination_by 32 * tokens.length + 19

/-- The rest of a sequence after its left side. -/
def sequenceTail (left : Expr) (tokens : List Token) :
    Except ParseError (Parsed Expr (tokens.length + 1)) :=
  match tokens with
  | ⟨.semicolon, _⟩ :: rest => do
    let ⟨right, rest, _⟩ ← assignment rest
    let ⟨whole, rest, _⟩ ← sequenceTail (.seq left right) rest
    pure ⟨whole, rest, by simp only [List.length_cons]; omega⟩
  | tokens => pure ⟨left, tokens, Nat.lt_succ_self _⟩
termination_by 32 * tokens.length

/-- A lambda, an assignment or a choice. -/
def assignment (tokens : List Token) : Except ParseError (Parsed Expr tokens.length) :=
  match lambdaHead? tokens with
  | some ⟨params, rest, _⟩ => do
    let ⟨body, rest, _⟩ ← assignment rest
    pure ⟨.lambda params body, rest, by omega⟩
  | none => do
    let parsed ← choice tokens
    match parsed.eat? .eq with
    | some ⟨target, rest, _⟩ => do
      let ⟨value, rest, _⟩ ← assignment rest
      pure ⟨.assign target value, rest, by omega⟩
    | none => pure parsed
termination_by 32 * tokens.length + 18

/-- A condition with its two branches, or an expression of the binary levels. -/
def choice (tokens : List Token) : Except ParseError (Parsed Expr tokens.length) := do
  let parsed ← binaryAt .or tokens
  match parsed.eat? .question with
  | some ⟨condition, rest, _⟩ => do
    let ⟨yes, rest, _⟩ ← choice rest
    let ⟨_, rest, _⟩ ← expect .colon rest
    let ⟨no, rest, _⟩ ← choice rest
    pure ⟨.ternary condition yes no, rest, by omega⟩
  | none => pure parsed
termination_by 32 * tokens.length + 17
decreasing_by
  · simp only [Level.rank]; omega
  · omega
  · omega

/-- Operands of a level joined by its operators, from left to right. -/
def binaryAt (level : Level) (tokens : List Token) :
    Except ParseError (Parsed Expr tokens.length) := do
  let ⟨left, rest, _⟩ ← operandOf level tokens
  let ⟨whole, rest, _⟩ ← binaryTail level left rest
  pure ⟨whole, rest, by omega⟩
termination_by 32 * tokens.length + 2 * level.rank + 4

/-- An operand of a level: an expression of the next tighter one. -/
def operandOf (level : Level) (tokens : List Token) :
    Except ParseError (Parsed Expr tokens.length) :=
  match _h : level.tighter with
  | some inner => binaryAt inner tokens
  | none => unary tokens
termination_by 32 * tokens.length + 2 * level.rank + 3
decreasing_by
  · have := Level.rank_lt_of_tighter _h
    omega
  · omega

/-- The rest of a level after its left operand. -/
def binaryTail (level : Level) (left : Expr) (tokens : List Token) :
    Except ParseError (Parsed Expr (tokens.length + 1)) :=
  match tokens with
  | [] => pure ⟨left, [], Nat.lt_succ_self _⟩
  | token :: rest =>
    match level.operator? token.kind with
    | none => pure ⟨left, token :: rest, Nat.lt_succ_self _⟩
    | some apply => do
      let ⟨right, rest, _⟩ ← operandOf level rest
      let ⟨whole, rest, _⟩ ← binaryTail level (apply left right) rest
      pure ⟨whole, rest, by simp only [List.length_cons]; omega⟩
termination_by 32 * tokens.length
decreasing_by
  · have := Level.rank_le level
    simp only [List.length_cons]; omega
  · simp only [List.length_cons]; omega

/-- Prefix operators and a value. -/
def unary (tokens : List Token) : Except ParseError (Parsed Expr tokens.length) :=
  match tokens with
  | [] => value []
  | token :: rest =>
    match unaryOp? token.kind with
    | some op => do
      let ⟨operand, rest, _⟩ ← unary rest
      pure ⟨.unary op operand, rest, by simp only [List.length_cons]; omega⟩
    | none => value (token :: rest)
termination_by 32 * tokens.length + 2

/-- A primary expression and its suffixes. -/
def value (tokens : List Token) : Except ParseError (Parsed Expr tokens.length) := do
  let ⟨first, rest, _⟩ ← primary tokens
  let ⟨whole, rest, _⟩ ← suffixes first rest
  pure ⟨whole, rest, by omega⟩
termination_by 32 * tokens.length + 1

/-- Member, index and call suffixes. -/
def suffixes (object : Expr) (tokens : List Token) :
    Except ParseError (Parsed Expr (tokens.length + 1)) :=
  match tokens with
  | ⟨.dot, _⟩ :: rest => do
    let ⟨property, rest, _⟩ ← expectName rest
    let ⟨whole, rest, _⟩ ← suffixes (.member object property) rest
    pure ⟨whole, rest, by simp only [List.length_cons]; omega⟩
  | ⟨.lbracket, _⟩ :: rest => do
    let ⟨key, rest, _⟩ ← sequence rest
    let ⟨_, rest, _⟩ ← expect .rbracket rest
    let ⟨whole, rest, _⟩ ← suffixes (.index object key) rest
    pure ⟨whole, rest, by simp only [List.length_cons]; omega⟩
  | ⟨.lparen, _⟩ :: rest => do
    let ⟨args, rest, _⟩ ← itemsUntil .rparen rest
    let ⟨whole, rest, _⟩ ← suffixes (.call object args) rest
    pure ⟨whole, rest, by simp only [List.length_cons]; omega⟩
  | tokens => pure ⟨object, tokens, Nat.lt_succ_self _⟩
termination_by 32 * tokens.length

/-- A literal, a name, or an expression in brackets. -/
def primary (tokens : List Token) : Except ParseError (Parsed Expr tokens.length) :=
  match tokens with
  | ⟨.ident first, span⟩ :: rest => pure (name first span rest)
  | ⟨.lparen, _⟩ :: rest => do
    let ⟨inner, rest, _⟩ ← sequence rest
    let ⟨_, rest, _⟩ ← expect .rparen rest
    pure ⟨inner, rest, by simp only [List.length_cons]; omega⟩
  | ⟨.lbracket, _⟩ :: rest => do
    let ⟨items, rest, _⟩ ← itemsUntil .rbracket rest
    pure ⟨.list items, rest, by simp only [List.length_cons]; omega⟩
  | ⟨.lbrace, _⟩ :: rest => do
    let ⟨braced, rest, _⟩ ← setOrMap rest
    pure ⟨braced, rest, by simp only [List.length_cons]; omega⟩
  | tokens =>
    match tokens, literal? (head tokens).kind with
    | _ :: rest, some e => pure ⟨e, rest, by simp⟩
    | tokens, _ =>
      throw (.expectedExpression (head tokens).kind.description (head tokens).span)
termination_by 32 * tokens.length

/-- A comma-separated list, possibly empty, and its closing token. -/
def itemsUntil (close : TokenKind) (tokens : List Token) :
    Except ParseError (Parsed (List Expr) tokens.length) :=
  if (head tokens).kind = close then do
    let ⟨_, rest, h⟩ ← expect close tokens
    pure ⟨[], rest, h⟩
  else do
    let ⟨items, rest, _⟩ ← itemList tokens
    let ⟨_, rest, _⟩ ← expect close rest
    pure ⟨items, rest, by omega⟩
termination_by 32 * tokens.length + 21

/-- One or more expressions separated by commas. -/
def itemList (tokens : List Token) :
    Except ParseError (Parsed (List Expr) tokens.length) := do
  let ⟨item, rest, _⟩ ← assignment tokens
  let ⟨items, rest, _⟩ ← itemTail rest
  pure ⟨item :: items, rest, by omega⟩
termination_by 32 * tokens.length + 20

def itemTail (tokens : List Token) :
    Except ParseError (Parsed (List Expr) (tokens.length + 1)) :=
  match tokens with
  | ⟨.comma, _⟩ :: rest => do
    let ⟨item, rest, _⟩ ← assignment rest
    let ⟨items, rest, _⟩ ← itemTail rest
    pure ⟨item :: items, rest, by simp only [List.length_cons]; omega⟩
  | tokens => pure ⟨[], tokens, Nat.lt_succ_self _⟩
termination_by 32 * tokens.length

/-- What follows an opening brace: a map when a colon follows the first element, otherwise a
set. -/
def setOrMap (tokens : List Token) : Except ParseError (Parsed Expr tokens.length) :=
  match tokens with
  | ⟨.rbrace, _⟩ :: rest => pure ⟨.set [], rest, by simp⟩
  | tokens => do
    let parsed ← assignment tokens
    match parsed.eat? .colon with
    | some ⟨first, rest, _⟩ => do
      let ⟨value, rest, _⟩ ← assignment rest
      let ⟨entries, rest, _⟩ ← entryTail rest
      let ⟨_, rest, _⟩ ← expect .rbrace rest
      pure ⟨.map ((first, value) :: entries), rest, by omega⟩
    | none => do
      let ⟨items, rest, _⟩ ← itemTail parsed.rest
      let ⟨_, rest, _⟩ ← expect .rbrace rest
      pure ⟨.set (parsed.value :: items), rest, by have := parsed.shorter; omega⟩
termination_by 32 * tokens.length + 20
decreasing_by
  · omega
  · omega
  · omega
  · have := parsed.shorter
    omega

/-- Further entries of a map, each after a comma. -/
def entryTail (tokens : List Token) :
    Except ParseError (Parsed (List (Expr × Expr)) (tokens.length + 1)) :=
  match tokens with
  | ⟨.comma, _⟩ :: rest => do
    let ⟨key, rest, _⟩ ← assignment rest
    let ⟨_, rest, _⟩ ← expect .colon rest
    let ⟨value, rest, _⟩ ← assignment rest
    let ⟨entries, rest, _⟩ ← entryTail rest
    pure ⟨(key, value) :: entries, rest, by simp only [List.length_cons]; omega⟩
  | tokens => pure ⟨[], tokens, Nat.lt_succ_self _⟩
termination_by 32 * tokens.length

end

end Grammar

namespace Expr

/-- The expression that a whole token list denotes. -/
def ofTokens (tokens : List Token) : Except ParseError Expr := do
  let ⟨e, rest, _⟩ ← Grammar.sequence tokens
  if (Grammar.head rest).kind = .eof then pure e
  else throw (Grammar.unexpected "end of expression" rest)

/-- The expression that a text denotes. -/
def parse (source : String) : Except ParseError Expr :=
  match Token.list source.toList with
  | .error e => .error (.lex e)
  | .ok tokens => ofTokens tokens

end Expr
end ExprLang
