import ExprLang.Token.Lexeme

/-!
# Tokens of a text

`Token.list` reads a whole text as tokens, and `Token.listBody` reads up to the brace that
closes an expression inside a template.  Both lists end with one empty token at the end.
-/

namespace ExprLang

/-- Why a text is not a sequence of tokens. -/
inductive LexError
  | unexpectedChar (c : Char) (span : Span)
  | unterminatedString (span : Span)
  | unterminatedExpression (span : Span)
  deriving DecidableEq

namespace LexError

/-- The name of the kind of error. -/
def name : LexError → String
  | unexpectedChar .. => "UnexpectedChar"
  | unterminatedString _ => "UnterminatedString"
  | unterminatedExpression _ => "UnterminatedExpression"

def span : LexError → Span
  | unexpectedChar _ s | unterminatedString s | unterminatedExpression s => s

def message : LexError → String
  | unexpectedChar c s => "unexpected character " ++ Text.quotedChar c ++ " at " ++ s.text
  | unterminatedString s => "unterminated string literal at " ++ s.text
  | unterminatedExpression s => "unterminated expression starting at " ++ s.text

end LexError

/-- The bytes that text takes in UTF-8. -/
def byteLength (text : List Char) : Nat := text.foldr (fun c bytes => c.utf8Size + bytes) 0

namespace Token

/-- Whether a character may stand between tokens. -/
def isGap (c : Char) : Bool :=
  c = ' ' || c = '\t' || c = '\r' || c = '\n' || c = '\x0c'

/-- The error at a character that starts no lexeme. -/
def fault (offset : Nat) (c : Char) (rest : List Char) : LexError :=
  if Lexeme.isQuote c then
    let read := c :: rest.take (Lexeme.unclosedLength rest)
    .unterminatedString (.ofRange offset (offset + byteLength read))
  else .unexpectedChar c (.ofRange offset (offset + c.utf8Size))

/-- The braces open after a token; `none` when braces are not counted. -/
def nest (braces : Option Nat) (kind : TokenKind) : Option Nat :=
  match kind with
  | .lbrace => braces.map (· + 1)
  | .rbrace => braces.map (· - 1)
  | _ => braces

/-- Where a lexeme at an offset ends. -/
def stopOf (offset : Nat) (lexeme : Lexeme) : Nat := offset + byteLength lexeme.text

/-- What follows a lexeme, given what follows its first character. -/
def remainder (lexeme : Lexeme) (rest : List Char) : List Char :=
  rest.drop (lexeme.text.length - 1)

theorem length_remainder_le (lexeme : Lexeme) (rest : List Char) :
    (remainder lexeme rest).length ≤ rest.length := by
  simp [remainder]

/-- The tokens from `offset` on.  When braces are counted, a closing brace without an open
one ends the list, and the text after it is returned with its offset. -/
def listFrom (braces : Option Nat) (offset : Nat) :
    List Char → Except LexError (List Token × Option (List Char × Nat))
  | [] => .ok ([⟨.eof, .point offset⟩], none)
  | c :: rest =>
    if isGap c then listFrom braces (offset + c.utf8Size) rest
    else
      match Lexeme.next? (c :: rest) with
      | none => .error (fault offset c rest)
      | some lexeme =>
        if lexeme.kind = .rbrace && braces = some 0 then
          .ok ([⟨.eof, .point offset⟩], some (remainder lexeme rest, stopOf offset lexeme))
        else do
          let (tokens, ending) ←
            listFrom (nest braces lexeme.kind) (stopOf offset lexeme) (remainder lexeme rest)
          pure (⟨lexeme.kind, .ofRange offset (stopOf offset lexeme)⟩ :: tokens, ending)
termination_by text => text.length
decreasing_by
  · simp
  · exact Nat.lt_succ_of_le (length_remainder_le lexeme rest)

def list (text : List Char) : Except LexError (List Token) :=
  (listFrom none 0 text).map Prod.fst

/-- The tokens of an expression that a closing brace ends, with what follows the brace. -/
def listBody (offset : Nat) (text : List Char) :
    Except LexError (List Token × Option (List Char × Nat)) :=
  listFrom (some 0) offset text

/-- What follows a closed body is part of the text. -/
theorem length_after_lt {braces : Option Nat} {offset : Nat} {text : List Char}
    {tokens : List Token} {after : List Char} {stop : Nat}
    (h : listFrom braces offset text = .ok (tokens, some (after, stop))) :
    after.length < text.length := by
  fun_induction listFrom braces offset text generalizing tokens
  · simp at h
  · rename_i ih
    exact Nat.lt_succ_of_lt (ih h)
  · simp at h
  · simp only [Except.ok.injEq, Prod.mk.injEq, Option.some.injEq] at h
    rw [← h.2.1]
    exact Nat.lt_succ_of_le (length_remainder_le _ _)
  · rename_i ih
    simp only [bind, Except.bind, pure, Except.pure] at h
    split at h
    · simp at h
    · rename_i result hresult
      obtain ⟨inner, ending⟩ := result
      simp only [Except.ok.injEq, Prod.mk.injEq] at h
      have hlt := ih (h.2 ▸ hresult)
      exact Nat.lt_succ_of_le (Nat.le_trans (Nat.le_of_lt hlt) (length_remainder_le _ _))

end Token
end ExprLang
