import ExprLang.Number.FloatText
import ExprLang.Span
import ExprLang.Text.Quoted

/-!
# Tokens

The tokens of an expression.  A word operator such as `and` has the kind of its symbol, so
that a parser meets one kind for each operator.
-/

namespace ExprLang

/-- The kind of a token, with the value of a literal or the text of a name. -/
inductive TokenKind
  | int (value : Int64)
  /-- An integer literal of more than 64 bits, by its digits. -/
  | bigInt (digits : String)
  | float (value : Binary64)
  | string (text : String)
  | true
  | false
  | null
  | ident (name : String)
  | empty
  | plus
  | minus
  | star
  | slash
  | percent
  | eqEq
  | notEq
  | lt
  | ltEq
  | gt
  | gtEq
  | andAnd
  | orOr
  | bang
  | question
  | colon
  | eq
  | plusEq
  | semicolon
  | arrow
  | comma
  | dot
  | lparen
  | rparen
  | lbracket
  | rbracket
  | lbrace
  | rbrace
  | eof
  deriving DecidableEq

namespace TokenKind

def name : TokenKind → String
  | int _ => "Int"
  | bigInt _ => "BigInt"
  | float _ => "Float"
  | string _ => "String"
  | true => "True"
  | false => "False"
  | null => "Null"
  | ident _ => "Ident"
  | empty => "Empty"
  | plus => "Plus"
  | minus => "Minus"
  | star => "Star"
  | slash => "Slash"
  | percent => "Percent"
  | eqEq => "EqEq"
  | notEq => "NotEq"
  | lt => "Lt"
  | ltEq => "LtEq"
  | gt => "Gt"
  | gtEq => "GtEq"
  | andAnd => "AndAnd"
  | orOr => "OrOr"
  | bang => "Bang"
  | question => "Question"
  | colon => "Colon"
  | eq => "Eq"
  | plusEq => "PlusEq"
  | semicolon => "Semicolon"
  | arrow => "Arrow"
  | comma => "Comma"
  | dot => "Dot"
  | lparen => "LParen"
  | rparen => "RParen"
  | lbracket => "LBracket"
  | rbracket => "RBracket"
  | lbrace => "LBrace"
  | rbrace => "RBrace"
  | eof => "Eof"

/-- How an error message calls the kind. -/
def description : TokenKind → String
  | int _ | bigInt _ => "integer"
  | float _ => "float"
  | string _ => "string"
  | true => "true"
  | false => "false"
  | null => "null"
  | ident _ => "identifier"
  | empty => "empty"
  | plus => "+"
  | minus => "-"
  | star => "*"
  | slash => "/"
  | percent => "%"
  | eqEq => "=="
  | notEq => "!="
  | lt => "<"
  | ltEq => "<="
  | gt => ">"
  | gtEq => ">="
  | andAnd => "&&"
  | orOr => "||"
  | bang => "!"
  | question => "?"
  | colon => ":"
  | eq => "="
  | plusEq => "+="
  | semicolon => ";"
  | arrow => "->"
  | comma => ","
  | dot => "."
  | lparen => "("
  | rparen => ")"
  | lbracket => "["
  | rbracket => "]"
  | lbrace => "\x7b"
  | rbrace => "\x7d"
  | eof => "end of expression"

def text : TokenKind → String
  | int n => intText n.toInt
  | bigInt digits => digits
  | float x => x.literal
  | string s => Text.quoted s
  | ident name => name
  | kind => kind.description

/-- The kind with its value, as a token listing shows it. -/
def outline : TokenKind → String
  | int n => "Int(" ++ intText n.toInt ++ ")"
  | bigInt digits => "BigInt(" ++ Text.quoted digits ++ ")"
  | float x => "Float(" ++ intText x.bits.toNat ++ ")"
  | string s => "String(" ++ Text.quoted s ++ ")"
  | ident name => "Ident(" ++ Text.quoted name ++ ")"
  | kind => kind.name

end TokenKind

/-- A token and the place it was read from. -/
structure Token where
  kind : TokenKind
  span : Span
  deriving DecidableEq

end ExprLang
