import ExprLang.Token.Lexer

/-!
# Template segments

A template is literal text in which expressions stand between a marked opening brace and
its closing one.  The mark tells immediate expressions from deferred ones, and a backslash
in front of a mark makes it literal.
-/

namespace ExprLang

inductive Segment
  | text (content : String)
  | expression (deferred : Bool) (tokens : List Token) (span : Span)
  deriving DecidableEq

namespace Segment

def isText : Segment → Bool
  | text _ => true
  | expression .. => false

/-- Whether a character marks an expression when an opening brace follows it. -/
def isMark (c : Char) : Bool := c = '$' || c = '#'

/-- The segment of the text collected so far, newest character first, unless it is empty. -/
def collected (pending : List Char) : List Segment :=
  if pending.isEmpty then [] else [text (String.ofList pending.reverse)]

/-- The segments from `offset` on, after the literal text in `pending`. -/
def listFrom (pending : List Char) (offset : Nat) :
    List Char → Except LexError (List Segment)
  | [] => .ok (collected pending)
  | [c] => .ok (collected (c :: pending))
  | c :: d :: rest =>
    if c = '\\' && isMark d then listFrom (d :: pending) (offset + 2) rest
    else if isMark c && d = '\x7b' then
      match h : Token.listBody (offset + 2) rest with
      | .error e => .error e
      | .ok (_, none) =>
        .error (.unterminatedExpression (.ofRange offset (offset + 2 + byteLength rest)))
      | .ok (tokens, some (after, stop)) => do
        let segments ← listFrom [] stop after
        pure (collected pending ++
          expression (c = '#') tokens (.ofRange offset stop) :: segments)
    else listFrom (c :: pending) (offset + c.utf8Size) (d :: rest)
termination_by text => text.length
decreasing_by
  · simp only [List.length_cons]; omega
  · have := Token.length_after_lt h
    simp only [List.length_cons]; omega
  · simp

def list (source : List Char) : Except LexError (List Segment) := listFrom [] 0 source

end Segment
end ExprLang
