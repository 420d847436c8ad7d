import Mathlib.Tactic.Common
import ExprLang.Proofs.Source.Writable

/-!
# Phrases in their text

An expression is spelt by its text when the text, in front of anything that does not continue
it, reads as tokens that derive the expression.  An operand derives as a value, which is a
phrase of every level; a lambda derives as an assignment.
-/

namespace ExprLang
namespace Grammar

variable {e : Expr} {ts rest : List Token}

/-!
## Values as phrases of every level
-/

theorem Derives.operand_of_unary (h : Derives (.unary e) ts rest) (level : Level) :
    Derives (.operand level e) ts rest := by
  have hmultiplicative : Derives (.operand .multiplicative e) ts rest := .operandUnary h
  have hadditive : Derives (.operand .additive e) ts rest :=
    .operandJoined .additive (.joinedOne hmultiplicative)
  have hconcat : Derives (.operand .concat e) ts rest :=
    .operandJoined .concat (.joinedOne hadditive)
  have hcomparison : Derives (.operand .comparison e) ts rest :=
    .operandJoined .comparison (.joinedOne hconcat)
  have hequality : Derives (.operand .equality e) ts rest :=
    .operandJoined .equality (.joinedOne hcomparison)
  have hand : Derives (.operand .and e) ts rest := .operandJoined .and (.joinedOne hequality)
  cases level with
  | or => exact .operandJoined .or (.joinedOne hand)
  | and => exact hand
  | equality => exact hequality
  | comparison => exact hcomparison
  | concat => exact hconcat
  | additive => exact hadditive
  | multiplicative => exact hmultiplicative

theorem Derives.operand_of_value (h : Derives (.value e) ts rest) (level : Level) :
    Derives (.operand level e) ts rest :=
  .operand_of_unary (.unaryValue h) level

theorem Derives.choice_of_value (h : Derives (.value e) ts rest) : Derives (.choice e) ts rest :=
  .choiceOne (.joinedOne (h.operand_of_value .or))

theorem Derives.assignment_of_value (h : Derives (.value e) ts rest) :
    Derives (.assignment e) ts rest :=
  .assignmentOne h.choice_of_value

/-- What a level joins is a phrase of the looser levels too. -/
theorem Derives.choice_of_joined {level : Level} (h : Derives (.joined level e) ts rest) :
    Derives (.choice e) ts rest := by
  have loosen {outer inner : Level} (hencloses : Encloses outer inner)
      (hinner : Derives (.joined inner e) ts rest) : Derives (.joined outer e) ts rest :=
    .joinedOne (.operandJoined hencloses hinner)
  have hand (h : Derives (.joined .and e) ts rest) : Derives (.choice e) ts rest :=
    .choiceOne (loosen .or h)
  have hequality (h : Derives (.joined .equality e) ts rest) : Derives (.choice e) ts rest :=
    hand (loosen .and h)
  have hcomparison (h : Derives (.joined .comparison e) ts rest) : Derives (.choice e) ts rest :=
    hequality (loosen .equality h)
  have hconcat (h : Derives (.joined .concat e) ts rest) : Derives (.choice e) ts rest :=
    hcomparison (loosen .comparison h)
  have hadditive (h : Derives (.joined .additive e) ts rest) : Derives (.choice e) ts rest :=
    hconcat (loosen .concat h)
  cases level with
  | or => exact .choiceOne h
  | and => exact hand h
  | equality => exact hequality h
  | comparison => exact hcomparison h
  | concat => exact hconcat h
  | additive => exact hadditive h
  | multiplicative => exact hadditive (loosen .additive h)

end Grammar

/-!
## Operators
-/

namespace BinaryOp

def level : BinaryOp → Level
  | add | sub => .additive
  | mul | div | mod => .multiplicative
  | eq | notEq => .equality
  | lt | ltEq | gt | gtEq => .comparison
  | and => .and
  | or => .or

def token : BinaryOp → TokenKind
  | add => .plus
  | sub => .minus
  | mul => .star
  | div => .slash
  | mod => .percent
  | eq => .eqEq
  | notEq => .notEq
  | lt => .lt
  | ltEq => .ltEq
  | gt => .gt
  | gtEq => .gtEq
  | and => .andAnd
  | or => .orOr

theorem joins_token (op : BinaryOp) : Grammar.Joins op.level op.token (.binary op) := by
  cases op <;> constructor

theorem token_ne_colon (op : BinaryOp) : op.token ≠ .colon := by
  cases op <;> decide

theorem symbol_ne_nil (op : BinaryOp) : op.symbol.toList ≠ [] := by
  cases op <;> decide

theorem next?_symbol (op : BinaryOp) (rest : List Char) :
    Lexeme.next? (op.symbol.toList ++ ' ' :: rest) = some ⟨op.symbol.toList, op.token⟩ := by
  cases op <;> rfl

end BinaryOp

/-- The text does not begin with a character that an operator in front of it could take. -/
def Starts (text : List Char) : Prop := ∃ c cs, text = c :: cs ∧ c ≠ '=' ∧ c ≠ '>'

/-- An operator in front of its operand, with the blank that keeps a word apart from it. -/
theorem UnaryOp.lexed (op : UnaryOp) {stop : Nat} {text : List Char} {tokens : List Token}
    (hstarts : Starts text) (h : Lexed stop text tokens) :
    ∃ kind span, Grammar.Prefixes kind op ∧
      Lexed stop (op.symbol.toList ++ text) (⟨kind, span⟩ :: tokens) := by
  rcases hstarts with ⟨c, cs, rfl, hequals, hgreater⟩
  cases op with
  | neg =>
      have harrow : ('>' == c) = false := beq_false_of_ne hgreater.symm
      have hnext : Lexeme.next? ('-' :: c :: cs) = some ⟨['-'], .minus⟩ := by
        change Lexeme.symbol? ('-' :: c :: cs) = _
        simp [Lexeme.symbol?, Lexeme.symbols, List.isPrefixOf, harrow]
      exact ⟨_, _, .neg, h.lexeme ['-'] hnext (List.cons_ne_nil _ _)⟩
  | not =>
      have hnotEq : ('=' == c) = false := beq_false_of_ne hequals.symm
      have hnext : Lexeme.next? ('!' :: c :: cs) = some ⟨['!'], .bang⟩ := by
        change Lexeme.symbol? ('!' :: c :: cs) = _
        simp [Lexeme.symbol?, Lexeme.symbols, List.isPrefixOf, hnotEq]
      exact ⟨_, _, .not, h.lexeme ['!'] hnext (List.cons_ne_nil _ _)⟩
  | empty =>
      have hblank : Lexed stop (' ' :: c :: cs) tokens := h.gap rfl
      exact ⟨_, _, .empty, hblank.lexeme "empty".toList rfl (by decide)⟩

end ExprLang
