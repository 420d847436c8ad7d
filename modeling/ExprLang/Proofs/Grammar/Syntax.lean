import Mathlib.Tactic.Common
import ExprLang.Expr.Parser

/-!
# The expression grammar

The layered grammar of expressions, stated without reference to any reader.  A derivation
relates a phrase and the tokens it starts at to the tokens it leaves; the repetitions of a
level nest to the left, as their operators associate.
-/

namespace ExprLang
namespace Grammar

/-!
## Tokens with a fixed meaning
-/

/-- The operands of a level are the phrases of the next one. -/
inductive Encloses : Level → Level → Prop
  | or : Encloses .or .and
  | and : Encloses .and .equality
  | equality : Encloses .equality .comparison
  | comparison : Encloses .comparison .concat
  | concat : Encloses .concat .additive
  | additive : Encloses .additive .multiplicative

/-- A token that joins two operands of a level, and the tree it joins them to. -/
inductive Joins : Level → TokenKind → (Expr → Expr → Expr) → Prop
  | or : Joins .or .orOr (.binary .or)
  | and : Joins .and .andAnd (.binary .and)
  | eq : Joins .equality .eqEq (.binary .eq)
  | notEq : Joins .equality .notEq (.binary .notEq)
  | lt : Joins .comparison .lt (.binary .lt)
  | ltEq : Joins .comparison .ltEq (.binary .ltEq)
  | gt : Joins .comparison .gt (.binary .gt)
  | gtEq : Joins .comparison .gtEq (.binary .gtEq)
  | concat : Joins .concat .plusEq .concat
  | add : Joins .additive .plus (.binary .add)
  | sub : Joins .additive .minus (.binary .sub)
  | mul : Joins .multiplicative .star (.binary .mul)
  | div : Joins .multiplicative .slash (.binary .div)
  | mod : Joins .multiplicative .percent (.binary .mod)

/-- A token that stands in front of its operand. -/
inductive Prefixes : TokenKind → UnaryOp → Prop
  | neg : Prefixes .minus .neg
  | not : Prefixes .bang .not
  | empty : Prefixes .empty .empty

/-- A token that is an expression by itself. -/
inductive Denotes : TokenKind → Expr → Prop
  | int (n : Int64) : Denotes (.int n) (.int n)
  | bigInt (digits : String) : Denotes (.bigInt digits) (.bigInt digits)
  | float (x : Binary64) : Denotes (.float x) (.float x)
  | string (s : String) : Denotes (.string s) (.str s)
  | true : Denotes .true (.bool true)
  | false : Denotes .false (.bool false)
  | null : Denotes .null .null

/-- The brackets around a list of expressions. -/
inductive Bracket
  | paren
  | square
  | brace

def Bracket.close : Bracket → TokenKind
  | .paren => .rparen
  | .square => .rbracket
  | .brace => .rbrace

/-!
## Names

Two forms need more than the next token: the head of a lambda reaches up to its arrow, and a
qualified name needs a colon that touches the names on both sides and an argument list.
-/

/-- Names separated by commas, the closing parenthesis, and the arrow. -/
inductive LambdaNames : List String → List Token → List Token → Prop
  | last {x : String} {name close arrow : Span} {rest : List Token} :
      LambdaNames [x] (⟨.ident x, name⟩ :: ⟨.rparen, close⟩ :: ⟨.arrow, arrow⟩ :: rest) rest
  | more {x : String} {xs : List String} {name comma : Span} {tokens rest : List Token} :
      LambdaNames xs tokens rest →
      LambdaNames (x :: xs) (⟨.ident x, name⟩ :: ⟨.comma, comma⟩ :: tokens) rest

/-- The parameters of a lambda and its arrow. -/
inductive LambdaHead : List String → List Token → List Token → Prop
  | one {x : String} {name arrow : Span} {rest : List Token} :
      LambdaHead [x] (⟨.ident x, name⟩ :: ⟨.arrow, arrow⟩ :: rest) rest
  | none {paren close arrow : Span} {rest : List Token} :
      LambdaHead [] (⟨.lparen, paren⟩ :: ⟨.rparen, close⟩ :: ⟨.arrow, arrow⟩ :: rest) rest
  | names {xs : List String} {paren : Span} {tokens rest : List Token} :
      LambdaNames xs tokens rest → LambdaHead xs (⟨.lparen, paren⟩ :: tokens) rest

/-- What makes a name that ends with `first` the namespace of `second`. -/
inductive Qualifies (first : Span) : String → List Token → List Token → Prop
  | touching {second : String} {colon inner paren : Span} {rest : List Token} :
      first.stop = colon.start → colon.stop = inner.start →
      Qualifies first second
        (⟨.colon, colon⟩ :: ⟨.ident second, inner⟩ :: ⟨.lparen, paren⟩ :: rest)
        (⟨.lparen, paren⟩ :: rest)

/-!
## Derivations
-/

/-- A nonterminal of the grammar with the tree derived from it. -/
inductive Phrase
  | sequence (e : Expr)
  | assignment (e : Expr)
  | choice (e : Expr)
  /-- Operands of a level joined by its operators. -/
  | joined (level : Level) (e : Expr)
  | operand (level : Level) (e : Expr)
  | unary (e : Expr)
  | value (e : Expr)
  | primary (e : Expr)
  /-- One or more expressions separated by commas. -/
  | items (es : List Expr)
  /-- The items, if any, after an opening bracket, with the closing bracket. -/
  | enclosed (bracket : Bracket) (es : List Expr)
  /-- One or more entries of a map separated by commas. -/
  | entries (es : List (Expr × Expr))

/-- A phrase derived from the tokens between two positions. -/
inductive Derives : Phrase → List Token → List Token → Prop
  | sequenceOne {e ts rest} :
      Derives (.assignment e) ts rest → Derives (.sequence e) ts rest
  | sequenceMore {left right semicolon ts mid rest} :
      Derives (.sequence left) ts (⟨.semicolon, semicolon⟩ :: mid) →
      Derives (.assignment right) mid rest →
      Derives (.sequence (.seq left right)) ts rest
  | lambda {params body ts mid rest} :
      LambdaHead params ts mid → Derives (.assignment body) mid rest →
      Derives (.assignment (.lambda params body)) ts rest
  | assignmentOne {e ts rest} :
      Derives (.choice e) ts rest → Derives (.assignment e) ts rest
  | assign {target value eq ts mid rest} :
      Derives (.choice target) ts (⟨.eq, eq⟩ :: mid) → Derives (.assignment value) mid rest →
      Derives (.assignment (.assign target value)) ts rest
  | choiceOne {e ts rest} :
      Derives (.joined .or e) ts rest → Derives (.choice e) ts rest
  | ternary {condition yes no question colon ts mid later rest} :
      Derives (.joined .or condition) ts (⟨.question, question⟩ :: mid) →
      Derives (.choice yes) mid (⟨.colon, colon⟩ :: later) →
      Derives (.choice no) later rest →
      Derives (.choice (.ternary condition yes no)) ts rest
  | joinedOne {level e ts rest} :
      Derives (.operand level e) ts rest → Derives (.joined level e) ts rest
  | joinedMore {level left right kind span apply ts mid rest} :
      Derives (.joined level left) ts (⟨kind, span⟩ :: mid) → Joins level kind apply →
      Derives (.operand level right) mid rest →
      Derives (.joined level (apply left right)) ts rest
  | operandJoined {level inner e ts rest} :
      Encloses level inner → Derives (.joined inner e) ts rest →
      Derives (.operand level e) ts rest
  | operandUnary {e ts rest} :
      Derives (.unary e) ts rest → Derives (.operand .multiplicative e) ts rest
  | unaryPrefix {op operand kind span ts rest} :
      Prefixes kind op → Derives (.unary operand) ts rest →
      Derives (.unary (.unary op operand)) (⟨kind, span⟩ :: ts) rest
  | unaryValue {e ts rest} :
      Derives (.value e) ts rest → Derives (.unary e) ts rest
  | valueOne {e ts rest} :
      Derives (.primary e) ts rest → Derives (.value e) ts rest
  | member {object name dot span ts rest} :
      Derives (.value object) ts (⟨.dot, dot⟩ :: ⟨.ident name, span⟩ :: rest) →
      Derives (.value (.member object name)) ts rest
  | index {object key opening closing ts mid rest} :
      Derives (.value object) ts (⟨.lbracket, opening⟩ :: mid) →
      Derives (.sequence key) mid (⟨.rbracket, closing⟩ :: rest) →
      Derives (.value (.index object key)) ts rest
  | call {callee args opening ts mid rest} :
      Derives (.value callee) ts (⟨.lparen, opening⟩ :: mid) →
      Derives (.enclosed .paren args) mid rest →
      Derives (.value (.call callee args)) ts rest
  | literal {kind span e rest} :
      Denotes kind e → Derives (.primary e) (⟨kind, span⟩ :: rest) rest
  | name {x span rest} :
      (∀ second after, ¬ Qualifies span second rest after) →
      Derives (.primary (.ident x)) (⟨.ident x, span⟩ :: rest) rest
  | qualified {first second span ts rest} :
      Qualifies span second ts rest →
      Derives (.primary (.ident (first ++ ":" ++ second))) (⟨.ident first, span⟩ :: ts) rest
  | group {e opening closing ts rest} :
      Derives (.sequence e) ts (⟨.rparen, closing⟩ :: rest) →
      Derives (.primary e) (⟨.lparen, opening⟩ :: ts) rest
  | list {es opening ts rest} :
      Derives (.enclosed .square es) ts rest →
      Derives (.primary (.list es)) (⟨.lbracket, opening⟩ :: ts) rest
  | set {es opening ts rest} :
      Derives (.enclosed .brace es) ts rest →
      Derives (.primary (.set es)) (⟨.lbrace, opening⟩ :: ts) rest
  | map {es opening closing ts rest} :
      Derives (.entries es) ts (⟨.rbrace, closing⟩ :: rest) →
      Derives (.primary (.map es)) (⟨.lbrace, opening⟩ :: ts) rest
  | itemsOne {e ts rest} :
      Derives (.assignment e) ts rest → Derives (.items [e]) ts rest
  | itemsMore {e es comma ts mid rest} :
      Derives (.assignment e) ts (⟨.comma, comma⟩ :: mid) → Derives (.items es) mid rest →
      Derives (.items (e :: es)) ts rest
  | enclosedNone (bracket) {span rest} :
      Derives (.enclosed bracket []) (⟨bracket.close, span⟩ :: rest) rest
  | enclosedItems (bracket) {es span ts rest} :
      Derives (.items es) ts (⟨bracket.close, span⟩ :: rest) →
      Derives (.enclosed bracket es) ts rest
  | entriesOne {key value colon ts mid rest} :
      Derives (.assignment key) ts (⟨.colon, colon⟩ :: mid) →
      Derives (.assignment value) mid rest →
      Derives (.entries [(key, value)]) ts rest
  | entriesMore {key value es colon comma ts mid later rest} :
      Derives (.assignment key) ts (⟨.colon, colon⟩ :: mid) →
      Derives (.assignment value) mid (⟨.comma, comma⟩ :: later) →
      Derives (.entries es) later rest →
      Derives (.entries ((key, value) :: es)) ts rest

/-- A token list is the expression, up to the empty token at its end. -/
def Spells (tokens : List Token) (e : Expr) : Prop :=
  ∃ last, last.kind = .eof ∧ Derives (.sequence e) tokens [last]

/-!
## What a derivation takes

A derivation takes tokens from the front, never an empty token, and at least the first of them
cannot close a bracket.
-/

/-- The tokens left after some that are not at the end of the text. -/
inductive Leaves : List Token → List Token → Prop
  | refl {ts} : Leaves ts ts
  | step {kind span ts rest} :
      kind ≠ .eof → Leaves ts rest → Leaves (⟨kind, span⟩ :: ts) rest

theorem Leaves.trans {ts mid rest : List Token} (h : Leaves ts mid) (hmid : Leaves mid rest) :
    Leaves ts rest := by
  induction h with
  | refl => exact hmid
  | step hkind _ ih => exact .step hkind (ih hmid)

theorem Leaves.next {kind : TokenKind} {span : Span} {ts mid rest : List Token}
    (h : Leaves ts (⟨kind, span⟩ :: mid)) (hkind : kind ≠ .eof) (hmid : Leaves mid rest) :
    Leaves ts rest :=
  h.trans (.step hkind hmid)

theorem Joins.ne_eof {level : Level} {kind : TokenKind} {apply : Expr → Expr → Expr}
    (h : Joins level kind apply) : kind ≠ .eof := by
  cases h <;> decide

theorem Prefixes.ne_eof {kind : TokenKind} {op : UnaryOp} (h : Prefixes kind op) :
    kind ≠ .eof := by
  cases h <;> decide

theorem Denotes.ne_eof {kind : TokenKind} {e : Expr} (h : Denotes kind e) : kind ≠ .eof := by
  cases h <;> simp

theorem Bracket.close_ne_eof (bracket : Bracket) : bracket.close ≠ .eof := by
  cases bracket <;> decide

theorem LambdaNames.leaves {xs : List String} {ts rest : List Token}
    (h : LambdaNames xs ts rest) : Leaves ts rest := by
  induction h with
  | last => exact .step (by simp) (.step (by simp) (.step (by simp) .refl))
  | more _ ih => exact .step (by simp) (.step (by simp) ih)

theorem LambdaHead.leaves {xs : List String} {ts rest : List Token}
    (h : LambdaHead xs ts rest) : Leaves ts rest := by
  cases h with
  | one => exact .step (by simp) (.step (by simp) .refl)
  | none => exact .step (by simp) (.step (by simp) (.step (by simp) .refl))
  | names hnames => exact .step (by simp) hnames.leaves

theorem Qualifies.leaves {first : Span} {second : String} {tokens rest : List Token}
    (h : Qualifies first second tokens rest) : Leaves tokens rest := by
  cases h
  exact .step (by simp) (.step (by simp) .refl)

theorem Qualifies.unique {first : Span} {second second' : String} {tokens rest rest' : List Token}
    (h : Qualifies first second tokens rest) (h' : Qualifies first second' tokens rest') :
    second = second' ∧ rest = rest' := by
  cases h
  cases h'
  exact ⟨rfl, rfl⟩

/-- Where the first of two related lists begins with a token that is not empty, the second begins
with one of the same kind, and what follows in them is related. -/
def Mimics (related : List Token → List Token → Prop) : Prop :=
  ∀ ⦃kind : TokenKind⦄ ⦃span : Span⦄ ⦃after ts' : List Token⦄,
    related (⟨kind, span⟩ :: after) ts' → kind ≠ .eof →
      ∃ span' after', ts' = ⟨kind, span'⟩ :: after' ∧ related after after'

theorem LambdaNames.mimic {related : List Token → List Token → Prop} (hmimics : Mimics related)
    {xs : List String} {ts ts' rest : List Token} (h : LambdaNames xs ts rest)
    (hrelated : related ts ts') : ∃ rest', related rest rest' ∧ LambdaNames xs ts' rest' := by
  induction h generalizing ts' with
  | last =>
      rcases hmimics hrelated (by simp) with ⟨_, _, rfl, hclose⟩
      rcases hmimics hclose (by simp) with ⟨_, _, rfl, harrow⟩
      rcases hmimics harrow (by simp) with ⟨_, rest', rfl, hrest⟩
      exact ⟨rest', hrest, .last⟩
  | more _ ih =>
      rcases hmimics hrelated (by simp) with ⟨_, _, rfl, hcomma⟩
      rcases hmimics hcomma (by simp) with ⟨_, _, rfl, hnames⟩
      rcases ih hnames with ⟨rest', hrest, hnames⟩
      exact ⟨rest', hrest, .more hnames⟩

theorem LambdaHead.mimic {related : List Token → List Token → Prop} (hmimics : Mimics related)
    {xs : List String} {ts ts' rest : List Token} (h : LambdaHead xs ts rest)
    (hrelated : related ts ts') : ∃ rest', related rest rest' ∧ LambdaHead xs ts' rest' := by
  cases h with
  | one =>
      rcases hmimics hrelated (by simp) with ⟨_, _, rfl, harrow⟩
      rcases hmimics harrow (by simp) with ⟨_, rest', rfl, hrest⟩
      exact ⟨rest', hrest, .one⟩
  | none =>
      rcases hmimics hrelated (by simp) with ⟨_, _, rfl, hclose⟩
      rcases hmimics hclose (by simp) with ⟨_, _, rfl, harrow⟩
      rcases hmimics harrow (by simp) with ⟨_, rest', rfl, hrest⟩
      exact ⟨rest', hrest, .none⟩
  | names hnames =>
      rcases hmimics hrelated (by simp) with ⟨_, _, rfl, hinside⟩
      rcases hnames.mimic hmimics hinside with ⟨rest', hrest, hnames⟩
      exact ⟨rest', hrest, .names hnames⟩

theorem Derives.leaves {phrase : Phrase} {ts rest : List Token} (h : Derives phrase ts rest) :
    Leaves ts rest := by
  induction h with
  | sequenceOne _ ih | assignmentOne _ ih | choiceOne _ ih | joinedOne _ ih
  | operandJoined _ _ ih | operandUnary _ ih | unaryValue _ ih | valueOne _ ih | itemsOne _ ih =>
      exact ih
  | sequenceMore _ _ ihl ihr | assign _ _ ihl ihr | itemsMore _ _ ihl ihr
  | entriesOne _ _ ihl ihr => exact ihl.next (by simp) ihr
  | lambda hhead _ ih => exact hhead.leaves.trans ih
  | ternary _ _ _ ihc ihy ihn => exact ihc.next (by simp) (ihy.next (by simp) ihn)
  | joinedMore _ hjoins _ ihl ihr => exact ihl.next hjoins.ne_eof ihr
  | unaryPrefix hop _ ih => exact .step hop.ne_eof ih
  | member _ ih => exact ih.next (by simp) (.step (by simp) .refl)
  | index _ _ iho ihk => exact iho.next (by simp) (ihk.next (by simp) .refl)
  | call _ _ ihc iha => exact ihc.next (by simp) iha
  | literal hdenotes => exact .step hdenotes.ne_eof .refl
  | name => exact .step (by simp) .refl
  | qualified hqualifies => exact .step (by simp) hqualifies.leaves
  | group _ ih | map _ ih => exact .step (by simp) (ih.next (by simp) .refl)
  | list _ ih | set _ ih => exact .step (by simp) ih
  | enclosedNone bracket => exact .step bracket.close_ne_eof .refl
  | enclosedItems bracket _ ih => exact ih.next bracket.close_ne_eof .refl
  | entriesMore _ _ _ ihk ihv ihm => exact ihk.next (by simp) (ihv.next (by simp) ihm)

/-- A kind that can stand first in a phrase: a list may be empty, and then starts with its
closing bracket; a value does not start with a prefix operator. -/
def Phrase.Opens : Phrase → TokenKind → Prop
  | .enclosed _ _, _ => True
  | .value _, kind | .primary _, kind =>
    (∀ bracket : Bracket, kind ≠ bracket.close) ∧ ∀ op, ¬ Prefixes kind op
  | _, kind => ∀ bracket : Bracket, kind ≠ bracket.close

theorem Prefixes.ne_close {kind : TokenKind} {op : UnaryOp} (h : Prefixes kind op)
    (bracket : Bracket) : kind ≠ bracket.close := by
  cases h <;> cases bracket <;> decide

theorem Denotes.ne_close {kind : TokenKind} {e : Expr} (h : Denotes kind e)
    (bracket : Bracket) : kind ≠ bracket.close := by
  cases h <;> cases bracket <;> simp [Bracket.close]

theorem Denotes.ne_lbrace {kind : TokenKind} {e : Expr} (h : Denotes kind e) :
    kind ≠ .lbrace := by
  cases h <;> simp

theorem Denotes.not_prefixes {kind : TokenKind} {e : Expr} (h : Denotes kind e)
    (op : UnaryOp) : ¬ Prefixes kind op := by
  intro hop
  cases h <;> cases hop

theorem Derives.opens {phrase : Phrase} {ts rest : List Token} (h : Derives phrase ts rest) :
    phrase.Opens (head ts).kind := by
  induction h with
  | sequenceOne _ ih | assignmentOne _ ih | choiceOne _ ih | joinedOne _ ih
  | operandJoined _ _ ih | operandUnary _ ih | valueOne _ ih | itemsOne _ ih
  | sequenceMore _ _ ih _ | assign _ _ ih _ | ternary _ _ _ ih _ _ | joinedMore _ _ _ ih _
  | member _ ih | index _ _ ih _ | call _ _ ih _ | itemsMore _ _ ih _ | entriesOne _ _ ih _
  | entriesMore _ _ _ ih _ _ => exact ih
  | unaryValue _ ih => exact ih.1
  | enclosedNone | enclosedItems => exact trivial
  | lambda hhead =>
      intro bracket
      cases hhead <;> cases bracket <;> simp [head, Bracket.close]
  | unaryPrefix hop => exact hop.ne_close
  | literal hdenotes => exact ⟨hdenotes.ne_close, hdenotes.not_prefixes⟩
  | name | qualified | group | list | set | map =>
      constructor
      · intro bracket
        cases bracket <;> simp [head, Bracket.close]
      · intro op hop
        cases hop

end Grammar
end ExprLang
