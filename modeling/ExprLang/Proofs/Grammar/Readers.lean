import Mathlib.Tactic.Common
import ExprLang.Expr.Parser

/-!
# What the readers answer

Every reader returns its tree with the tokens left and a proof that they are fewer.  The proof
serves termination only; `Reads` forgets it, and this module restates each reader as an
equivalence between its answers and those of the readers it calls.
-/

namespace ExprLang
namespace Grammar

/-- The reader answered `value` and left `rest`. -/
def Reads {α : Type} {bound : Nat} (outcome : Except ParseError (Parsed α bound)) (value : α)
    (rest : List Token) : Prop :=
  ∃ shorter, outcome = .ok ⟨value, rest, shorter⟩

/-!
## Answers of composed readers
-/

section Composition

variable {α β : Type} {bound bound' : Nat} {rest : List Token}

theorem reads_pure {parsed : Parsed α bound} {value : α} :
    Reads (pure parsed) value rest ↔ parsed.value = value ∧ parsed.rest = rest := by
  rcases parsed with ⟨v, r, shorter⟩
  constructor
  · intro hread
    rcases hread with ⟨_, h⟩
    cases h
    exact ⟨rfl, rfl⟩
  · intro hread
    rcases hread with ⟨rfl, rfl⟩
    exact ⟨shorter, rfl⟩

theorem not_reads_error {error : ParseError} {value : α} :
    ¬ Reads (.error error : Except ParseError (Parsed α bound)) value rest := by
  intro hread
  rcases hread with ⟨_, h⟩
  cases h

theorem reads_bind {outcome : Except ParseError (Parsed α bound)}
    {next : Parsed α bound → Except ParseError (Parsed β bound')} {value : β} :
    Reads (outcome >>= next) value rest ↔
      ∃ first mid shorter, outcome = .ok ⟨first, mid, shorter⟩ ∧
        Reads (next ⟨first, mid, shorter⟩) value rest := by
  cases outcome with
  | error e => simp [Reads, bind, Except.bind]
  | ok parsed =>
      rcases parsed with ⟨first, mid, shorter⟩
      constructor
      · intro h
        exact ⟨first, mid, shorter, rfl, h⟩
      · intro hread
        rcases hread with ⟨first', mid', shorter', heq, h⟩
        cases heq
        exact h

theorem Reads.shorter {outcome : Except ParseError (Parsed α bound)} {value : α}
    (h : Reads outcome value rest) : rest.length < bound := by
  rcases h with ⟨shorter, _⟩
  exact shorter

theorem Reads.unique {outcome : Except ParseError (Parsed α bound)} {a b : α}
    {rest' : List Token} (ha : Reads outcome a rest) (hb : Reads outcome b rest') :
    a = b ∧ rest = rest' := by
  rcases ha with ⟨_, ha⟩
  rcases hb with ⟨_, hb⟩
  rw [ha] at hb
  cases hb
  exact ⟨rfl, rfl⟩

end Composition

/-!
## Single tokens
-/

theorem eat?_cons {α : Type} {bound : Nat} {kind : TokenKind} {span : Span}
    {after : List Token} (value : α)
    (shorter : (⟨kind, span⟩ :: after : List Token).length < bound) :
    ∃ fewer, (⟨value, ⟨kind, span⟩ :: after, shorter⟩ : Parsed α bound).eat? kind =
      some ⟨value, after, fewer⟩ := by
  have fewer : after.length < bound := Nat.lt_of_succ_lt shorter
  exact ⟨fewer, by simp [Parsed.eat?]⟩

theorem eat?_eq_none {α : Type} {bound : Nat} {kind : TokenKind} {value : α}
    {mid : List Token} {shorter : mid.length < bound} (h : (head mid).kind ≠ kind) :
    (⟨value, mid, shorter⟩ : Parsed α bound).eat? kind = none := by
  cases mid with
  | nil => rfl
  | cons token after =>
      have hkind : token.kind ≠ kind := h
      simp [Parsed.eat?, hkind]

/-- A token list starts with a kind, or it does not. -/
theorem head_kind_eq_or (kind : TokenKind) (hkind : kind ≠ .eof) (tokens : List Token) :
    (∃ span after, tokens = ⟨kind, span⟩ :: after) ∨ (head tokens).kind ≠ kind := by
  cases tokens with
  | nil => exact Or.inr (Ne.symm hkind)
  | cons token after =>
      rcases token with ⟨k, span⟩
      rcases eq_or_ne k kind with rfl | hne
      · exact Or.inl ⟨span, after, rfl⟩
      · exact Or.inr hne

theorem reads_expect_iff {kind : TokenKind} {tokens rest : List Token} {u : Unit} :
    Reads (expect kind tokens) u rest ↔ ∃ span, tokens = ⟨kind, span⟩ :: rest := by
  cases tokens with
  | nil => simp [expect, Reads]
  | cons token after =>
      rcases token with ⟨k, span⟩
      rcases eq_or_ne k kind with rfl | hne
      · simp only [expect, if_true]
        constructor
        · intro hread
          rcases hread with ⟨_, h⟩
          cases h
          exact ⟨span, rfl⟩
        · intro hread
          rcases hread with ⟨span', h⟩
          cases h
          exact ⟨_, rfl⟩
      · simp [expect, Reads, hne]

theorem reads_expect (kind : TokenKind) (span : Span) (rest : List Token) :
    Reads (expect kind (⟨kind, span⟩ :: rest)) () rest :=
  reads_expect_iff.mpr ⟨span, rfl⟩

theorem reads_expectName_iff {tokens rest : List Token} {name : String} :
    Reads (expectName tokens) name rest ↔ ∃ span, tokens = ⟨.ident name, span⟩ :: rest := by
  unfold expectName
  split
  · rename_i first span after
    constructor
    · intro hread
      rcases hread with ⟨_, h⟩
      cases h
      exact ⟨span, rfl⟩
    · intro hread
      rcases hread with ⟨span', h⟩
      cases h
      exact ⟨_, rfl⟩
  · rename_i hident
    constructor
    · intro h
      exact absurd h not_reads_error
    · intro hread
      rcases hread with ⟨span, rfl⟩
      exact absurd rfl (hident name span rest)

theorem expect_of_ne {kind : TokenKind} {tokens : List Token} (h : (head tokens).kind ≠ kind) :
    expect kind tokens = .error (unexpected kind.description tokens) := by
  cases tokens with
  | nil => rfl
  | cons token after => exact if_neg h

/-!
## Sequences, assignments and choices
-/

theorem reads_sequence_iff {tokens rest : List Token} {e : Expr} :
    Reads (sequence tokens) e rest ↔
      ∃ left mid, Reads (assignment tokens) left mid ∧
        Reads (sequenceTail left mid) e rest := by
  rw [sequence]
  simp only [reads_bind, reads_pure]
  constructor
  · intro hread
    rcases hread with ⟨left, mid, shorter, hleft, whole, after, fewer, hwhole, rfl, rfl⟩
    exact ⟨left, mid, ⟨shorter, hleft⟩, fewer, hwhole⟩
  · intro hread
    rcases hread with ⟨left, mid, ⟨shorter, hleft⟩, fewer, hwhole⟩
    exact ⟨left, mid, shorter, hleft, e, rest, fewer, hwhole, rfl, rfl⟩

theorem reads_sequenceTail_semicolon {left e : Expr} {span : Span} {tokens rest : List Token} :
    Reads (sequenceTail left (⟨.semicolon, span⟩ :: tokens)) e rest ↔
      ∃ right mid, Reads (assignment tokens) right mid ∧
        Reads (sequenceTail (.seq left right) mid) e rest := by
  rw [sequenceTail]
  simp only [reads_bind, reads_pure]
  constructor
  · intro hread
    rcases hread with ⟨right, mid, shorter, hright, whole, after, fewer, hwhole, rfl, rfl⟩
    exact ⟨right, mid, ⟨shorter, hright⟩, fewer, hwhole⟩
  · intro hread
    rcases hread with ⟨right, mid, ⟨shorter, hright⟩, fewer, hwhole⟩
    exact ⟨right, mid, shorter, hright, e, rest, fewer, hwhole, rfl, rfl⟩

theorem reads_sequenceTail_stop {left e : Expr} {tokens rest : List Token}
    (h : (head tokens).kind ≠ .semicolon) :
    Reads (sequenceTail left tokens) e rest ↔ left = e ∧ tokens = rest := by
  rw [sequenceTail]
  · exact reads_pure
  · intro span after heq
    subst heq
    exact h rfl

theorem reads_assignment_lambda {tokens mid rest : List Token} {params : List String}
    {e : Expr} {shorter : mid.length < tokens.length}
    (h : lambdaHead? tokens = some ⟨params, mid, shorter⟩) :
    Reads (assignment tokens) e rest ↔
      ∃ body, Reads (assignment mid) body rest ∧ e = .lambda params body := by
  rw [assignment, h]
  simp only [reads_bind, reads_pure]
  constructor
  · intro hread
    rcases hread with ⟨body, after, fewer, hbody, rfl, rfl⟩
    exact ⟨body, ⟨fewer, hbody⟩, rfl⟩
  · intro hread
    rcases hread with ⟨body, ⟨fewer, hbody⟩, rfl⟩
    exact ⟨body, rest, fewer, hbody, rfl, rfl⟩

theorem reads_assignment_choice {tokens rest : List Token} {e : Expr}
    (h : lambdaHead? tokens = none) :
    Reads (assignment tokens) e rest ↔
      ∃ target mid, Reads (choice tokens) target mid ∧
        ((∃ span after value, mid = ⟨.eq, span⟩ :: after ∧
            Reads (assignment after) value rest ∧ e = .assign target value) ∨
          ((head mid).kind ≠ .eq ∧ e = target ∧ mid = rest)) := by
  rw [assignment, h]
  simp only [reads_bind]
  constructor
  · intro hread
    rcases hread with ⟨target, mid, shorter, htarget, hrest⟩
    refine ⟨target, mid, ⟨shorter, htarget⟩, ?_⟩
    rcases head_kind_eq_or .eq (by decide) mid with ⟨span, after, rfl⟩ | hne
    · rcases eat?_cons target shorter with ⟨fewer, heat⟩
      simp only [heat, reads_bind, reads_pure] at hrest
      rcases hrest with ⟨value, _, least, hvalue, rfl, rfl⟩
      exact Or.inl ⟨span, after, value, rfl, ⟨least, hvalue⟩, rfl⟩
    · rw [eat?_eq_none hne, reads_pure] at hrest
      rcases hrest with ⟨rfl, rfl⟩
      exact Or.inr ⟨hne, rfl, rfl⟩
  · intro hread
    rcases hread with ⟨target, mid, ⟨shorter, htarget⟩, hrest⟩
    refine ⟨target, mid, shorter, htarget, ?_⟩
    rcases hrest with ⟨span, after, value, rfl, ⟨least, hvalue⟩, rfl⟩ | ⟨hne, rfl, rfl⟩
    · rcases eat?_cons target shorter with ⟨fewer, heat⟩
      simp only [heat, reads_bind, reads_pure]
      exact ⟨value, rest, least, hvalue, rfl, rfl⟩
    · rw [eat?_eq_none hne, reads_pure]
      exact ⟨rfl, rfl⟩

theorem reads_choice_iff {tokens rest : List Token} {e : Expr} :
    Reads (choice tokens) e rest ↔
      ∃ condition mid, Reads (binaryAt .or tokens) condition mid ∧
        ((∃ span after yes colon later no, mid = ⟨.question, span⟩ :: after ∧
            Reads (choice after) yes (⟨.colon, colon⟩ :: later) ∧
            Reads (choice later) no rest ∧ e = .ternary condition yes no) ∨
          ((head mid).kind ≠ .question ∧ e = condition ∧ mid = rest)) := by
  rw [choice]
  simp only [reads_bind]
  constructor
  · intro hread
    rcases hread with ⟨condition, mid, shorter, hcondition, hrest⟩
    refine ⟨condition, mid, ⟨shorter, hcondition⟩, ?_⟩
    rcases head_kind_eq_or .question (by decide) mid with ⟨span, after, rfl⟩ | hne
    · rcases eat?_cons condition shorter with ⟨fewer, heat⟩
      simp only [heat, reads_bind, reads_pure] at hrest
      rcases hrest with ⟨yes, beyond, hb, hyes, _, later, hl, hcolon, no, _, hn, hno, rfl, rfl⟩
      rcases reads_expect_iff.mp ⟨hl, hcolon⟩ with ⟨colon, rfl⟩
      exact Or.inl ⟨span, after, yes, colon, later, no, rfl, ⟨hb, hyes⟩, ⟨hn, hno⟩, rfl⟩
    · rw [eat?_eq_none hne, reads_pure] at hrest
      rcases hrest with ⟨rfl, rfl⟩
      exact Or.inr ⟨hne, rfl, rfl⟩
  · intro hread
    rcases hread with ⟨condition, mid, ⟨shorter, hcondition⟩, hrest⟩
    refine ⟨condition, mid, shorter, hcondition, ?_⟩
    rcases hrest with ⟨span, after, yes, colon, later, no, rfl, ⟨hb, hyes⟩, ⟨hn, hno⟩, rfl⟩ |
      ⟨hne, rfl, rfl⟩
    · rcases eat?_cons condition shorter with ⟨fewer, heat⟩
      rcases reads_expect .colon colon _ with ⟨hl, hcolon⟩
      simp only [heat, reads_bind, reads_pure]
      exact ⟨yes, _, hb, hyes, (), later, hl, hcolon, no, rest, hn, hno, rfl, rfl⟩
    · rw [eat?_eq_none hne, reads_pure]
      exact ⟨rfl, rfl⟩

/-!
## Binary levels and prefix operators
-/

theorem reads_binaryAt_iff {level : Level} {tokens rest : List Token} {e : Expr} :
    Reads (binaryAt level tokens) e rest ↔
      ∃ left mid, Reads (operandOf level tokens) left mid ∧
        Reads (binaryTail level left mid) e rest := by
  rw [binaryAt]
  simp only [reads_bind, reads_pure]
  constructor
  · intro hread
    rcases hread with ⟨left, mid, shorter, hleft, whole, after, fewer, hwhole, rfl, rfl⟩
    exact ⟨left, mid, ⟨shorter, hleft⟩, fewer, hwhole⟩
  · intro hread
    rcases hread with ⟨left, mid, ⟨shorter, hleft⟩, fewer, hwhole⟩
    exact ⟨left, mid, shorter, hleft, e, rest, fewer, hwhole, rfl, rfl⟩

theorem operandOf_eq_binaryAt {level inner : Level} (h : level.tighter = some inner)
    (tokens : List Token) : operandOf level tokens = binaryAt inner tokens := by
  rw [operandOf]
  split
  · rename_i inner' h'
    rw [h] at h'
    cases h'
    rfl
  · rename_i h'
    rw [h] at h'
    cases h'

theorem operandOf_eq_unary {level : Level} (h : level.tighter = none) (tokens : List Token) :
    operandOf level tokens = unary tokens := by
  rw [operandOf]
  split
  · rename_i inner' h'
    rw [h] at h'
    cases h'
  · rfl

theorem reads_binaryTail_operator {level : Level} {left e : Expr} {token : Token}
    {tokens rest : List Token} {apply : Expr → Expr → Expr}
    (h : level.operator? token.kind = some apply) :
    Reads (binaryTail level left (token :: tokens)) e rest ↔
      ∃ right mid, Reads (operandOf level tokens) right mid ∧
        Reads (binaryTail level (apply left right) mid) e rest := by
  rw [binaryTail]
  simp only [h, reads_bind, reads_pure]
  constructor
  · intro hread
    rcases hread with ⟨right, mid, shorter, hright, whole, after, fewer, hwhole, rfl, rfl⟩
    exact ⟨right, mid, ⟨shorter, hright⟩, fewer, hwhole⟩
  · intro hread
    rcases hread with ⟨right, mid, ⟨shorter, hright⟩, fewer, hwhole⟩
    exact ⟨right, mid, shorter, hright, e, rest, fewer, hwhole, rfl, rfl⟩

theorem reads_binaryTail_stop {level : Level} {left e : Expr} {tokens rest : List Token}
    (h : level.operator? (head tokens).kind = none) :
    Reads (binaryTail level left tokens) e rest ↔ left = e ∧ tokens = rest := by
  cases tokens with
  | nil =>
      rw [binaryTail]
      exact reads_pure
  | cons token after =>
      have hnone : level.operator? token.kind = none := h
      rw [binaryTail]
      simp only [hnone]
      exact reads_pure

theorem reads_unary_operator {token : Token} {tokens rest : List Token} {op : UnaryOp} {e : Expr}
    (h : unaryOp? token.kind = some op) :
    Reads (unary (token :: tokens)) e rest ↔
      ∃ operand, Reads (unary tokens) operand rest ∧ e = .unary op operand := by
  rw [unary]
  simp only [h, reads_bind, reads_pure]
  constructor
  · intro hread
    rcases hread with ⟨operand, after, fewer, hoperand, rfl, rfl⟩
    exact ⟨operand, ⟨fewer, hoperand⟩, rfl⟩
  · intro hread
    rcases hread with ⟨operand, ⟨fewer, hoperand⟩, rfl⟩
    exact ⟨operand, rest, fewer, hoperand, rfl, rfl⟩

theorem unary_eq_value {tokens : List Token} (h : unaryOp? (head tokens).kind = none) :
    unary tokens = value tokens := by
  cases tokens with
  | nil => rw [unary]
  | cons token after =>
      have hnone : unaryOp? token.kind = none := h
      rw [unary]
      simp only [hnone]

/-!
## Values, their suffixes and brackets
-/

theorem reads_value_iff {tokens rest : List Token} {e : Expr} :
    Reads (value tokens) e rest ↔
      ∃ first mid, Reads (primary tokens) first mid ∧ Reads (suffixes first mid) e rest := by
  rw [value]
  simp only [reads_bind, reads_pure]
  constructor
  · intro hread
    rcases hread with ⟨first, mid, shorter, hfirst, whole, after, fewer, hwhole, rfl, rfl⟩
    exact ⟨first, mid, ⟨shorter, hfirst⟩, fewer, hwhole⟩
  · intro hread
    rcases hread with ⟨first, mid, ⟨shorter, hfirst⟩, fewer, hwhole⟩
    exact ⟨first, mid, shorter, hfirst, e, rest, fewer, hwhole, rfl, rfl⟩

theorem reads_suffixes_dot {object e : Expr} {dot : Span} {tokens rest : List Token} :
    Reads (suffixes object (⟨.dot, dot⟩ :: tokens)) e rest ↔
      ∃ name span after, tokens = ⟨.ident name, span⟩ :: after ∧
        Reads (suffixes (.member object name) after) e rest := by
  rw [suffixes]
  simp only [reads_bind, reads_pure]
  constructor
  · intro hread
    rcases hread with ⟨name, after, shorter, hname, whole, later, fewer, hwhole, rfl, rfl⟩
    rcases reads_expectName_iff.mp ⟨shorter, hname⟩ with ⟨span, rfl⟩
    exact ⟨name, span, after, rfl, fewer, hwhole⟩
  · intro hread
    rcases hread with ⟨name, span, after, rfl, fewer, hwhole⟩
    rcases reads_expectName_iff.mpr ⟨span, rfl⟩ with ⟨shorter, hname⟩
    exact ⟨name, after, shorter, hname, e, rest, fewer, hwhole, rfl, rfl⟩

theorem reads_suffixes_bracket {object e : Expr} {bracket : Span} {tokens rest : List Token} :
    Reads (suffixes object (⟨.lbracket, bracket⟩ :: tokens)) e rest ↔
      ∃ key span after, Reads (sequence tokens) key (⟨.rbracket, span⟩ :: after) ∧
        Reads (suffixes (.index object key) after) e rest := by
  rw [suffixes]
  simp only [reads_bind, reads_pure]
  constructor
  · intro hread
    rcases hread with ⟨key, mid, hk, hkey, _, after, ha, hclose, whole, later, fewer, hwhole, rfl,
      rfl⟩
    rcases reads_expect_iff.mp ⟨ha, hclose⟩ with ⟨span, rfl⟩
    exact ⟨key, span, after, ⟨hk, hkey⟩, fewer, hwhole⟩
  · intro hread
    rcases hread with ⟨key, span, after, ⟨hk, hkey⟩, fewer, hwhole⟩
    rcases reads_expect .rbracket span _ with ⟨ha, hclose⟩
    exact ⟨key, _, hk, hkey, (), after, ha, hclose, e, rest, fewer, hwhole, rfl, rfl⟩

theorem reads_suffixes_paren {object e : Expr} {paren : Span} {tokens rest : List Token} :
    Reads (suffixes object (⟨.lparen, paren⟩ :: tokens)) e rest ↔
      ∃ args after, Reads (itemsUntil .rparen tokens) args after ∧
        Reads (suffixes (.call object args) after) e rest := by
  rw [suffixes]
  simp only [reads_bind, reads_pure]
  constructor
  · intro hread
    rcases hread with ⟨args, after, shorter, hargs, whole, later, fewer, hwhole, rfl, rfl⟩
    exact ⟨args, after, ⟨shorter, hargs⟩, fewer, hwhole⟩
  · intro hread
    rcases hread with ⟨args, after, ⟨shorter, hargs⟩, fewer, hwhole⟩
    exact ⟨args, after, shorter, hargs, e, rest, fewer, hwhole, rfl, rfl⟩

/-- Whether a token of this kind continues a value. -/
def isSuffix : TokenKind → Bool
  | .dot | .lbracket | .lparen => true
  | _ => false

/-- A token list starts with one of the three suffixes, or a value ends there. -/
theorem suffix_cases (tokens : List Token) :
    (∃ span after, tokens = ⟨.dot, span⟩ :: after) ∨
      (∃ span after, tokens = ⟨.lbracket, span⟩ :: after) ∨
      (∃ span after, tokens = ⟨.lparen, span⟩ :: after) ∨
      isSuffix (head tokens).kind = false := by
  cases tokens with
  | nil => exact Or.inr (Or.inr (Or.inr rfl))
  | cons token after =>
      rcases token with ⟨kind, span⟩
      cases kind with
      | dot => exact Or.inl ⟨span, after, rfl⟩
      | lbracket => exact Or.inr (Or.inl ⟨span, after, rfl⟩)
      | lparen => exact Or.inr (Or.inr (Or.inl ⟨span, after, rfl⟩))
      | _ => exact Or.inr (Or.inr (Or.inr rfl))

theorem reads_suffixes_stop {object e : Expr} {tokens rest : List Token}
    (h : isSuffix (head tokens).kind = false) :
    Reads (suffixes object tokens) e rest ↔ object = e ∧ tokens = rest := by
  rw [suffixes]
  · exact reads_pure
  · intro span after heq
    subst heq
    cases h
  · intro span after heq
    subst heq
    cases h
  · intro span after heq
    subst heq
    cases h

/-!
## Primary expressions
-/

theorem reads_primary_name {first : String} {span : Span} {tokens rest : List Token}
    {e : Expr} :
    Reads (primary (⟨.ident first, span⟩ :: tokens)) e rest ↔
      (name first span tokens).value = e ∧ (name first span tokens).rest = rest := by
  rw [primary]
  exact reads_pure

theorem reads_primary_paren {paren : Span} {tokens rest : List Token} {e : Expr} :
    Reads (primary (⟨.lparen, paren⟩ :: tokens)) e rest ↔
      ∃ span, Reads (sequence tokens) e (⟨.rparen, span⟩ :: rest) := by
  rw [primary]
  simp only [reads_bind, reads_pure]
  constructor
  · intro hread
    rcases hread with ⟨inner, mid, hi, hinner, _, after, ha, hclose, rfl, rfl⟩
    rcases reads_expect_iff.mp ⟨ha, hclose⟩ with ⟨span, rfl⟩
    exact ⟨span, hi, hinner⟩
  · intro hread
    rcases hread with ⟨span, hi, hinner⟩
    rcases reads_expect .rparen span _ with ⟨ha, hclose⟩
    exact ⟨e, _, hi, hinner, (), rest, ha, hclose, rfl, rfl⟩

theorem reads_primary_bracket {bracket : Span} {tokens rest : List Token} {e : Expr} :
    Reads (primary (⟨.lbracket, bracket⟩ :: tokens)) e rest ↔
      ∃ items, Reads (itemsUntil .rbracket tokens) items rest ∧ e = .list items := by
  rw [primary]
  simp only [reads_bind, reads_pure]
  constructor
  · intro hread
    rcases hread with ⟨items, after, shorter, hitems, rfl, rfl⟩
    exact ⟨items, ⟨shorter, hitems⟩, rfl⟩
  · intro hread
    rcases hread with ⟨items, ⟨shorter, hitems⟩, rfl⟩
    exact ⟨items, rest, shorter, hitems, rfl, rfl⟩

theorem reads_primary_brace {brace : Span} {tokens rest : List Token} {e : Expr} :
    Reads (primary (⟨.lbrace, brace⟩ :: tokens)) e rest ↔ Reads (setOrMap tokens) e rest := by
  rw [primary]
  simp only [reads_bind, reads_pure]
  constructor
  · intro hread
    rcases hread with ⟨braced, after, shorter, hbraced, rfl, rfl⟩
    exact ⟨shorter, hbraced⟩
  · intro hread
    rcases hread with ⟨shorter, hbraced⟩
    exact ⟨e, rest, shorter, hbraced, rfl, rfl⟩

/-- Every other primary expression is a single token. -/
theorem primary_single {kind : TokenKind} {span : Span} {rest : List Token}
    (hname : ∀ first, kind ≠ .ident first) (hparen : kind ≠ .lparen)
    (hbracket : kind ≠ .lbracket) (hbrace : kind ≠ .lbrace) :
    primary (⟨kind, span⟩ :: rest) =
      (literal? kind).elim (.error (.expectedExpression kind.description span))
        fun e => .ok ⟨e, rest, Nat.lt_succ_self _⟩ := by
  rw [primary]
  · simp only [head]
    cases literal? kind <;> rfl
  · rintro first place after hcons
    cases hcons
    exact hname first rfl
  · rintro place after hcons
    cases hcons
    exact hparen rfl
  · rintro place after hcons
    cases hcons
    exact hbracket rfl
  · rintro place after hcons
    cases hcons
    exact hbrace rfl

theorem reads_primary_iff_literal {token : Token} {tokens rest : List Token} {e : Expr}
    (hname : ∀ first, token.kind ≠ .ident first) (hparen : token.kind ≠ .lparen)
    (hbracket : token.kind ≠ .lbracket) (hbrace : token.kind ≠ .lbrace) :
    Reads (primary (token :: tokens)) e rest ↔ literal? token.kind = some e ∧ tokens = rest := by
  rcases token with ⟨kind, span⟩
  rw [primary_single hname hparen hbracket hbrace]
  cases hliteral : literal? kind with
  | none =>
      simp only [Option.elim_none, reduceCtorEq, false_and, iff_false]
      exact not_reads_error
  | some literal =>
      simp only [Option.elim_some, Option.some.injEq]
      exact reads_pure

/-- A token starts a name or an expression in brackets, or it stands alone. -/
theorem primary_cases (token : Token) :
    (∃ first span, token = ⟨.ident first, span⟩) ∨ (∃ span, token = ⟨.lparen, span⟩) ∨
      (∃ span, token = ⟨.lbracket, span⟩) ∨ (∃ span, token = ⟨.lbrace, span⟩) ∨
      ((∀ first, token.kind ≠ .ident first) ∧ token.kind ≠ .lparen ∧
        token.kind ≠ .lbracket ∧ token.kind ≠ .lbrace) := by
  rcases token with ⟨kind, span⟩
  cases kind with
  | ident first => exact Or.inl ⟨first, span, rfl⟩
  | lparen => exact Or.inr (Or.inl ⟨span, rfl⟩)
  | lbracket => exact Or.inr (Or.inr (Or.inl ⟨span, rfl⟩))
  | lbrace => exact Or.inr (Or.inr (Or.inr (Or.inl ⟨span, rfl⟩)))
  | _ => exact Or.inr (Or.inr (Or.inr (Or.inr (by simp))))

theorem not_reads_primary_nil {e : Expr} {rest : List Token} : ¬ Reads (primary []) e rest := by
  rw [primary]
  · exact not_reads_error
  all_goals simp

/-!
## Lists of items and entries
-/

theorem reads_itemsUntil_close {close : TokenKind} {span : Span} {tokens rest : List Token}
    {items : List Expr} :
    Reads (itemsUntil close (⟨close, span⟩ :: tokens)) items rest ↔
      items = [] ∧ tokens = rest := by
  rw [itemsUntil, if_pos (show (head (⟨close, span⟩ :: tokens)).kind = close from rfl)]
  simp only [reads_bind, reads_pure]
  constructor
  · intro hread
    rcases hread with ⟨_, after, ha, hclose, rfl, rfl⟩
    rcases reads_expect_iff.mp ⟨ha, hclose⟩ with ⟨span', h⟩
    cases h
    exact ⟨rfl, rfl⟩
  · intro hread
    rcases hread with ⟨rfl, rfl⟩
    rcases reads_expect close span _ with ⟨ha, hclose⟩
    exact ⟨(), tokens, ha, hclose, rfl, rfl⟩

theorem reads_itemsUntil_items {close : TokenKind} {tokens rest : List Token}
    {items : List Expr} (h : (head tokens).kind ≠ close) :
    Reads (itemsUntil close tokens) items rest ↔
      ∃ span, Reads (itemList tokens) items (⟨close, span⟩ :: rest) := by
  rw [itemsUntil, if_neg h]
  simp only [reads_bind, reads_pure]
  constructor
  · intro hread
    rcases hread with ⟨inner, mid, hi, hinner, _, after, ha, hclose, rfl, rfl⟩
    rcases reads_expect_iff.mp ⟨ha, hclose⟩ with ⟨span, rfl⟩
    exact ⟨span, hi, hinner⟩
  · intro hread
    rcases hread with ⟨span, hi, hinner⟩
    rcases reads_expect close span _ with ⟨ha, hclose⟩
    exact ⟨items, _, hi, hinner, (), rest, ha, hclose, rfl, rfl⟩

theorem reads_itemList_iff {tokens rest : List Token} {items : List Expr} :
    Reads (itemList tokens) items rest ↔
      ∃ item mid more, Reads (assignment tokens) item mid ∧ Reads (itemTail mid) more rest ∧
        items = item :: more := by
  rw [itemList]
  simp only [reads_bind, reads_pure]
  constructor
  · intro hread
    rcases hread with ⟨item, mid, shorter, hitem, more, after, fewer, hmore, rfl, rfl⟩
    exact ⟨item, mid, more, ⟨shorter, hitem⟩, ⟨fewer, hmore⟩, rfl⟩
  · intro hread
    rcases hread with ⟨item, mid, more, ⟨shorter, hitem⟩, ⟨fewer, hmore⟩, rfl⟩
    exact ⟨item, mid, shorter, hitem, more, rest, fewer, hmore, rfl, rfl⟩

theorem reads_itemTail_comma {comma : Span} {tokens rest : List Token} {items : List Expr} :
    Reads (itemTail (⟨.comma, comma⟩ :: tokens)) items rest ↔
      Reads (itemList tokens) items rest := by
  rw [itemTail, reads_itemList_iff]
  simp only [reads_bind, reads_pure]
  constructor
  · intro hread
    rcases hread with ⟨item, mid, shorter, hitem, more, after, fewer, hmore, rfl, rfl⟩
    exact ⟨item, mid, more, ⟨shorter, hitem⟩, ⟨fewer, hmore⟩, rfl⟩
  · intro hread
    rcases hread with ⟨item, mid, more, ⟨shorter, hitem⟩, ⟨fewer, hmore⟩, rfl⟩
    exact ⟨item, mid, shorter, hitem, more, rest, fewer, hmore, rfl, rfl⟩

theorem reads_itemTail_stop {tokens rest : List Token} {items : List Expr}
    (h : (head tokens).kind ≠ .comma) :
    Reads (itemTail tokens) items rest ↔ items = [] ∧ tokens = rest := by
  rw [itemTail]
  · rw [reads_pure, eq_comm]
  · intro span after heq
    subst heq
    exact h rfl

theorem reads_entryTail_comma {comma : Span} {tokens rest : List Token}
    {entries : List (Expr × Expr)} :
    Reads (entryTail (⟨.comma, comma⟩ :: tokens)) entries rest ↔
      ∃ key colon after value mid more, Reads (assignment tokens) key (⟨.colon, colon⟩ :: after) ∧
        Reads (assignment after) value mid ∧ Reads (entryTail mid) more rest ∧
        entries = (key, value) :: more := by
  rw [entryTail]
  simp only [reads_bind, reads_pure]
  constructor
  · intro hread
    rcases hread with ⟨key, beyond, hk, hkey, _, after, ha, hcolon, value, mid, hv, hvalue, more,
      later, hm, hmore, rfl, rfl⟩
    rcases reads_expect_iff.mp ⟨ha, hcolon⟩ with ⟨colon, rfl⟩
    exact ⟨key, colon, after, value, mid, more, ⟨hk, hkey⟩, ⟨hv, hvalue⟩, ⟨hm, hmore⟩, rfl⟩
  · intro hread
    rcases hread with ⟨key, colon, after, value, mid, more, ⟨hk, hkey⟩, ⟨hv, hvalue⟩, ⟨hm, hmore⟩,
      rfl⟩
    rcases reads_expect .colon colon _ with ⟨ha, hcolon⟩
    exact ⟨key, _, hk, hkey, (), after, ha, hcolon, value, mid, hv, hvalue, more, rest, hm, hmore,
      rfl, rfl⟩

theorem reads_entryTail_stop {tokens rest : List Token} {entries : List (Expr × Expr)}
    (h : (head tokens).kind ≠ .comma) :
    Reads (entryTail tokens) entries rest ↔ entries = [] ∧ tokens = rest := by
  rw [entryTail]
  · rw [reads_pure, eq_comm]
  · intro span after heq
    subst heq
    exact h rfl

theorem reads_setOrMap_empty {brace : Span} {tokens rest : List Token} {e : Expr} :
    Reads (setOrMap (⟨.rbrace, brace⟩ :: tokens)) e rest ↔ .set [] = e ∧ tokens = rest := by
  rw [setOrMap]
  exact reads_pure

theorem reads_setOrMap_iff {tokens rest : List Token} {e : Expr}
    (h : (head tokens).kind ≠ .rbrace) :
    Reads (setOrMap tokens) e rest ↔
      ∃ first mid span, Reads (assignment tokens) first mid ∧
        ((∃ colon after value later entries, mid = ⟨.colon, colon⟩ :: after ∧
            Reads (assignment after) value later ∧
            Reads (entryTail later) entries (⟨.rbrace, span⟩ :: rest) ∧
            e = .map ((first, value) :: entries)) ∨
          ((head mid).kind ≠ .colon ∧
            ∃ items, Reads (itemTail mid) items (⟨.rbrace, span⟩ :: rest) ∧
              e = .set (first :: items))) := by
  rw [setOrMap]
  · simp only [reads_bind]
    constructor
    · intro hread
      rcases hread with ⟨first, mid, shorter, hfirst, hrest⟩
      rcases head_kind_eq_or .colon (by decide) mid with ⟨colon, after, rfl⟩ | hne
      · rcases eat?_cons first shorter with ⟨fewer, heat⟩
        simp only [heat, reads_bind, reads_pure] at hrest
        obtain ⟨value, later, hv, hvalue, entries, beyond, he, hentries, _, _, ha, hclose, rfl,
          rfl⟩ := hrest
        rcases reads_expect_iff.mp ⟨ha, hclose⟩ with ⟨span, rfl⟩
        exact ⟨first, _, span, ⟨shorter, hfirst⟩,
          Or.inl ⟨colon, after, value, later, entries, rfl, ⟨hv, hvalue⟩, ⟨he, hentries⟩, rfl⟩⟩
      · simp only [eat?_eq_none hne, reads_bind, reads_pure] at hrest
        rcases hrest with ⟨items, beyond, hi, hitems, _, _, ha, hclose, rfl, rfl⟩
        rcases reads_expect_iff.mp ⟨ha, hclose⟩ with ⟨span, rfl⟩
        exact ⟨first, mid, span, ⟨shorter, hfirst⟩, Or.inr ⟨hne, items, ⟨hi, hitems⟩, rfl⟩⟩
    · intro hread
      rcases hread with ⟨first, mid, span, ⟨shorter, hfirst⟩, hrest⟩
      refine ⟨first, mid, shorter, hfirst, ?_⟩
      rcases reads_expect .rbrace span rest with ⟨ha, hclose⟩
      rcases hrest with ⟨colon, after, value, later, entries, rfl, ⟨hv, hvalue⟩, ⟨he, hentries⟩,
        rfl⟩ | ⟨hne, items, ⟨hi, hitems⟩, rfl⟩
      · rcases eat?_cons first shorter with ⟨fewer, heat⟩
        simp only [heat, reads_bind, reads_pure]
        exact ⟨value, later, hv, hvalue, entries, _, he, hentries, (), rest, ha, hclose, rfl, rfl⟩
      · simp only [eat?_eq_none hne, reads_bind, reads_pure]
        exact ⟨items, _, hi, hitems, (), rest, ha, hclose, rfl, rfl⟩
  · intro span after heq
    subst heq
    exact h rfl

/-!
## Where repetitions stop
-/

section Stops

variable {tokens : List Token}

theorem sequenceTail_stop {left : Expr} (h : (head tokens).kind ≠ .semicolon) :
    sequenceTail left tokens = .ok ⟨left, tokens, Nat.lt_succ_self _⟩ := by
  rw [sequenceTail]
  · rfl
  · rintro span after rfl
    exact h rfl

theorem suffixes_stop {object : Expr} (h : isSuffix (head tokens).kind = false) :
    suffixes object tokens = .ok ⟨object, tokens, Nat.lt_succ_self _⟩ := by
  rw [suffixes]
  · rfl
  all_goals
    rintro span after rfl
    cases h

theorem itemTail_stop (h : (head tokens).kind ≠ .comma) :
    itemTail tokens = .ok ⟨[], tokens, Nat.lt_succ_self _⟩ := by
  rw [itemTail]
  · rfl
  · rintro span after rfl
    exact h rfl

theorem entryTail_stop (h : (head tokens).kind ≠ .comma) :
    entryTail tokens = .ok ⟨[], tokens, Nat.lt_succ_self _⟩ := by
  rw [entryTail]
  · rfl
  · rintro span after rfl
    exact h rfl

end Stops

end Grammar
end ExprLang
