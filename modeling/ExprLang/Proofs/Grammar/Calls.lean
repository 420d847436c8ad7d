import ExprLang.Proofs.Grammar.Soundness

/-!
# The calls of a reader

A reader looks at the next tokens, calls other readers on the tokens that are left, and puts their
answers together.  Its steps are a tree that branches on those answers, so that one can speak of the
calls a reader makes.  Every reader answers what its steps come to when the readers answer the
calls.
-/

namespace ExprLang

/-- The value with the tokens left. -/
def Parsed.pair {α : Type} {bound : Nat} (parsed : Parsed α bound) : α × List Token :=
  (parsed.value, parsed.rest)

namespace Grammar

/-- The readers, each with what it is given besides tokens. -/
inductive Reader
  | token (kind : TokenKind) (hkind : kind ≠ .eof)
  | name
  | sequence
  | sequenceTail (left : Expr)
  | assignment
  | choice
  | binaryAt (level : Level)
  | operandOf (level : Level)
  | binaryTail (level : Level) (left : Expr)
  | unary
  | value
  | suffixes (object : Expr)
  | primary
  | itemsUntil (close : TokenKind) (hclose : close ≠ .eof)
  | itemList
  | itemTail
  | setOrMap
  | entryTail

namespace Reader

/-- What a reader builds from the tokens that it reads. -/
abbrev Answer : Reader → Type
  | token .. => Unit
  | name => String
  | itemsUntil .. | itemList | itemTail => List Expr
  | entryTail => List (Expr × Expr)
  | _ => Expr

/-- The answer of a reader, with the tokens that it leaves. -/
def read : (reader : Reader) → List Token → Except ParseError (reader.Answer × List Token)
  | token kind _, tokens => (expect kind tokens).map Parsed.pair
  | name, tokens => (expectName tokens).map Parsed.pair
  | sequence, tokens => (Grammar.sequence tokens).map Parsed.pair
  | sequenceTail left, tokens => (Grammar.sequenceTail left tokens).map Parsed.pair
  | assignment, tokens => (Grammar.assignment tokens).map Parsed.pair
  | choice, tokens => (Grammar.choice tokens).map Parsed.pair
  | binaryAt level, tokens => (Grammar.binaryAt level tokens).map Parsed.pair
  | operandOf level, tokens => (Grammar.operandOf level tokens).map Parsed.pair
  | binaryTail level left, tokens => (Grammar.binaryTail level left tokens).map Parsed.pair
  | unary, tokens => (Grammar.unary tokens).map Parsed.pair
  | value, tokens => (Grammar.value tokens).map Parsed.pair
  | suffixes object, tokens => (Grammar.suffixes object tokens).map Parsed.pair
  | primary, tokens => (Grammar.primary tokens).map Parsed.pair
  | itemsUntil close _, tokens => (Grammar.itemsUntil close tokens).map Parsed.pair
  | itemList, tokens => (Grammar.itemList tokens).map Parsed.pair
  | itemTail, tokens => (Grammar.itemTail tokens).map Parsed.pair
  | setOrMap, tokens => (Grammar.setOrMap tokens).map Parsed.pair
  | entryTail, tokens => (Grammar.entryTail tokens).map Parsed.pair

/-- The answer as that of a call that is answered. -/
def answer (reader : Reader) (tokens : List Token) :
    Option (Except ParseError (reader.Answer × List Token)) :=
  some (reader.read tokens)

end Reader

/-!
## Steps
-/

/-- What a reader does up to its end: it answers, it fails, or it calls a reader on some tokens and
goes on with the answer and the tokens left. -/
inductive Steps (α : Type)
  | done (value : α) (rest : List Token)
  | fail (error : ParseError)
  | call (reader : Reader) (tokens : List Token) (next : reader.Answer → List Token → Steps α)

namespace Steps

variable {α β : Type}

/-- Go on behind the next token with what is found in it, or before it if nothing is found. -/
def take (find : Token → Option β) (tokens : List Token) (found : β → List Token → Steps α)
    (other : Steps α) : Steps α :=
  match tokens with
  | [] => other
  | token :: rest => (find token).elim other (found · rest)

/-- What the steps come to when calls are answered in a given way, if every call is answered. -/
def run (answer : (reader : Reader) → List Token →
    Option (Except ParseError (reader.Answer × List Token))) :
    Steps α → Option (Except ParseError (α × List Token))
  | done value rest => some (.ok (value, rest))
  | fail error => some (.error error)
  | call reader tokens next =>
    match answer reader tokens with
    | some (.ok (value, rest)) => (next value rest).run answer
    | some (.error error) => some (.error error)
    | none => none

end Steps

/-- Whether a token is of a kind. -/
def ofKind (kind : TokenKind) (token : Token) : Option Unit :=
  if token.kind = kind then some () else none

/-- The name that a token is, and where it stands. -/
def identifier? : Token → Option (String × Span)
  | ⟨.ident name, span⟩ => some (name, span)
  | _ => none

namespace Reader

open Steps (done fail call take)

/-- The steps of a reader. -/
def steps : (reader : Reader) → List Token → Steps reader.Answer
  | token kind _, tokens =>
    take (ofKind kind) tokens (fun _ rest => done () rest)
      (fail (unexpected kind.description tokens))
  | name, tokens =>
    take identifier? tokens (fun found rest => done found.1 rest)
      (fail (unexpected "identifier" tokens))
  | sequence, tokens =>
    call assignment tokens fun left rest =>
    call (sequenceTail left) rest done
  | sequenceTail left, tokens =>
    take (ofKind .semicolon) tokens
      (fun _ rest =>
        call assignment rest fun right rest =>
        call (sequenceTail (.seq left right)) rest done)
      (done left tokens)
  | assignment, tokens =>
    match lambdaHead? tokens with
    | some ⟨params, rest, _⟩ =>
      call assignment rest fun body rest =>
      done (.lambda params body) rest
    | none =>
      call choice tokens fun target rest =>
      take (ofKind .eq) rest
        (fun _ rest =>
          call assignment rest fun value rest =>
          done (.assign target value) rest)
        (done target rest)
  | choice, tokens =>
    call (binaryAt .or) tokens fun condition rest =>
    take (ofKind .question) rest
      (fun _ rest =>
        call choice rest fun yes rest =>
        call (token .colon (by decide)) rest fun _ rest =>
        call choice rest fun no rest =>
        done (.ternary condition yes no) rest)
      (done condition rest)
  | binaryAt level, tokens =>
    call (operandOf level) tokens fun left rest =>
    call (binaryTail level left) rest done
  | operandOf level, tokens =>
    match level.tighter with
    | some inner => call (binaryAt inner) tokens done
    | none => call unary tokens done
  | binaryTail level left, tokens =>
    take (level.operator? ·.kind) tokens
      (fun apply rest =>
        call (operandOf level) rest fun right rest =>
        call (binaryTail level (apply left right)) rest done)
      (done left tokens)
  | unary, tokens =>
    take (unaryOp? ·.kind) tokens
      (fun op rest =>
        call unary rest fun operand rest =>
        done (.unary op operand) rest)
      (call value tokens done)
  | value, tokens =>
    call primary tokens fun first rest =>
    call (suffixes first) rest done
  | suffixes object, tokens =>
    take (ofKind .dot) tokens
      (fun _ rest =>
        call name rest fun property rest =>
        call (suffixes (.member object property)) rest done) <|
    take (ofKind .lbracket) tokens
      (fun _ rest =>
        call sequence rest fun key rest =>
        call (token .rbracket (by decide)) rest fun _ rest =>
        call (suffixes (.index object key)) rest done) <|
    take (ofKind .lparen) tokens
      (fun _ rest =>
        call (itemsUntil .rparen (by decide)) rest fun args rest =>
        call (suffixes (.call object args)) rest done) <|
    done object tokens
  | primary, tokens =>
    take identifier? tokens
      (fun found rest =>
        done (Grammar.name found.1 found.2 rest).value (Grammar.name found.1 found.2 rest).rest) <|
    take (ofKind .lparen) tokens
      (fun _ rest =>
        call sequence rest fun inner rest =>
        call (token .rparen (by decide)) rest fun _ rest =>
        done inner rest) <|
    take (ofKind .lbracket) tokens
      (fun _ rest =>
        call (itemsUntil .rbracket (by decide)) rest fun items rest =>
        done (.list items) rest) <|
    take (ofKind .lbrace) tokens
      (fun _ rest => call setOrMap rest done) <|
    take (literal? ·.kind) tokens done <|
    fail (.expectedExpression (head tokens).kind.description (head tokens).span)
  | itemsUntil close hclose, tokens =>
    if (head tokens).kind = close then
      call (token close hclose) tokens fun _ rest =>
      done [] rest
    else
      call itemList tokens fun items rest =>
      call (token close hclose) rest fun _ rest =>
      done items rest
  | itemList, tokens =>
    call assignment tokens fun item rest =>
    call itemTail rest fun items rest =>
    done (item :: items) rest
  | itemTail, tokens =>
    take (ofKind .comma) tokens
      (fun _ rest =>
        call assignment rest fun item rest =>
        call itemTail rest fun items rest =>
        done (item :: items) rest)
      (done [] tokens)
  | setOrMap, tokens =>
    take (ofKind .rbrace) tokens (fun _ rest => done (.set []) rest) <|
    call assignment tokens fun first rest =>
    take (ofKind .colon) rest
      (fun _ rest =>
        call assignment rest fun value rest =>
        call entryTail rest fun entries rest =>
        call (token .rbrace (by decide)) rest fun _ rest =>
        done (.map ((first, value) :: entries)) rest) <|
    call itemTail rest fun items rest =>
    call (token .rbrace (by decide)) rest fun _ rest =>
    done (.set (first :: items)) rest
  | entryTail, tokens =>
    take (ofKind .comma) tokens
      (fun _ rest =>
        call assignment rest fun key rest =>
        call (token .colon (by decide)) rest fun _ rest =>
        call assignment rest fun value rest =>
        call entryTail rest fun entries rest =>
        done ((key, value) :: entries) rest)
      (done [] tokens)

end Reader

/-!
## The next token
-/

section Take

variable {α β : Type} {tokens rest : List Token} {kind : TokenKind} {span : Span}
  {find : Token → Option β} {found : β → List Token → Steps α} {other : Steps α}

theorem ofKind_eq_none (h : (head tokens).kind ≠ kind) : ofKind kind (head tokens) = none :=
  if_neg h

theorem identifier?_eq_none {token : Token} (h : ∀ first, token.kind ≠ .ident first) :
    identifier? token = none := by
  unfold identifier?
  split
  · exact absurd rfl (h _)
  · rfl

theorem take_of_some {token : Token} {b : β} (h : find token = some b) :
    Steps.take find (token :: rest) found other = found b rest := by
  simp only [Steps.take, h, Option.elim_some]

theorem take_of_none (h : find (head tokens) = none) :
    Steps.take find tokens found other = other := by
  cases tokens with
  | nil => rfl
  | cons token after =>
      have hnone : find token = none := h
      simp only [Steps.take, hnone, Option.elim_none]

theorem take_ofKind {found : Unit → List Token → Steps α} :
    Steps.take (ofKind kind) (⟨kind, span⟩ :: rest) found other = found () rest :=
  take_of_some (if_pos rfl)

theorem take_ofKind_cons {other' : TokenKind} {found : Unit → List Token → Steps α}
    (h : other' ≠ kind) :
    Steps.take (ofKind kind) (⟨other', span⟩ :: rest) found other = other :=
  take_of_none (if_neg h)

theorem take_identifier {first : String} {found : String × Span → List Token → Steps α} :
    Steps.take identifier? (⟨.ident first, span⟩ :: rest) found other = found (first, span) rest :=
  rfl

theorem take_ofKind_of_ne {found : Unit → List Token → Steps α} (h : (head tokens).kind ≠ kind) :
    Steps.take (ofKind kind) tokens found other = other :=
  take_of_none (ofKind_eq_none h)

end Take

/-!
## Answers of composed steps
-/

/-- The steps come to an outcome when the readers answer the calls. -/
def ComesTo {α : Type} {bound : Nat} (steps : Steps α)
    (outcome : Except ParseError (Parsed α bound)) : Prop :=
  steps.run Reader.answer = some (outcome.map Parsed.pair)

section Composition

variable {α : Type} {bound bound' : Nat}

theorem comesTo_done {value : α} {rest : List Token} {shorter : rest.length < bound} :
    ComesTo (.done value rest) (.ok ⟨value, rest, shorter⟩) := rfl

theorem comesTo_fail {error : ParseError} :
    ComesTo (.fail error : Steps α) (.error error : Except ParseError (Parsed α bound)) := rfl

theorem comesTo_call {reader : Reader} {tokens : List Token}
    {next : reader.Answer → List Token → Steps α}
    {outcome : Except ParseError (Parsed reader.Answer bound)}
    {after : Parsed reader.Answer bound → Except ParseError (Parsed α bound')}
    (h : reader.read tokens = outcome.map Parsed.pair)
    (hnext : ∀ value rest shorter,
      ComesTo (next value rest) (after ⟨value, rest, shorter⟩)) :
    ComesTo (.call reader tokens next) (outcome >>= after) := by
  unfold ComesTo
  rw [Steps.run, Reader.answer, h]
  cases outcome with
  | error e => rfl
  | ok parsed =>
      rcases parsed with ⟨value, rest, shorter⟩
      exact hnext value rest shorter

theorem comesTo_last {reader : Reader} {tokens : List Token}
    {outcome : Except ParseError (Parsed reader.Answer bound)}
    (h : reader.read tokens = outcome.map Parsed.pair) :
    ComesTo (.call reader tokens .done) outcome := by
  unfold ComesTo
  rw [Steps.run, Reader.answer, h]
  cases outcome <;> rfl

end Composition

/-!
## Every reader follows its steps

A reader and its steps look at the same token, so the cases are those of the reader.  No induction
is needed: the calls are answered by the readers themselves.
-/

section Following

variable {tokens : List Token}

theorem expect_follows (kind : TokenKind) (hkind : kind ≠ .eof) :
    ComesTo (Reader.steps (.token kind hkind) tokens) (expect kind tokens) := by
  rcases head_kind_eq_or kind hkind tokens with ⟨span, after, rfl⟩ | hne
  · rw [Reader.steps, take_ofKind, expect, if_pos rfl]
    exact comesTo_done
  · rw [Reader.steps, take_ofKind_of_ne hne, expect_of_ne hne]
    exact comesTo_fail

theorem expectName_follows : ComesTo (Reader.steps .name tokens) (expectName tokens) := by
  unfold expectName
  split
  · rw [Reader.steps, take_identifier]
    exact comesTo_done
  · rename_i hident
    have hhead : ∀ first, (head tokens).kind ≠ .ident first := by
      intro first hkind
      rcases head_kind_eq_or (.ident first) (by simp) tokens with ⟨span, after, rfl⟩ | hne
      · exact hident first span after rfl
      · exact hne hkind
    rw [Reader.steps, take_of_none (identifier?_eq_none hhead)]
    exact comesTo_fail

theorem sequence_follows : ComesTo (Reader.steps .sequence tokens) (sequence tokens) := by
  rw [Reader.steps, sequence]
  refine comesTo_call rfl fun left mid _ => ?_
  refine comesTo_call rfl fun whole rest _ => ?_
  exact comesTo_done

theorem sequenceTail_follows (left : Expr) :
    ComesTo (Reader.steps (.sequenceTail left) tokens) (sequenceTail left tokens) := by
  rcases head_kind_eq_or .semicolon (by decide) tokens with ⟨span, after, rfl⟩ | hstop
  · rw [Reader.steps, take_ofKind, sequenceTail]
    refine comesTo_call rfl fun right mid _ => ?_
    refine comesTo_call rfl fun whole rest _ => ?_
    exact comesTo_done
  · rw [Reader.steps, take_ofKind_of_ne hstop, sequenceTail_stop hstop]
    exact comesTo_done

theorem assignment_follows : ComesTo (Reader.steps .assignment tokens) (assignment tokens) := by
  rw [Reader.steps, assignment]
  cases lambdaHead? tokens with
  | some head =>
      refine comesTo_call rfl fun body rest _ => ?_
      exact comesTo_done
  | none =>
      refine comesTo_call rfl fun target mid shorter => ?_
      rcases head_kind_eq_or .eq (by decide) mid with ⟨span, after, rfl⟩ | hstop
      · rcases eat?_cons target shorter with ⟨fewer, heat⟩
        simp only [heat]
        rw [take_ofKind]
        refine comesTo_call rfl fun value rest _ => ?_
        exact comesTo_done
      · simp only [eat?_eq_none hstop]
        rw [take_ofKind_of_ne hstop]
        exact comesTo_done

theorem choice_follows : ComesTo (Reader.steps .choice tokens) (choice tokens) := by
  rw [Reader.steps, choice]
  refine comesTo_call rfl fun condition mid shorter => ?_
  rcases head_kind_eq_or .question (by decide) mid with ⟨span, after, rfl⟩ | hstop
  · rcases eat?_cons condition shorter with ⟨fewer, heat⟩
    simp only [heat]
    rw [take_ofKind]
    refine comesTo_call rfl fun yes later _ => ?_
    refine comesTo_call rfl fun _ last _ => ?_
    refine comesTo_call rfl fun no rest _ => ?_
    exact comesTo_done
  · simp only [eat?_eq_none hstop]
    rw [take_ofKind_of_ne hstop]
    exact comesTo_done

theorem binaryAt_follows (level : Level) :
    ComesTo (Reader.steps (.binaryAt level) tokens) (binaryAt level tokens) := by
  rw [Reader.steps, binaryAt]
  refine comesTo_call rfl fun left mid _ => ?_
  refine comesTo_call rfl fun whole rest _ => ?_
  exact comesTo_done

theorem operandOf_follows (level : Level) :
    ComesTo (Reader.steps (.operandOf level) tokens) (operandOf level tokens) := by
  rw [Reader.steps]
  cases htighter : level.tighter with
  | some inner =>
      rw [operandOf_eq_binaryAt htighter]
      exact comesTo_last rfl
  | none =>
      rw [operandOf_eq_unary htighter]
      exact comesTo_last rfl

theorem binaryTail_follows (level : Level) (left : Expr) :
    ComesTo (Reader.steps (.binaryTail level left) tokens) (binaryTail level left tokens) := by
  cases tokens with
  | nil =>
      rw [binaryTail]
      exact comesTo_done
  | cons token after =>
      rw [Reader.steps, binaryTail]
      cases hoperator : level.operator? token.kind with
      | none =>
          rw [take_of_none hoperator]
          exact comesTo_done
      | some apply =>
          rw [take_of_some hoperator]
          refine comesTo_call rfl fun right mid _ => ?_
          refine comesTo_call rfl fun whole rest _ => ?_
          exact comesTo_done

theorem unary_follows : ComesTo (Reader.steps .unary tokens) (unary tokens) := by
  cases tokens with
  | nil =>
      rw [unary]
      exact comesTo_last rfl
  | cons token after =>
      rw [Reader.steps, unary]
      cases hop : unaryOp? token.kind with
      | none =>
          rw [take_of_none hop]
          exact comesTo_last rfl
      | some op =>
          rw [take_of_some hop]
          refine comesTo_call rfl fun operand rest _ => ?_
          exact comesTo_done

theorem value_follows : ComesTo (Reader.steps .value tokens) (value tokens) := by
  rw [Reader.steps, value]
  refine comesTo_call rfl fun first mid _ => ?_
  refine comesTo_call rfl fun whole rest _ => ?_
  exact comesTo_done

theorem suffixes_follows (object : Expr) :
    ComesTo (Reader.steps (.suffixes object) tokens) (suffixes object tokens) := by
  rcases suffix_cases tokens with ⟨span, after, rfl⟩ | ⟨span, after, rfl⟩ | ⟨span, after, rfl⟩ |
    hstop
  · rw [Reader.steps, take_ofKind, suffixes]
    refine comesTo_call rfl fun property mid _ => ?_
    refine comesTo_call rfl fun whole rest _ => ?_
    exact comesTo_done
  · rw [Reader.steps, take_ofKind_cons (by decide), take_ofKind, suffixes]
    refine comesTo_call rfl fun key mid _ => ?_
    refine comesTo_call rfl fun _ later _ => ?_
    refine comesTo_call rfl fun whole rest _ => ?_
    exact comesTo_done
  · rw [Reader.steps, take_ofKind_cons (by decide), take_ofKind_cons (by decide), take_ofKind,
      suffixes]
    refine comesTo_call rfl fun args mid _ => ?_
    refine comesTo_call rfl fun whole rest _ => ?_
    exact comesTo_done
  · have hne : ∀ {kind}, isSuffix kind = true → (head tokens).kind ≠ kind := by
      rintro kind hsuffix rfl
      rw [hstop] at hsuffix
      cases hsuffix
    rw [Reader.steps, take_ofKind_of_ne (hne rfl), take_ofKind_of_ne (hne rfl),
      take_ofKind_of_ne (hne rfl), suffixes_stop hstop]
    exact comesTo_done

theorem primary_follows : ComesTo (Reader.steps .primary tokens) (primary tokens) := by
  cases tokens with
  | nil =>
      rw [primary]
      · exact comesTo_fail
      all_goals simp
  | cons token after =>
      rcases primary_cases token with ⟨first, span, rfl⟩ | ⟨span, rfl⟩ | ⟨span, rfl⟩ | ⟨span, rfl⟩ |
        ⟨hname, hparen, hbracket, hbrace⟩
      · rw [Reader.steps, take_identifier, primary]
        exact comesTo_done
      · rw [Reader.steps, take_of_none (by rfl), take_ofKind, primary]
        refine comesTo_call rfl fun inner mid _ => ?_
        refine comesTo_call rfl fun _ rest _ => ?_
        exact comesTo_done
      · rw [Reader.steps, take_of_none (by rfl), take_ofKind_cons (by decide), take_ofKind, primary]
        refine comesTo_call rfl fun items rest _ => ?_
        exact comesTo_done
      · rw [Reader.steps, take_of_none (by rfl), take_ofKind_cons (by decide),
          take_ofKind_cons (by decide), take_ofKind, primary]
        refine comesTo_call rfl fun braced rest _ => ?_
        exact comesTo_done
      · rcases token with ⟨kind, span⟩
        have hhead {other : TokenKind} (hne : kind ≠ other) :
            (head (⟨kind, span⟩ :: after)).kind ≠ other := hne
        rw [Reader.steps, take_of_none (identifier?_eq_none fun first => hhead (hname first)),
          take_ofKind_of_ne (hhead hparen), take_ofKind_of_ne (hhead hbracket),
          take_ofKind_of_ne (hhead hbrace), primary_single hname hparen hbracket hbrace]
        cases hliteral : literal? kind with
        | some e =>
            rw [take_of_some hliteral]
            exact comesTo_done
        | none =>
            rw [take_of_none hliteral]
            exact comesTo_fail

theorem itemsUntil_follows (close : TokenKind) (hclose : close ≠ .eof) :
    ComesTo (Reader.steps (.itemsUntil close hclose) tokens) (itemsUntil close tokens) := by
  rw [Reader.steps, itemsUntil]
  split
  · refine comesTo_call rfl fun _ rest _ => ?_
    exact comesTo_done
  · refine comesTo_call rfl fun items mid _ => ?_
    refine comesTo_call rfl fun _ rest _ => ?_
    exact comesTo_done

theorem itemList_follows : ComesTo (Reader.steps .itemList tokens) (itemList tokens) := by
  rw [Reader.steps, itemList]
  refine comesTo_call rfl fun item mid _ => ?_
  refine comesTo_call rfl fun items rest _ => ?_
  exact comesTo_done

theorem itemTail_follows : ComesTo (Reader.steps .itemTail tokens) (itemTail tokens) := by
  rcases head_kind_eq_or .comma (by decide) tokens with ⟨span, after, rfl⟩ | hstop
  · rw [Reader.steps, take_ofKind, itemTail]
    refine comesTo_call rfl fun item mid _ => ?_
    refine comesTo_call rfl fun items rest _ => ?_
    exact comesTo_done
  · rw [Reader.steps, take_ofKind_of_ne hstop, itemTail_stop hstop]
    exact comesTo_done

theorem setOrMap_follows : ComesTo (Reader.steps .setOrMap tokens) (setOrMap tokens) := by
  rcases head_kind_eq_or .rbrace (by decide) tokens with ⟨span, after, rfl⟩ | hitems
  · rw [Reader.steps, take_ofKind, setOrMap]
    exact comesTo_done
  · rw [Reader.steps, take_ofKind_of_ne hitems, setOrMap]
    · refine comesTo_call rfl fun first mid shorter => ?_
      rcases head_kind_eq_or .colon (by decide) mid with ⟨colon, after, rfl⟩ | hset
      · rcases eat?_cons first shorter with ⟨fewer, heat⟩
        simp only [heat]
        rw [take_ofKind]
        refine comesTo_call rfl fun value later _ => ?_
        refine comesTo_call rfl fun entries last _ => ?_
        refine comesTo_call rfl fun _ rest _ => ?_
        exact comesTo_done
      · simp only [eat?_eq_none hset]
        rw [take_ofKind_of_ne hset]
        refine comesTo_call rfl fun items last _ => ?_
        refine comesTo_call rfl fun _ rest _ => ?_
        exact comesTo_done
    · rintro span after rfl
      exact hitems rfl

theorem entryTail_follows : ComesTo (Reader.steps .entryTail tokens) (entryTail tokens) := by
  rcases head_kind_eq_or .comma (by decide) tokens with ⟨span, after, rfl⟩ | hstop
  · rw [Reader.steps, take_ofKind, entryTail]
    refine comesTo_call rfl fun key mid _ => ?_
    refine comesTo_call rfl fun _ later _ => ?_
    refine comesTo_call rfl fun value last _ => ?_
    refine comesTo_call rfl fun entries rest _ => ?_
    exact comesTo_done
  · rw [Reader.steps, take_ofKind_of_ne hstop, entryTail_stop hstop]
    exact comesTo_done

end Following

/-- A reader answers what its steps come to when the readers answer the calls. -/
theorem read_follows_steps (reader : Reader) (tokens : List Token) :
    (reader.steps tokens).run Reader.answer = some (reader.read tokens) := by
  cases reader with
  | token kind hkind => exact expect_follows kind hkind
  | name => exact expectName_follows
  | sequence => exact sequence_follows
  | sequenceTail left => exact sequenceTail_follows left
  | assignment => exact assignment_follows
  | choice => exact choice_follows
  | binaryAt level => exact binaryAt_follows level
  | operandOf level => exact operandOf_follows level
  | binaryTail level left => exact binaryTail_follows level left
  | unary => exact unary_follows
  | value => exact value_follows
  | suffixes object => exact suffixes_follows object
  | primary => exact primary_follows
  | itemsUntil close hclose => exact itemsUntil_follows close hclose
  | itemList => exact itemList_follows
  | itemTail => exact itemTail_follows
  | setOrMap => exact setOrMap_follows
  | entryTail => exact entryTail_follows

end Grammar
end ExprLang
