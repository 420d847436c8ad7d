import ExprLang.Proofs.Grammar.Language
import ExprLang.Proofs.Template.Body

/-!
# Tokens in another place

A reader looks at the kinds of tokens and, where a name may be qualified, at which tokens touch.
When all tokens are moved by one offset it therefore reads the same tree, and an error is moved
with the token it is at.
-/

namespace ExprLang
namespace Grammar

open Token (shift)

variable {base : Nat}

/-!
## Moving tokens
-/

/-- Tokens up to an empty one that can be moved without reaching the largest offset. -/
structure Movable (base : Nat) (tokens : List Token) : Prop where
  terminated : Terminated tokens
  fits : ∀ token ∈ tokens,
    token.span.start + base ≤ Span.limit ∧ token.span.stop + base ≤ Span.limit

theorem Movable.tail {kind : TokenKind} {span : Span} {rest : List Token}
    (h : Movable base (⟨kind, span⟩ :: rest)) (hkind : kind ≠ .eof) : Movable base rest := by
  obtain ⟨hterminated, hfits⟩ := h
  constructor
  · cases hterminated with
    | eof => exact absurd rfl hkind
    | cons _ hrest => exact hrest
  · exact (List.forall_mem_cons.mp hfits).2

theorem Movable.exists_cons {tokens : List Token} (h : Movable base tokens) :
    ∃ kind span after, tokens = ⟨kind, span⟩ :: after := by
  cases h.terminated with
  | eof => exact ⟨_, _, _, rfl⟩
  | cons => exact ⟨_, _, _, rfl⟩

theorem shift_mk (base : Nat) (kind : TokenKind) (span : Span) :
    shift base ⟨kind, span⟩ = ⟨kind, span.shift base⟩ := rfl

@[simp]
theorem head_map_kind (tokens : List Token) :
    (head (tokens.map (shift base))).kind = (head tokens).kind := by
  cases tokens <;> rfl

/-!
## Outcomes
-/

/-- What a reader answers of tokens, and what it answers of the tokens moved. -/
inductive Moved (base : Nat) {α : Type} {bound bound' : Nat} :
    Except ParseError (Parsed α bound) → Except ParseError (Parsed α bound') → Prop
  | ok {value : α} {rest : List Token} {shorter : rest.length < bound}
      {shorter' : (rest.map (shift base)).length < bound'} :
      Movable base rest →
      Moved base (.ok ⟨value, rest, shorter⟩) (.ok ⟨value, rest.map (shift base), shorter'⟩)
  | unexpected {expected : String} {tokens : List Token} :
      Movable base tokens →
      Moved base (.error (unexpected expected tokens))
        (.error (unexpected expected (tokens.map (shift base))))
  | expectedExpression {token : Token} {tokens : List Token} :
      Movable base (token :: tokens) →
      Moved base (.error (.expectedExpression token.kind.description token.span))
        (.error (.expectedExpression token.kind.description (token.span.shift base)))

section Composition

variable {α β : Type} {bound bound' most most' : Nat}

theorem Moved.bind {outcome : Except ParseError (Parsed α bound)}
    {outcome' : Except ParseError (Parsed α bound')}
    {next : Parsed α bound → Except ParseError (Parsed β most)}
    {next' : Parsed α bound' → Except ParseError (Parsed β most')}
    (h : Moved base outcome outcome')
    (hnext : ∀ value rest shorter shorter', Movable base rest →
      Moved base (next ⟨value, rest, shorter⟩)
        (next' ⟨value, rest.map (shift base), shorter'⟩)) :
    Moved base (outcome >>= next) (outcome' >>= next') := by
  cases h with
  | ok hrest => exact hnext _ _ _ _ hrest
  | unexpected htokens => exact .unexpected htokens
  | expectedExpression htokens => exact .expectedExpression htokens

end Composition

/-!
## Single tokens
-/

theorem expect_moved {kind : TokenKind} (hkind : kind ≠ .eof) {tokens : List Token}
    (h : Movable base tokens) :
    Moved base (expect kind tokens) (expect kind (tokens.map (shift base))) := by
  rcases head_kind_eq_or kind hkind tokens with ⟨span, after, rfl⟩ | hne
  · rw [expect, if_pos rfl, List.map_cons, shift_mk, expect, if_pos rfl]
    exact .ok (h.tail hkind)
  · rw [expect_of_ne hne, expect_of_ne (by rwa [head_map_kind])]
    exact .unexpected h

theorem expectName_moved {tokens : List Token} (h : Movable base tokens) :
    Moved base (expectName tokens) (expectName (tokens.map (shift base))) := by
  by_cases hname : ∃ name span after, tokens = ⟨.ident name, span⟩ :: after
  · obtain ⟨name, span, after, rfl⟩ := hname
    rw [List.map_cons, shift_mk, expectName, expectName]
    exact .ok (h.tail (by simp))
  · have hfail : ∀ {ts : List Token}, (∀ name span after, ts ≠ ⟨.ident name, span⟩ :: after) →
        expectName ts = .error (unexpected "identifier" ts) := by
      intro ts hts
      rw [expectName]
      exact hts
    rw [hfail (by simpa using hname), hfail]
    · exact .unexpected h
    · intro name span after hmap
      obtain ⟨⟨kind, place⟩, rest, rfl, hhead, -⟩ := List.map_eq_cons_iff.mp hmap
      rw [shift_mk, Token.mk.injEq] at hhead
      exact hname ⟨name, place, rest, by rw [hhead.1]⟩

/-- Whether the next token is eaten does not depend on where it is. -/
theorem eat?_moved {α : Type} {bound bound' : Nat} (kind : TokenKind) (hkind : kind ≠ .eof)
    (value : α) {mid : List Token} (shorter : mid.length < bound)
    (shorter' : (mid.map (shift base)).length < bound') (h : Movable base mid) :
    (∃ after fewer fewer', after.length < mid.length ∧ Movable base after ∧
      (⟨value, mid, shorter⟩ : Parsed α bound).eat? kind = some ⟨value, after, fewer⟩ ∧
      (⟨value, mid.map (shift base), shorter'⟩ : Parsed α bound').eat? kind =
        some ⟨value, after.map (shift base), fewer'⟩) ∨
    ((⟨value, mid, shorter⟩ : Parsed α bound).eat? kind = none ∧
      (⟨value, mid.map (shift base), shorter'⟩ : Parsed α bound').eat? kind = none) := by
  rcases head_kind_eq_or kind hkind mid with ⟨span, after, rfl⟩ | hstop
  · obtain ⟨fewer, heat⟩ := eat?_cons value shorter
    obtain ⟨fewer', heat'⟩ := eat?_cons value shorter'
    exact Or.inl ⟨after, fewer, fewer', by simp, h.tail hkind, heat, heat'⟩
  · exact Or.inr ⟨eat?_eq_none hstop, eat?_eq_none (by rwa [head_map_kind])⟩

/-!
## Names
-/

/-- What begins with a token after it is moved began with that kind of token before. -/
theorem exists_of_map_eq_cons {tokens : List Token} {kind : TokenKind} {span : Span}
    {rest : List Token} (h : tokens.map (shift base) = ⟨kind, span⟩ :: rest) :
    ∃ place after, tokens = ⟨kind, place⟩ :: after ∧ span = place.shift base ∧
      rest = after.map (shift base) := by
  obtain ⟨⟨k, place⟩, after, rfl, hhead, rfl⟩ := List.map_eq_cons_iff.mp h
  rw [shift_mk, Token.mk.injEq] at hhead
  obtain ⟨rfl, rfl⟩ := hhead
  exact ⟨place, after, rfl, rfl, rfl⟩

theorem lambdaHead_map_iff {xs : List String} {tokens rest : List Token} :
    LambdaHead xs (tokens.map (shift base)) rest ↔
      ∃ after, rest = after.map (shift base) ∧ LambdaHead xs tokens after := by
  constructor
  · intro h
    have hmimics : Mimics fun moved tokens => moved = tokens.map (shift base) := by
      intro kind span rest tokens hmoved _
      rcases exists_of_map_eq_cons hmoved.symm with ⟨place, after, rfl, -, hafter⟩
      exact ⟨place, after, rfl, hafter⟩
    exact h.mimic hmimics rfl
  · rintro ⟨after, rfl, h⟩
    have hmimics : Mimics fun tokens moved => moved = tokens.map (shift base) := by
      rintro kind span rest _ rfl _
      exact ⟨span.shift base, rest.map (shift base), rfl, rfl⟩
    rcases h.mimic hmimics rfl with ⟨_, rfl, hmoved⟩
    exact hmoved

theorem lambdaHead?_map_of_none {tokens : List Token} (h : lambdaHead? tokens = none) :
    lambdaHead? (tokens.map (shift base)) = none := by
  refine Option.eq_none_iff_forall_ne_some.mpr fun parsed hparsed => ?_
  obtain ⟨after, -, hhead⟩ := lambdaHead_map_iff.mp (lambdaHead_iff.mpr ⟨parsed.shorter, hparsed⟩)
  obtain ⟨_, hsome⟩ := lambdaHead_iff.mp hhead
  rw [h] at hsome
  cases hsome

theorem shift_adjacent {first second : Span} (hfirst : first.stop + base ≤ Span.limit)
    (hsecond : second.start + base ≤ Span.limit) :
    (first.shift base).stop = (second.shift base).start ↔ first.stop = second.start := by
  simp only [Span.shift, Span.ofRange]
  lia

theorem qualifies_map_iff {first : Span} {second : String} {kind : TokenKind}
    {tokens rest : List Token} (h : Movable base (⟨kind, first⟩ :: tokens)) :
    Qualifies (first.shift base) second (tokens.map (shift base)) rest ↔
      ∃ after, rest = after.map (shift base) ∧ Qualifies first second tokens after := by
  have hfits := h.fits
  constructor
  · intro hqualifies
    generalize hmoved : tokens.map (shift base) = moved at hqualifies
    cases hqualifies with
    | touching hcolon hinner =>
        obtain ⟨colon, tokens, rfl, rfl, hinside⟩ := exists_of_map_eq_cons hmoved
        obtain ⟨inner, tokens, rfl, rfl, hbehind⟩ := exists_of_map_eq_cons hinside.symm
        obtain ⟨paren, tokens, rfl, rfl, rfl⟩ := exists_of_map_eq_cons hbehind.symm
        simp only [List.forall_mem_cons] at hfits
        refine ⟨_, rfl, .touching ?_ ?_⟩
        · exact (shift_adjacent hfits.1.2 hfits.2.1.1).mp hcolon
        · exact (shift_adjacent hfits.2.1.2 hfits.2.2.1.1).mp hinner
  · rintro ⟨after, rfl, hqualifies⟩
    cases hqualifies with
    | touching hcolon hinner =>
        simp only [List.forall_mem_cons] at hfits
        refine .touching ?_ ?_
        · exact (shift_adjacent hfits.1.2 hfits.2.1.1).mpr hcolon
        · exact (shift_adjacent hfits.2.1.2 hfits.2.2.1.1).mpr hinner

theorem Movable.of_leaves {tokens rest : List Token} (h : Movable base tokens)
    (hleaves : Leaves tokens rest) : Movable base rest := by
  induction hleaves with
  | refl => exact h
  | step hkind _ ih => exact ih (h.tail hkind)

theorem name_moved {first : String} {span : Span} {rest : List Token}
    (h : Movable base (⟨.ident first, span⟩ :: rest)) :
    Moved base (.ok (name first span rest))
      (.ok (name first (span.shift base) (rest.map (shift base)))) := by
  have hrest : Movable base (name first span rest).rest :=
    (h.tail (by simp)).of_leaves (name_leaves first span rest)
  rcases name_related first (fun _ _ => qualifies_map_iff h) rfl with ⟨hvalue, hafter⟩
  generalize name first (span.shift base) (rest.map (shift base)) = parsed' at hvalue hafter ⊢
  generalize name first span rest = parsed at hvalue hafter hrest ⊢
  rcases parsed with ⟨value, after, shorter⟩
  rcases parsed' with ⟨value', after', shorter'⟩
  obtain rfl : value' = value := hvalue
  obtain rfl : after' = after.map (shift base) := hafter
  exact .ok hrest

/-- A token that starts neither a name nor brackets is read by itself, or not at all. -/
theorem single_moved {kind : TokenKind} {span : Span} {rest : List Token}
    (hname : ∀ first, kind ≠ .ident first) (hparen : kind ≠ .lparen)
    (hbracket : kind ≠ .lbracket) (hbrace : kind ≠ .lbrace)
    (h : Movable base (⟨kind, span⟩ :: rest)) :
    Moved base (primary (⟨kind, span⟩ :: rest))
      (primary (⟨kind, span.shift base⟩ :: rest.map (shift base))) := by
  rw [primary_single hname hparen hbracket hbrace, primary_single hname hparen hbracket hbrace]
  cases hliteral : literal? kind with
  | some e => exact .ok (h.tail (denotes_iff.mpr hliteral).ne_eof)
  | none => exact .expectedExpression h

/-!
## Readers

The induction is that of the readers, on the number of tokens and the level.
-/

mutual

theorem sequence_moved {tokens : List Token} (h : Movable base tokens) :
    Moved base (sequence tokens) (sequence (tokens.map (shift base))) := by
  rw [sequence, sequence]
  refine (assignment_moved h).bind fun left mid shorter _ hmid => ?_
  refine (sequenceTail_moved left hmid).bind fun whole rest _ _ hrest => ?_
  exact .ok hrest
termination_by 32 * tokens.length + 19

theorem sequenceTail_moved (left : Expr) {tokens : List Token} (h : Movable base tokens) :
    Moved base (sequenceTail left tokens) (sequenceTail left (tokens.map (shift base))) := by
  rcases head_kind_eq_or .semicolon (by decide) tokens with ⟨span, after, rfl⟩ | hstop
  · rw [List.map_cons, shift_mk, sequenceTail, sequenceTail]
    refine (assignment_moved (h.tail (by decide))).bind fun right mid shorter _ hmid => ?_
    refine (sequenceTail_moved (.seq left right) hmid).bind fun whole rest _ _ hrest => ?_
    exact .ok hrest
  · rw [sequenceTail_stop hstop, sequenceTail_stop (by rwa [head_map_kind])]
    exact .ok h
termination_by 32 * tokens.length
decreasing_by
  all_goals subst_vars; simp only [List.length_cons]; omega

theorem assignment_moved {tokens : List Token} (h : Movable base tokens) :
    Moved base (assignment tokens) (assignment (tokens.map (shift base))) := by
  rw [assignment, assignment]
  cases hlambda : lambdaHead? tokens with
  | some parsed =>
      obtain ⟨params, mid, shorter⟩ := parsed
      have hhead := lambdaHead_iff.mpr ⟨shorter, hlambda⟩
      obtain ⟨_, hmoved⟩ := lambdaHead_iff.mp (lambdaHead_map_iff.mpr ⟨mid, rfl, hhead⟩)
      rw [hmoved]
      have hmid := h.of_leaves hhead.leaves
      refine (assignment_moved hmid).bind fun body rest _ _ hrest => ?_
      exact .ok hrest
  | none =>
      rw [lambdaHead?_map_of_none hlambda]
      refine (choice_moved h).bind fun target mid shorter shorter' hmid => ?_
      rcases eat?_moved .eq (by decide) target shorter shorter' hmid with
        ⟨after, _, _, fewer, hafter, heat, heat'⟩ | ⟨heat, heat'⟩
      · simp only [heat, heat']
        refine (assignment_moved hafter).bind fun value rest _ _ hrest => ?_
        exact .ok hrest
      · simp only [heat, heat']
        exact .ok hmid
termination_by 32 * tokens.length + 18

theorem choice_moved {tokens : List Token} (h : Movable base tokens) :
    Moved base (choice tokens) (choice (tokens.map (shift base))) := by
  rw [choice, choice]
  refine (binaryAt_moved .or h).bind fun condition mid shorter shorter' hmid => ?_
  rcases eat?_moved .question (by decide) condition shorter shorter' hmid with
    ⟨after, _, _, fewer, hafter, heat, heat'⟩ | ⟨heat, heat'⟩
  · simp only [heat, heat']
    refine (choice_moved hafter).bind fun yes later _ _ hlater => ?_
    refine (expect_moved (by decide) hlater).bind fun _ last _ _ hlast => ?_
    refine (choice_moved hlast).bind fun no rest _ _ hrest => ?_
    exact .ok hrest
  · simp only [heat, heat']
    exact .ok hmid
termination_by 32 * tokens.length + 17
decreasing_by
  · simp only [Level.rank]; omega
  · omega
  · omega

theorem binaryAt_moved (level : Level) {tokens : List Token} (h : Movable base tokens) :
    Moved base (binaryAt level tokens) (binaryAt level (tokens.map (shift base))) := by
  rw [binaryAt, binaryAt]
  refine (operandOf_moved level h).bind fun left mid shorter _ hmid => ?_
  refine (binaryTail_moved level left hmid).bind fun whole rest _ _ hrest => ?_
  exact .ok hrest
termination_by 32 * tokens.length + 2 * level.rank + 4

theorem operandOf_moved (level : Level) {tokens : List Token} (h : Movable base tokens) :
    Moved base (operandOf level tokens) (operandOf level (tokens.map (shift base))) := by
  cases htighter : level.tighter with
  | some inner =>
      rw [operandOf_eq_binaryAt htighter, operandOf_eq_binaryAt htighter]
      exact binaryAt_moved inner h
  | none =>
      rw [operandOf_eq_unary htighter, operandOf_eq_unary htighter]
      exact unary_moved h
termination_by 32 * tokens.length + 2 * level.rank + 3
decreasing_by
  · omega
  · have hrank := Level.rank_lt_of_tighter htighter
    omega

theorem binaryTail_moved (level : Level) (left : Expr) {tokens : List Token}
    (h : Movable base tokens) :
    Moved base (binaryTail level left tokens)
      (binaryTail level left (tokens.map (shift base))) := by
  obtain ⟨kind, span, after, rfl⟩ := h.exists_cons
  rw [List.map_cons, shift_mk, binaryTail, binaryTail]
  cases hoperator : level.operator? kind with
  | none => exact .ok h
  | some apply =>
      have hafter := h.tail (joins_iff.mpr hoperator).ne_eof
      refine (operandOf_moved level hafter).bind fun right mid shorter _ hmid => ?_
      refine (binaryTail_moved level (apply left right) hmid).bind fun whole rest _ _ hrest => ?_
      exact .ok hrest
termination_by 32 * tokens.length
decreasing_by
  · have hrank := Level.rank_le level
    subst_vars; simp only [List.length_cons]; omega
  · subst_vars; simp only [List.length_cons]; omega

theorem unary_moved {tokens : List Token} (h : Movable base tokens) :
    Moved base (unary tokens) (unary (tokens.map (shift base))) := by
  obtain ⟨kind, span, after, rfl⟩ := h.exists_cons
  rw [List.map_cons, shift_mk, unary, unary]
  cases hop : unaryOp? kind with
  | none => exact value_moved h
  | some op =>
      have hafter := h.tail (prefixes_iff.mpr hop).ne_eof
      refine (unary_moved hafter).bind fun operand rest _ _ hrest => ?_
      exact .ok hrest
termination_by 32 * tokens.length + 2
decreasing_by
  all_goals subst_vars; simp only [List.length_cons]; omega

theorem value_moved {tokens : List Token} (h : Movable base tokens) :
    Moved base (value tokens) (value (tokens.map (shift base))) := by
  rw [value, value]
  refine (primary_moved h).bind fun first mid shorter _ hmid => ?_
  refine (suffixes_moved first hmid).bind fun whole rest _ _ hrest => ?_
  exact .ok hrest
termination_by 32 * tokens.length + 1

theorem suffixes_moved (object : Expr) {tokens : List Token} (h : Movable base tokens) :
    Moved base (suffixes object tokens) (suffixes object (tokens.map (shift base))) := by
  rcases suffix_cases tokens with ⟨span, after, rfl⟩ | ⟨span, after, rfl⟩ | ⟨span, after, rfl⟩ |
    hstop
  · rw [List.map_cons, shift_mk, suffixes, suffixes]
    refine (expectName_moved (h.tail (by decide))).bind fun property mid shorter _ hmid => ?_
    refine (suffixes_moved (.member object property) hmid).bind fun whole rest _ _ hrest => ?_
    exact .ok hrest
  · rw [List.map_cons, shift_mk, suffixes, suffixes]
    refine (sequence_moved (h.tail (by decide))).bind fun key mid shorter _ hmid => ?_
    refine (expect_moved (by decide) hmid).bind fun _ later fewer _ hlater => ?_
    refine (suffixes_moved (.index object key) hlater).bind fun whole rest _ _ hrest => ?_
    exact .ok hrest
  · rw [List.map_cons, shift_mk, suffixes, suffixes]
    refine (itemsUntil_moved .rparen (by decide) (h.tail (by decide))).bind
      fun args mid shorter _ hmid => ?_
    refine (suffixes_moved (.call object args) hmid).bind fun whole rest _ _ hrest => ?_
    exact .ok hrest
  · rw [suffixes_stop hstop, suffixes_stop (by rwa [head_map_kind])]
    exact .ok h
termination_by 32 * tokens.length
decreasing_by
  all_goals subst_vars; simp only [List.length_cons]; omega

theorem primary_moved {tokens : List Token} (h : Movable base tokens) :
    Moved base (primary tokens) (primary (tokens.map (shift base))) := by
  obtain ⟨kind, span, after, rfl⟩ := h.exists_cons
  rw [List.map_cons, shift_mk]
  rcases primary_cases ⟨kind, span⟩ with ⟨first, _, htoken⟩ | ⟨_, htoken⟩ | ⟨_, htoken⟩ |
    ⟨_, htoken⟩ | ⟨hname, hparen, hbracket, hbrace⟩
  · cases htoken
    rw [primary, primary]
    exact name_moved h
  · cases htoken
    rw [primary, primary]
    refine (sequence_moved (h.tail (by decide))).bind fun inner mid _ _ hmid => ?_
    refine (expect_moved (by decide) hmid).bind fun _ rest _ _ hrest => ?_
    exact .ok hrest
  · cases htoken
    rw [primary, primary]
    refine (itemsUntil_moved .rbracket (by decide) (h.tail (by decide))).bind
      fun items rest _ _ hrest => ?_
    exact .ok hrest
  · cases htoken
    rw [primary, primary]
    refine (setOrMap_moved (h.tail (by decide))).bind fun braced rest _ _ hrest => ?_
    exact .ok hrest
  · exact single_moved hname hparen hbracket hbrace h
termination_by 32 * tokens.length
decreasing_by
  all_goals subst_vars; simp only [List.length_cons]; omega

theorem itemsUntil_moved (close : TokenKind) (hclose : close ≠ .eof) {tokens : List Token}
    (h : Movable base tokens) :
    Moved base (itemsUntil close tokens) (itemsUntil close (tokens.map (shift base))) := by
  by_cases hempty : (head tokens).kind = close
  · rw [itemsUntil, if_pos hempty, itemsUntil, if_pos (by rwa [head_map_kind])]
    refine (expect_moved hclose h).bind fun _ rest _ _ hrest => ?_
    exact .ok hrest
  · rw [itemsUntil, if_neg hempty, itemsUntil, if_neg (by rwa [head_map_kind])]
    refine (itemList_moved h).bind fun items mid shorter _ hmid => ?_
    refine (expect_moved hclose hmid).bind fun _ rest _ _ hrest => ?_
    exact .ok hrest
termination_by 32 * tokens.length + 21

theorem itemList_moved {tokens : List Token} (h : Movable base tokens) :
    Moved base (itemList tokens) (itemList (tokens.map (shift base))) := by
  rw [itemList, itemList]
  refine (assignment_moved h).bind fun item mid shorter _ hmid => ?_
  refine (itemTail_moved hmid).bind fun items rest _ _ hrest => ?_
  exact .ok hrest
termination_by 32 * tokens.length + 20

theorem itemTail_moved {tokens : List Token} (h : Movable base tokens) :
    Moved base (itemTail tokens) (itemTail (tokens.map (shift base))) := by
  rcases head_kind_eq_or .comma (by decide) tokens with ⟨span, after, rfl⟩ | hstop
  · rw [List.map_cons, shift_mk, itemTail, itemTail]
    refine (assignment_moved (h.tail (by decide))).bind fun item mid shorter _ hmid => ?_
    refine (itemTail_moved hmid).bind fun items rest _ _ hrest => ?_
    exact .ok hrest
  · rw [itemTail_stop hstop, itemTail_stop (by rwa [head_map_kind])]
    exact .ok h
termination_by 32 * tokens.length
decreasing_by
  all_goals subst_vars; simp only [List.length_cons]; omega

theorem setOrMap_moved {tokens : List Token} (h : Movable base tokens) :
    Moved base (setOrMap tokens) (setOrMap (tokens.map (shift base))) := by
  rcases head_kind_eq_or .rbrace (by decide) tokens with ⟨span, after, rfl⟩ | hitems
  · rw [List.map_cons, shift_mk, setOrMap, setOrMap]
    exact .ok (h.tail (by decide))
  · have hne : ∀ {ts : List Token}, (head ts).kind ≠ .rbrace →
        ∀ span after, ts = ⟨.rbrace, span⟩ :: after → False := by
      rintro ts hts span after rfl
      exact hts rfl
    rw [setOrMap, setOrMap]
    · refine (assignment_moved h).bind fun first mid shorter shorter' hmid => ?_
      rcases eat?_moved .colon (by decide) first shorter shorter' hmid with
        ⟨after, _, _, fewer, hafter, heat, heat'⟩ | ⟨heat, heat'⟩
      · simp only [heat, heat']
        refine (assignment_moved hafter).bind fun value later least _ hlater => ?_
        refine (entryTail_moved hlater).bind fun entries last _ _ hlast => ?_
        refine (expect_moved (by decide) hlast).bind fun _ rest _ _ hrest => ?_
        exact .ok hrest
      · simp only [heat, heat']
        refine (itemTail_moved hmid).bind fun items last _ _ hlast => ?_
        refine (expect_moved (by decide) hlast).bind fun _ rest _ _ hrest => ?_
        exact .ok hrest
    · exact hne (by rwa [head_map_kind])
    · exact hne hitems
termination_by 32 * tokens.length + 20

theorem entryTail_moved {tokens : List Token} (h : Movable base tokens) :
    Moved base (entryTail tokens) (entryTail (tokens.map (shift base))) := by
  rcases head_kind_eq_or .comma (by decide) tokens with ⟨span, after, rfl⟩ | hstop
  · rw [List.map_cons, shift_mk, entryTail, entryTail]
    refine (assignment_moved (h.tail (by decide))).bind fun key mid shorter _ hmid => ?_
    refine (expect_moved (by decide) hmid).bind fun _ later fewer _ hlater => ?_
    refine (assignment_moved hlater).bind fun value last least _ hlast => ?_
    refine (entryTail_moved hlast).bind fun entries rest _ _ hrest => ?_
    exact .ok hrest
  · rw [entryTail_stop hstop, entryTail_stop (by rwa [head_map_kind])]
    exact .ok h
termination_by 32 * tokens.length
decreasing_by
  all_goals subst_vars; simp only [List.length_cons]; omega

end

/-!
## Whole token lists
-/

theorem Movable.span_head {tokens : List Token} (h : Movable base tokens) :
    (head (tokens.map (shift base))).span =
      ⟨(head tokens).span.start + base, (head tokens).span.stop + base⟩ := by
  obtain ⟨kind, span, after, rfl⟩ := h.exists_cons
  have hfits := h.fits _ List.mem_cons_self
  change span.shift base = ⟨span.start + base, span.stop + base⟩
  rw [Span.shift, Span.ofRange, Nat.min_eq_left hfits.1, Nat.min_eq_left hfits.2]

/-- The error of a reader that is at a token, with the token moved. -/
def moveError (base : Nat) : ParseError → ParseError
  | .unexpectedToken expected found s =>
    .unexpectedToken expected found ⟨s.start + base, s.stop + base⟩
  | .expectedExpression found s => .expectedExpression found ⟨s.start + base, s.stop + base⟩
  | error => error

theorem unexpected_map {tokens : List Token} (h : Movable base tokens) (expected : String) :
    unexpected expected (tokens.map (shift base)) =
      moveError base (unexpected expected tokens) := by
  rw [unexpected, unexpected, moveError, head_map_kind, h.span_head]

/-- Moved tokens have the tree that the tokens have, or the error moved with them. -/
theorem ofTokens_map {tokens : List Token} (h : Movable base tokens) :
    Expr.ofTokens (tokens.map (shift base)) =
      match Expr.ofTokens tokens with
      | .ok e => .ok e
      | .error error => .error (moveError base error) := by
  have hmoved := sequence_moved h
  unfold Expr.ofTokens
  generalize sequence tokens = outcome at hmoved ⊢
  generalize sequence (tokens.map (shift base)) = outcome' at hmoved ⊢
  cases hmoved with
  | @ok e rest _ _ hrest =>
      simp only [bind, Except.bind, head_map_kind]
      split
      · rfl
      · exact congrArg Except.error (unexpected_map hrest _)
  | unexpected htokens => exact congrArg Except.error (unexpected_map htokens _)
  | @expectedExpression token rest htokens =>
      have hspan := htokens.span_head
      change token.span.shift base = ⟨token.span.start + base, token.span.stop + base⟩ at hspan
      rw [hspan]
      rfl

end Grammar
end ExprLang
