import ExprLang.Proofs.Grammar.Soundness

/-!
# Readers read what is derivable

Every phrase that is derivable, and that the token after it does not continue, is read by its
reader.  Readers never look back, so three choices have to be shown harmless: a lambda head is
taken whenever there is one, a level goes on as long as there is an operator of it, and braces
hold a map as soon as a colon follows their first element.
-/

namespace ExprLang
namespace Grammar

/-!
## Heads of lambdas

Where the head of a lambda stands, a choice can only be the part before its arrow.
-/

/-- The phrases that start with a primary expression, given that no lambda starts there. -/
def Phrase.StartsPrimary (ts : List Token) : Phrase → Prop
  | .sequence _ | .assignment _ => ∀ params mid, ¬ LambdaHead params ts mid
  | .choice _ | .joined _ _ | .operand _ _ | .unary _ | .value _ => True
  | _ => False

/-- A kind that continues no phrase which starts with a primary expression. -/
def IsBarrier (kind : TokenKind) : Prop :=
  kind = .arrow ∨ kind = .comma ∨ kind = .rparen

theorem Joins.not_isBarrier {level : Level} {kind : TokenKind} {apply : Expr → Expr → Expr}
    (h : Joins level kind apply) : ¬ IsBarrier kind := by
  cases h <;> simp [IsBarrier]

/-- When all primary expressions end before the same barrier, so do the phrases around them. -/
theorem Derives.ends_at_barrier {phrase : Phrase} {ts rest next : List Token}
    (h : Derives phrase ts rest) (hphrase : phrase.StartsPrimary ts)
    (hprimary : ∀ e after, Derives (.primary e) ts after → after = next)
    (hop : ∀ op, ¬ Prefixes (head ts).kind op) (hnext : IsBarrier (head next).kind) :
    rest = next := by
  induction h with
  | sequenceOne _ ih | choiceOne _ ih | joinedOne _ ih | operandJoined _ _ ih
  | operandUnary _ ih | unaryValue _ ih => exact ih hphrase hprimary hop
  | assignmentOne _ ih => exact ih trivial hprimary hop
  | valueOne h _ => exact hprimary _ _ h
  | lambda hhead _ _ => exact absurd hhead (hphrase _ _)
  | unaryPrefix h _ _ => exact absurd h (hop _)
  | sequenceMore _ _ ih _ =>
      obtain rfl := ih hphrase hprimary hop
      simp [head, IsBarrier] at hnext
  | assign _ _ ih _ | ternary _ _ _ ih _ _ | member _ ih | index _ _ ih _ | call _ _ ih _ =>
      obtain rfl := ih trivial hprimary hop
      simp [head, IsBarrier] at hnext
  | joinedMore _ hjoins _ ih _ =>
      obtain rfl := ih trivial hprimary hop
      exact absurd hnext hjoins.not_isBarrier
  | _ => exact absurd hphrase id

/-- A name before a barrier is a primary expression by itself. -/
theorem primary_name_ends {x : String} {name : Span} {token : Token} {after rest : List Token}
    {e : Expr} (htoken : IsBarrier token.kind)
    (h : Derives (.primary e) (⟨.ident x, name⟩ :: token :: after) rest) :
    rest = token :: after := by
  cases h with
  | literal hdenotes => cases hdenotes
  | name => rfl
  | qualified hqualifies =>
      cases hqualifies
      simp [IsBarrier] at htoken

theorem sequence_name_ends {x : String} {name : Span} {token : Token} {after rest : List Token}
    {e : Expr} (htoken : token.kind = .comma ∨ token.kind = .rparen)
    (h : Derives (.sequence e) (⟨.ident x, name⟩ :: token :: after) rest) :
    rest = token :: after := by
  refine h.ends_at_barrier ?_ (fun _ _ => primary_name_ends (Or.inr htoken)) ?_ (Or.inr htoken)
  · intro params mid hhead
    cases hhead
    simp at htoken
  · intro op hop
    cases hop

/-- Every primary expression at the head of a lambda ends before its arrow. -/
theorem LambdaHead.primary_ends {params : List String} {ts mid : List Token}
    (hhead : LambdaHead params ts mid) :
    ∃ arrow, ∀ e after, Derives (.primary e) ts after → after = ⟨.arrow, arrow⟩ :: mid := by
  cases hhead with
  | one => exact ⟨_, fun _ _ => primary_name_ends (Or.inl rfl)⟩
  | none =>
      refine ⟨default, fun e after h => ?_⟩
      cases h with
      | literal hdenotes => cases hdenotes
      | group hinner => exact absurd rfl (hinner.opens .paren)
  | names hnames =>
      cases hnames with
      | @last _ _ _ arrow =>
          refine ⟨arrow, fun e after h => ?_⟩
          cases h with
          | literal hdenotes => cases hdenotes
          | group hinner =>
              cases sequence_name_ends (Or.inr rfl) hinner
              rfl
      | more =>
          refine ⟨default, fun e after h => ?_⟩
          cases h with
          | literal hdenotes => cases hdenotes
          | group hinner => cases sequence_name_ends (Or.inl rfl) hinner

theorem LambdaHead.choice_ends {params : List String} {ts mid rest : List Token} {e : Expr}
    (hhead : LambdaHead params ts mid) (h : Derives (.choice e) ts rest) :
    (head rest).kind = .arrow := by
  rcases hhead.primary_ends with ⟨arrow, hprimary⟩
  have hrest : rest = ⟨.arrow, arrow⟩ :: mid := by
    refine h.ends_at_barrier trivial hprimary ?_ (Or.inl rfl)
    intro op hop
    cases hhead <;> cases hop
  rw [hrest]
  rfl

theorem lambdaHead?_eq_none {ts rest : List Token} {e : Expr} (h : Derives (.choice e) ts rest)
    (hrest : (head rest).kind ≠ .arrow) : lambdaHead? ts = none := by
  cases hhead : lambdaHead? ts with
  | none => rfl
  | some parsed =>
      rcases parsed with ⟨params, mid, shorter⟩
      exact absurd ((lambdaHead_iff.mpr ⟨shorter, hhead⟩).choice_ends h) hrest

/-!
## How loosely tokens bind

A phrase is complete before any token that binds more loosely than everything the phrase can
go on with.
-/

/-- The place of a token among those that continue a phrase, tightest first; the tokens that
continue none come last. -/
def looseness : TokenKind → Nat
  | .dot | .lbracket | .lparen => 0
  | .star | .slash | .percent => 1
  | .plus | .minus => 2
  | .plusEq => 3
  | .lt | .ltEq | .gt | .gtEq => 4
  | .eqEq | .notEq => 5
  | .andAnd => 6
  | .orOr => 7
  | .question => 8
  | .eq | .arrow => 9
  | .semicolon => 10
  | .comma => 11
  | _ => 12

/-- How loosely the token after a phrase has to bind.  A phrase that repeats may be followed
by its own operator, since its reader is stated by what it goes on to read. -/
def Phrase.bound : Phrase → Nat
  | .primary _ | .value _ | .enclosed _ _ => 0
  | .unary _ => 1
  | .operand level _ | .joined level _ => level.rank + 1
  | .choice _ => 9
  | .assignment _ | .sequence _ => 10
  | .items _ | .entries _ => 12

theorem Joins.looseness_eq {level : Level} {kind : TokenKind} {apply : Expr → Expr → Expr}
    (h : Joins level kind apply) : looseness kind = level.rank + 1 := by
  cases h <;> rfl

theorem operator?_eq_none {level : Level} {kind : TokenKind}
    (h : level.rank + 2 ≤ looseness kind) : level.operator? kind = none := by
  cases hoperator : level.operator? kind with
  | none => rfl
  | some apply =>
      rw [(joins_iff.mpr hoperator).looseness_eq] at h
      exact absurd h (Nat.not_succ_le_self _)

theorem isSuffix_eq_false {kind : TokenKind} (h : 1 ≤ looseness kind) :
    isSuffix kind = false := by
  cases kind <;> first | rfl | simp [looseness] at h

theorem ne_of_looseness {kind other : TokenKind} (h : looseness other < looseness kind) :
    kind ≠ other := by
  intro heq
  subst heq
  exact Nat.lt_irrefl _ h

theorem Bracket.looseness_close (bracket : Bracket) : looseness bracket.close = 12 := by
  cases bracket <;> rfl

/-!
## Reading on

Where a reader goes on after the phrase, having read it means that what the reader of the rest
answers is what the whole reader answers.
-/

/-- The reader of a phrase gets past it. -/
def Phrase.Passed (phrase : Phrase) (ts rest : List Token) : Prop :=
  match phrase with
  | .sequence e => ∀ {whole after},
      Reads (sequenceTail e rest) whole after → Reads (Grammar.sequence ts) whole after
  | .joined level e => ∀ {whole after},
      Reads (binaryTail level e rest) whole after → Reads (binaryAt level ts) whole after
  | .value e => ∀ {whole after},
      Reads (suffixes e rest) whole after → Reads (Grammar.value ts) whole after
  | phrase => phrase.Read ts rest

section Passed

variable {ts rest : List Token} {e : Expr}

theorem sequence_read (h : (Phrase.sequence e).Passed ts rest)
    (hrest : 11 ≤ looseness (head rest).kind) : Reads (sequence ts) e rest :=
  h ((reads_sequenceTail_stop (ne_of_looseness hrest)).mpr ⟨rfl, rfl⟩)

theorem joined_read {level : Level} (h : (Phrase.joined level e).Passed ts rest)
    (hrest : level.rank + 2 ≤ looseness (head rest).kind) : Reads (binaryAt level ts) e rest :=
  h ((reads_binaryTail_stop (operator?_eq_none hrest)).mpr ⟨rfl, rfl⟩)

theorem value_read (h : (Phrase.value e).Passed ts rest)
    (hrest : 1 ≤ looseness (head rest).kind) : Reads (value ts) e rest :=
  h ((reads_suffixes_stop (isSuffix_eq_false hrest)).mpr ⟨rfl, rfl⟩)

end Passed

theorem unaryOp?_eq_none {ts rest : List Token} {e : Expr} (h : Derives (.value e) ts rest) :
    unaryOp? (head ts).kind = none := by
  cases hop : unaryOp? (head ts).kind with
  | none => rfl
  | some op => exact absurd (prefixes_iff.mpr hop) (h.opens.2 op)

/-- Braces with items that end in a brace are not read as a map. -/
theorem reads_setOrMap_items {ts rest : List Token} {es : List Expr} {closing : Span}
    (hne : (head ts).kind ≠ .rbrace) (h : Reads (itemList ts) es (⟨.rbrace, closing⟩ :: rest)) :
    Reads (setOrMap ts) (.set es) rest := by
  rcases reads_itemList_iff.mp h with ⟨item, mid, more, hitem, hmore, rfl⟩
  have hcolon : (head mid).kind ≠ .colon := by
    intro hcolon
    have hstop : (head mid).kind ≠ .comma := by simp [hcolon]
    rcases (reads_itemTail_stop hstop).mp hmore with ⟨rfl, rfl⟩
    cases hcolon
  exact (reads_setOrMap_iff hne).mpr
    ⟨item, mid, closing, hitem, Or.inr ⟨hcolon, more, hmore, rfl⟩⟩

theorem reads_setOrMap_entries {ts rest : List Token} {es : List (Expr × Expr)} {closing : Span}
    (hne : (head ts).kind ≠ .rbrace)
    (h : (Phrase.entries es).Read ts (⟨.rbrace, closing⟩ :: rest)) :
    Reads (setOrMap ts) (.map es) rest := by
  rcases h with ⟨key, colon, after, value, mid, more, hkey, hvalue, hmore, rfl⟩
  exact (reads_setOrMap_iff hne).mpr
    ⟨key, _, closing, hkey, Or.inl ⟨colon, after, value, mid, more, rfl, hvalue, hmore, rfl⟩⟩

theorem Derives.passed {phrase : Phrase} {ts rest : List Token} (h : Derives phrase ts rest)
    (hrest : phrase.bound ≤ looseness (head rest).kind) : phrase.Passed ts rest := by
  induction h with
  | sequenceOne _ ih =>
      intro whole after htail
      exact reads_sequence_iff.mpr ⟨_, _, ih hrest, htail⟩
  | sequenceMore _ _ ihl ihr =>
      intro whole after htail
      exact ihl (Nat.le_refl _) (reads_sequenceTail_semicolon.mpr ⟨_, _, ihr hrest, htail⟩)
  | lambda hhead _ ih =>
      rcases lambdaHead_iff.mp hhead with ⟨shorter, hhead⟩
      exact (reads_assignment_lambda hhead).mpr ⟨_, ih hrest, rfl⟩
  | assignmentOne h ih =>
      have hhead := lambdaHead?_eq_none h (ne_of_looseness hrest)
      exact (reads_assignment_choice hhead).mpr
        ⟨_, _, ih (Nat.le_of_succ_le hrest), Or.inr ⟨ne_of_looseness hrest, rfl, rfl⟩⟩
  | assign h _ iht ihv =>
      have hhead := lambdaHead?_eq_none h (by simp [head])
      exact (reads_assignment_choice hhead).mpr
        ⟨_, _, iht (Nat.le_refl _), Or.inl ⟨_, _, _, rfl, ihv hrest, rfl⟩⟩
  | choiceOne _ ih =>
      have hjoined := joined_read (ih (Nat.le_trans (by decide : 7 ≤ 9) hrest))
        (Nat.le_trans (by decide : 8 ≤ 9) hrest)
      exact reads_choice_iff.mpr ⟨_, _, hjoined, Or.inr ⟨ne_of_looseness hrest, rfl, rfl⟩⟩
  | ternary _ _ _ ihc ihy ihn =>
      have hcondition := joined_read (ihc (by decide : 7 ≤ 8)) (by decide : 8 ≤ 8)
      have hyes := ihy (by decide : 9 ≤ 12)
      exact reads_choice_iff.mpr
        ⟨_, _, hcondition, Or.inl ⟨_, _, _, _, _, _, rfl, hyes, ihn hrest, rfl⟩⟩
  | joinedOne _ ih =>
      intro whole after htail
      exact reads_binaryAt_iff.mpr ⟨_, _, ih hrest, htail⟩
  | joinedMore _ hjoins _ ihl ihr =>
      intro whole after htail
      exact ihl (Nat.le_of_eq hjoins.looseness_eq.symm)
        ((reads_binaryTail_operator (joins_iff.mp hjoins)).mpr ⟨_, _, ihr hrest, htail⟩)
  | operandJoined hencloses _ ih =>
      have hrank := Level.rank_lt_of_tighter (encloses_iff.mp hencloses)
      change Reads (operandOf _ _) _ _
      rw [operandOf_eq_binaryAt (encloses_iff.mp hencloses)]
      have hbound : _ + 2 ≤ _ := Nat.le_trans (Nat.succ_le_succ hrank) hrest
      exact joined_read (ih (Nat.le_of_succ_le hbound)) hbound
  | operandUnary _ ih =>
      change Reads (operandOf _ _) _ _
      rw [operandOf_eq_unary rfl]
      exact ih hrest
  | unaryPrefix hop _ ih =>
      exact (reads_unary_operator (prefixes_iff.mp hop)).mpr ⟨_, ih hrest, rfl⟩
  | unaryValue h ih =>
      change Reads (unary _) _ _
      rw [unary_eq_value (unaryOp?_eq_none h)]
      exact value_read (ih (Nat.zero_le _)) hrest
  | valueOne _ ih =>
      intro whole after htail
      exact reads_value_iff.mpr ⟨_, _, ih hrest, htail⟩
  | member _ ih =>
      intro whole after htail
      exact ih (Nat.zero_le _) (reads_suffixes_dot.mpr ⟨_, _, _, rfl, htail⟩)
  | index _ _ iho ihk =>
      intro whole after htail
      have hkey := sequence_read (ihk (by decide : 10 ≤ 12)) (by decide : 11 ≤ 12)
      exact iho (Nat.zero_le _) (reads_suffixes_bracket.mpr ⟨_, _, _, hkey, htail⟩)
  | call _ _ ihc iha =>
      intro whole after htail
      exact ihc (Nat.zero_le _) (reads_suffixes_paren.mpr ⟨_, _, iha (Nat.zero_le _), htail⟩)
  | literal hdenotes =>
      refine (reads_primary_iff_literal ?_ ?_ ?_ ?_).mpr ⟨denotes_iff.mp hdenotes, rfl⟩
      all_goals cases hdenotes <;> simp
  | @name x span rest hfree =>
      rcases name_cases x span rest with ⟨second, after, hqualifies, _⟩ | ⟨_, hvalue, hleft⟩
      · exact absurd hqualifies (hfree second after)
      · exact reads_primary_name.mpr ⟨hvalue, hleft⟩
  | @qualified first second span ts rest hqualifies =>
      rcases name_cases first span ts with ⟨second', after, hqualifies', hvalue, hleft⟩ | ⟨hfree, _⟩
      · cases hqualifies
        cases hqualifies'
        exact reads_primary_name.mpr ⟨hvalue, hleft⟩
      · exact absurd hqualifies (hfree second rest)
  | group _ ih =>
      have hinner := sequence_read (ih (by decide : 10 ≤ 12)) (by decide : 11 ≤ 12)
      exact reads_primary_paren.mpr ⟨_, hinner⟩
  | list _ ih => exact reads_primary_bracket.mpr ⟨_, ih (Nat.zero_le _), rfl⟩
  | set h ih =>
      refine reads_primary_brace.mpr ?_
      cases h with
      | enclosedNone => exact reads_setOrMap_empty.mpr ⟨rfl, rfl⟩
      | enclosedItems _ hitems =>
          have hne := hitems.opens .brace
          rcases (reads_itemsUntil_items hne).mp (ih (Nat.zero_le _)) with ⟨span, hread⟩
          exact reads_setOrMap_items hne hread
  | map h ih =>
      have hentries := ih (by decide : 12 ≤ 12)
      exact reads_primary_brace.mpr (reads_setOrMap_entries (h.opens .brace) hentries)
  | itemsOne _ ih =>
      have hitem := ih (Nat.le_trans (by decide : 10 ≤ 12) hrest)
      have hstop := (reads_itemTail_stop (ne_of_looseness hrest)).mpr ⟨rfl, rfl⟩
      exact reads_itemList_iff.mpr ⟨_, _, _, hitem, hstop, rfl⟩
  | itemsMore _ _ ihe ihs =>
      have hitem := ihe (by decide : 10 ≤ 11)
      exact reads_itemList_iff.mpr
        ⟨_, _, _, hitem, reads_itemTail_comma.mpr (ihs hrest), rfl⟩
  | enclosedNone => exact reads_itemsUntil_close.mpr ⟨rfl, rfl⟩
  | @enclosedItems bracket es span ts rest h ih =>
      have hitems := ih (Nat.le_of_eq bracket.looseness_close.symm)
      exact (reads_itemsUntil_items (h.opens bracket)).mpr ⟨span, hitems⟩
  | entriesOne _ _ ihk ihv =>
      have hkey := ihk (by decide : 10 ≤ 12)
      have hvalue := ihv (Nat.le_trans (by decide : 10 ≤ 12) hrest)
      have hstop := (reads_entryTail_stop (ne_of_looseness hrest)).mpr ⟨rfl, rfl⟩
      exact ⟨_, _, _, _, _, _, hkey, hvalue, hstop, rfl⟩
  | entriesMore _ _ _ ihk ihv ihs =>
      have hkey := ihk (by decide : 10 ≤ 12)
      have hvalue := ihv (by decide : 10 ≤ 11)
      exact ⟨_, _, _, _, _, _, hkey, hvalue, reads_entryTail_comma.mpr (ihs hrest), rfl⟩

end Grammar
end ExprLang
