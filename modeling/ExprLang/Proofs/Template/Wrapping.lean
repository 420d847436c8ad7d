import ExprLang.Proofs.Grammar.Moved
import ExprLang.Proofs.Processor.CompileCache
import ExprLang.Proofs.Template.Scanning
import ExprLang.Proofs.Token.Tokenization

/-!
# Expressions between delimiters

Whatever is an expression by itself has balanced braces, since the grammar opens and closes them in
pairs.  Between the delimiters of a template it is therefore read up to the last brace, with its
tokens moved by the opening delimiter, and compiles to the tree that it has alone.
-/

namespace ExprLang

open Token (openAfter Balanced)

/-!
## Braces of an expression
-/

namespace Grammar

theorem openAfter_plain {depth : Nat} {kind : TokenKind} {span : Span} {rest : List Token}
    (hopen : kind ≠ .lbrace) (hclose : kind ≠ .rbrace) :
    openAfter depth (⟨kind, span⟩ :: rest) = openAfter depth rest := by
  have hnest : Token.nest (some depth) kind = some depth := by
    unfold Token.nest
    split
    · exact absurd rfl hopen
    · exact absurd rfl hclose
    · rfl
  rw [openAfter, if_neg (by simp [hclose]), hnest]
  rfl

theorem openAfter_lbrace {depth : Nat} {span : Span} {rest : List Token} :
    openAfter depth (⟨.lbrace, span⟩ :: rest) = openAfter (depth + 1) rest := rfl

theorem openAfter_rbrace {depth : Nat} {span : Span} {rest : List Token} :
    openAfter (depth + 1) (⟨.rbrace, span⟩ :: rest) = openAfter depth rest := by
  rw [openAfter, if_neg (by simp)]
  rfl

theorem LambdaNames.openAfter_eq {xs : List String} {ts rest : List Token}
    (h : LambdaNames xs ts rest) (depth : Nat) : openAfter depth ts = openAfter depth rest := by
  induction h with
  | last => simp [openAfter_plain]
  | more _ ih => simp [openAfter_plain, ih]

theorem LambdaHead.openAfter_eq {xs : List String} {ts rest : List Token}
    (h : LambdaHead xs ts rest) (depth : Nat) : openAfter depth ts = openAfter depth rest := by
  cases h with
  | one | none => simp [openAfter_plain]
  | names hnames => rw [openAfter_plain (by decide) (by decide), hnames.openAfter_eq]

/-- The braces that are open where the phrase starts, and closed where it ends. -/
def Phrase.opened : Phrase → Nat
  | .enclosed .brace _ => 1
  | _ => 0

theorem openAfter_close (bracket : Bracket) (es : List Expr) {depth : Nat} {span : Span}
    {rest : List Token} :
    openAfter (depth + (Phrase.enclosed bracket es).opened) (⟨bracket.close, span⟩ :: rest) =
      openAfter depth rest := by
  cases bracket with
  | paren | square => exact openAfter_plain (by decide) (by decide)
  | brace => exact openAfter_rbrace

theorem Joins.openAfter_eq {level : Level} {kind : TokenKind} {apply : Expr → Expr → Expr}
    (h : Joins level kind apply) {depth : Nat} {span : Span} {rest : List Token} :
    openAfter depth (⟨kind, span⟩ :: rest) = openAfter depth rest := by
  cases h <;> exact openAfter_plain (by decide) (by decide)

theorem Prefixes.openAfter_eq {kind : TokenKind} {op : UnaryOp} (h : Prefixes kind op)
    {depth : Nat} {span : Span} {rest : List Token} :
    openAfter depth (⟨kind, span⟩ :: rest) = openAfter depth rest := by
  cases h <;> exact openAfter_plain (by decide) (by decide)

theorem Denotes.openAfter_eq {kind : TokenKind} {e : Expr} (h : Denotes kind e)
    {depth : Nat} {span : Span} {rest : List Token} :
    openAfter depth (⟨kind, span⟩ :: rest) = openAfter depth rest := by
  cases h <;> exact openAfter_plain (by simp) (by simp)

theorem Derives.openAfter_eq {phrase : Phrase} {ts rest : List Token}
    (h : Derives phrase ts rest) (depth : Nat) :
    openAfter (depth + phrase.opened) ts = openAfter depth rest := by
  induction h generalizing depth with
  | sequenceOne _ ih | assignmentOne _ ih | choiceOne _ ih | joinedOne _ ih
  | operandJoined _ _ ih | operandUnary _ ih | unaryValue _ ih | valueOne _ ih | itemsOne _ ih =>
      exact ih depth
  | sequenceMore _ _ ihl ihr | assign _ _ ihl ihr | itemsMore _ _ ihl ihr
  | entriesOne _ _ ihl ihr =>
      rw [← ihr depth]
      exact (ihl depth).trans (openAfter_plain (by decide) (by decide))
  | lambda hhead _ ih => exact (hhead.openAfter_eq depth).trans (ih depth)
  | ternary _ _ _ ihc ihy ihn | entriesMore _ _ _ ihc ihy ihn =>
      rw [← ihn depth]
      refine (ihc depth).trans ((openAfter_plain (by decide) (by decide)).trans ?_)
      exact (ihy depth).trans (openAfter_plain (by decide) (by decide))
  | joinedMore _ hjoins _ ihl ihr => exact (ihl depth).trans (hjoins.openAfter_eq.trans (ihr depth))
  | unaryPrefix hop _ ih => exact hop.openAfter_eq.trans (ih depth)
  | member _ ih =>
      refine (ih depth).trans ?_
      simp [openAfter_plain]
  | index _ _ iho ihk =>
      refine (iho depth).trans ((openAfter_plain (by decide) (by decide)).trans ?_)
      exact (ihk depth).trans (openAfter_plain (by decide) (by decide))
  | call _ _ ihc iha =>
      exact (ihc depth).trans ((openAfter_plain (by decide) (by decide)).trans (iha depth))
  | literal hdenotes => exact hdenotes.openAfter_eq
  | name => exact openAfter_plain (by simp) (by simp)
  | qualified hqualifies =>
      cases hqualifies
      simp [openAfter_plain, Phrase.opened]
  | group _ ih =>
      refine (openAfter_plain (by decide) (by decide)).trans ((ih depth).trans ?_)
      exact openAfter_plain (by decide) (by decide)
  | list _ ih => exact (openAfter_plain (by decide) (by decide)).trans (ih depth)
  | set _ ih => exact openAfter_lbrace.trans (ih depth)
  | map _ ih => exact openAfter_lbrace.trans ((ih (depth + 1)).trans openAfter_rbrace)
  | enclosedNone bracket => exact openAfter_close bracket []
  | @enclosedItems bracket es _ _ _ _ ih =>
      exact (ih (depth + (Phrase.enclosed bracket es).opened)).trans (openAfter_close bracket es)

theorem Spells.balanced {tokens : List Token} {e : Expr} (h : Spells tokens e) :
    Balanced tokens := by
  obtain ⟨⟨kind, span⟩, rfl, hderives⟩ := h
  exact (hderives.openAfter_eq 0).trans (openAfter_plain (by decide) (by decide))

/-- The tokens of a text can be moved as far as their places stay below the largest offset. -/
theorem movable_of_list {text : List Char} {tokens : List Token} (h : Token.list text = .ok tokens)
    (base : Nat) (hfits : byteLength text + base ≤ Span.limit) : Movable base tokens := by
  refine ⟨terminated_of_list h, ?_⟩
  obtain ⟨ending, hread⟩ := Token.list_eq_ok_iff.mp h
  obtain ⟨body, slices, rfl, htokenization⟩ := Token.exists_tokenization rfl (by lia) hread
  intro token htoken
  rcases List.mem_append.mp htoken with hbody | hlast
  · have hlt := htokenization.nonempty token hbody
    have hle := htokenization.stop_le token hbody
    lia
  · rw [List.mem_singleton.mp hlast]
    lia

end Grammar

/-!
## Wrapped expressions
-/

namespace Template

theorem parse_eq {source : String} {tokens : List Token}
    (h : Token.list source.toList = .ok tokens) : Expr.parse source = Expr.ofTokens tokens := by
  rw [Expr.parse, h]

theorem toList_bracket (body : Body) :
    (bracket body.text).toList = (Piece.expression false body).written ++ [] := by
  simp [bracket, Piece.written, Piece.mark]

/-- A balanced body between delimiters compiles as it parses by itself. -/
theorem compile_body (body : Body) (hfits : byteLength (bracket body.text).toList ≤ Span.limit) :
    compile (bracket body.text) =
      match Expr.parse body.text with
      | .ok e => .ok ⟨e, .dynamic⟩
      | .error error => .error (Grammar.moveError 2 error) := by
  rw [toList_bracket, List.append_nil] at hfits
  have hlength := byteLength_expression false body
  have hscan := listFrom_expression false body [] (by rwa [Nat.zero_add]) []
  have hlist : Segment.list (bracket body.text).toList =
      .ok [(Piece.expression false body).segment 0] := by
    rw [Segment.list, toList_bracket, hscan, Segment.listFrom]
    rfl
  have hmoved := Grammar.ofTokens_map (Grammar.movable_of_list body.lexes 2 (by lia))
  rw [compile, segments, hlist, parse_eq body.lexes]
  simp only [List.mapM_cons, List.mapM_nil, Piece.segment, segmentExpr, hmoved]
  cases Expr.ofTokens body.tokens <;> rfl

/-- In every state that a session reaches, the cache holds what its texts compile to. -/
theorem faithful_of_session (config : Config) (steps : List Step) :
    (Step.runAll steps (.ofConfig config)).2.cache.Faithful := by
  have hmirrors := (Step.runAll_mirrors steps (Processor.ofConfig_mirrors config)).2
  obtain ⟨cache, readOnly, allowCreation⟩ := config
  cases cache with
  | true => exact hmirrors.faithful
  | false =>
      intro text template hfound
      rw [hmirrors.disabled] at hfound
      cases hfound

end Template
end ExprLang
