import ExprLang.Proofs.Grammar.Language
import ExprLang.Proofs.Scope.Lambda
import ExprLang.Proofs.Template.Exchange
import ExprLang.Proofs.Template.Scanning

/-!
# The meaning of a template

A template stands for its segments: nothing for none, the value of a single one, and for several
their texts one after the other, each taken as soon as the segment is evaluated.  The expression it
compiles to has no delimiters left in it, since the grammar builds none, and does not tell which
mark the template was written with.
-/

namespace ExprLang

/-!
## Expressions without delimiters
-/

namespace Expr

/-- The expressions that an expression is built from. -/
def parts : Expr → List Expr
  | null | bool _ | int _ | bigInt _ | float _ | str _ | ident _ => []
  | member object _ => [object]
  | index object key => [object, key]
  | call callee args => callee :: args
  | lambda _ body => [body]
  | list items | set items => items
  | map entries => entries.flatMap fun entry => [entry.1, entry.2]
  | binary _ left right | concat left right | seq left right => [left, right]
  | unary _ operand => [operand]
  | ternary condition yes no => [condition, yes, no]
  | assign target value => [target, value]
  | deferred inner | dynamic inner => [inner]

/-- The first expression is the second one or stands in it, at any depth. -/
inductive Occurs (e : Expr) : Expr → Prop
  | self : Occurs e e
  | part {part whole : Expr} : part ∈ whole.parts → Occurs e part → Occurs e whole

/-- No segment of a template stands in the expression. -/
def Undelimited (e : Expr) : Prop :=
  ∀ inner, ¬ Occurs (.deferred inner) e ∧ ¬ Occurs (.dynamic inner) e

theorem undelimited_of_parts {e : Expr}
    (hplain : (Template.isDeferred e || Template.isDynamic e) = false)
    (hparts : ∀ part ∈ e.parts, part.Undelimited) : e.Undelimited := by
  intro inner
  constructor
  · intro hoccurs
    cases hoccurs with
    | self => cases hplain
    | part hpart hoccurs => exact (hparts _ hpart inner).1 hoccurs
  · intro hoccurs
    cases hoccurs with
    | self => cases hplain
    | part hpart hoccurs => exact (hparts _ hpart inner).2 hoccurs

end Expr

namespace Grammar

/-- The trees that are derived as a phrase. -/
def Phrase.trees : Phrase → List Expr
  | .sequence e | .assignment e | .choice e | .joined _ e | .operand _ e | .unary e | .value e
  | .primary e => [e]
  | .items es | .enclosed _ es => es
  | .entries es => es.flatMap fun entry => [entry.1, entry.2]

/-- The grammar builds no segment of a template. -/
theorem Derives.undelimited {phrase : Phrase} {ts rest : List Token} (h : Derives phrase ts rest) :
    ∀ e ∈ phrase.trees, e.Undelimited := by
  have hbuilt : ∀ {e : Expr}, (Template.isDeferred e || Template.isDynamic e) = false →
      (∀ part ∈ e.parts, part.Undelimited) → ∀ tree ∈ [e], tree.Undelimited := by
    intro e hplain hparts
    exact List.forall_mem_singleton.mpr (Expr.undelimited_of_parts hplain hparts)
  induction h with
  | sequenceOne _ ih | assignmentOne _ ih | choiceOne _ ih | joinedOne _ ih
  | operandJoined _ _ ih | operandUnary _ ih | unaryValue _ ih | valueOne _ ih | itemsOne _ ih
  | group _ ih | enclosedItems _ _ ih => exact ih
  | lambda _ _ ih | unaryPrefix _ _ ih | member _ ih | list _ ih | set _ ih | map _ ih =>
      exact hbuilt rfl ih
  | literal hdenotes => cases hdenotes <;> exact hbuilt rfl (List.forall_mem_nil _)
  | name | qualified => exact hbuilt rfl (List.forall_mem_nil _)
  | enclosedNone => exact List.forall_mem_nil _
  | sequenceMore _ _ ihl ihr | assign _ _ ihl ihr | index _ _ ihl ihr | call _ _ ihl ihr =>
      exact hbuilt rfl (List.forall_mem_append.mpr ⟨ihl, ihr⟩)
  | joinedMore _ hjoins _ ihl ihr =>
      have hparts := List.forall_mem_append.mpr ⟨ihl, ihr⟩
      cases hjoins <;> exact hbuilt rfl hparts
  | ternary _ _ _ ihc ihy ihn =>
      exact hbuilt rfl (List.forall_mem_append.mpr ⟨ihc, List.forall_mem_append.mpr ⟨ihy, ihn⟩⟩)
  | itemsMore _ _ ihe ihes => exact List.forall_mem_append.mpr ⟨ihe, ihes⟩
  | @entriesOne key value _ _ _ _ _ _ ihk ihv =>
      change ∀ e ∈ [key] ++ [value], e.Undelimited
      exact List.forall_mem_append.mpr ⟨ihk, ihv⟩
  | @entriesMore key value es _ _ _ _ _ _ _ _ _ ihk ihv ihes =>
      change ∀ e ∈ [key] ++ ([value] ++ (Phrase.entries es).trees), e.Undelimited
      exact List.forall_mem_append.mpr ⟨ihk, List.forall_mem_append.mpr ⟨ihv, ihes⟩⟩

theorem undelimited_of_ofTokens {tokens : List Token} (hterminated : Terminated tokens) {e : Expr}
    (h : Expr.ofTokens tokens = .ok e) : e.Undelimited := by
  obtain ⟨_, -, hderives⟩ := spells_of_ofTokens hterminated h
  exact hderives.undelimited e List.mem_cons_self

end Grammar

/-!
## Segments and their bodies
-/

namespace Template

/-- What a segment stands for: its text, or the expression that its tokens are. -/
inductive Stands : Segment → Expr → Prop
  | text (content : String) : Stands (.text content) (.str content)
  | expression {deferred : Bool} {tokens : List Token} {span : Span} {body : Expr} :
      Expr.ofTokens tokens = .ok body → Stands (.expression deferred tokens span) body

/-- The segment is an expression behind one of the two marks. -/
def Marked (deferred : Bool) (piece : Segment) : Prop :=
  ∃ tokens span, piece = .expression deferred tokens span

/-- Both marks stand in front of expressions. -/
def Mixes (pieces : List Segment) : Prop :=
  (∃ piece ∈ pieces, Marked true piece) ∧ ∃ piece ∈ pieces, Marked false piece

/-- The body as the segment that it was read from. -/
def wrapped : Segment → Expr → Expr
  | .text _, body => body
  | .expression deferred .., body => if deferred then .deferred body else .dynamic body

theorem segmentExpr_of_stands {piece : Segment} {body : Expr} (h : Stands piece body) :
    segmentExpr piece = .ok (wrapped piece body) := by
  cases h with
  | text => rfl
  | expression hbody =>
      rw [segmentExpr, hbody]
      rfl

theorem unwrapped_wrapped {piece : Segment} {body : Expr} (h : Stands piece body) :
    (wrapped piece body).unwrapped = body := by
  cases h with
  | text => rfl
  | @expression deferred => cases deferred <;> rfl

theorem exists_stands {piece : Segment} {e : Expr} (h : segmentExpr piece = .ok e) :
    ∃ body, Stands piece body ∧ e = wrapped piece body := by
  cases piece with
  | text content =>
      cases h
      exact ⟨_, .text content, rfl⟩
  | expression deferred tokens span =>
      cases hbody : Expr.ofTokens tokens with
      | error error =>
          rw [segmentExpr, hbody] at h
          cases h
      | ok body =>
          rw [segmentExpr, hbody] at h
          exact ⟨body, .expression hbody, (Except.ok.inj h).symm⟩

theorem mapM_segmentExpr {pieces : List Segment} {bodies : List Expr}
    (h : List.Forall₂ Stands pieces bodies) :
    pieces.mapM segmentExpr = .ok (List.zipWith wrapped pieces bodies) := by
  induction h with
  | nil => rfl
  | cons hpiece _ ih =>
      rw [List.mapM_cons, segmentExpr_of_stands hpiece, ih]
      rfl

theorem exists_bodies {pieces : List Segment} {segments : List Expr}
    (h : pieces.mapM segmentExpr = .ok segments) : ∃ bodies, List.Forall₂ Stands pieces bodies := by
  induction pieces generalizing segments with
  | nil => exact ⟨[], .nil⟩
  | cons piece rest ih =>
      rw [List.mapM_cons] at h
      cases hpiece : segmentExpr piece with
      | error error =>
          rw [hpiece] at h
          cases h
      | ok e =>
          cases hrest : rest.mapM segmentExpr with
          | error error =>
              rw [hpiece, hrest] at h
              cases h
          | ok others =>
              obtain ⟨body, hbody, -⟩ := exists_stands hpiece
              obtain ⟨bodies, hbodies⟩ := ih hrest
              exact ⟨body :: bodies, .cons hbody hbodies⟩

theorem map_unwrapped {pieces : List Segment} {bodies : List Expr}
    (h : List.Forall₂ Stands pieces bodies) :
    (List.zipWith wrapped pieces bodies).map Expr.unwrapped = bodies := by
  induction h with
  | nil => rfl
  | cons hpiece _ ih => rw [List.zipWith_cons_cons, List.map_cons, unwrapped_wrapped hpiece, ih]

end Template

/-!
## Evaluation
-/

namespace Template

variable (context : Context)

/-- The text of an expression's value. -/
def textOf (e : Expr) : Action String := do World.text (← context.eval e)

/-- The value of a template with the given bodies. -/
def evalBodies : List Expr → Action Value
  | [] => return .string ""
  | [body] => context.eval body
  | bodies => do return .string (String.join (← bodies.mapM (textOf context)))

variable {context}

theorem eval_concat (left right : Expr) :
    context.eval (.concat left right) = (do
      let first ← textOf context left
      let second ← textOf context right
      return .string (first ++ second)) := by
  change Evaluation.eval context _ (.concat left right) = _
  rw [Evaluation.eval]
  simp only [textOf, bind_assoc]
  rfl

theorem textOf_concat (left right : Expr) :
    textOf context (.concat left right) = (do
      let first ← textOf context left
      let second ← textOf context right
      return first ++ second) := by
  have htext : ∀ s : String, World.text (.string s) = pure s := fun _ => rfl
  rw [textOf, eval_concat]
  simp only [bind_assoc, pure_bind, htext]

/-- A concatenation is worth its text. -/
theorem eval_concat_eq_textOf (left right : Expr) :
    context.eval (.concat left right) =
      (do return .string (← textOf context (.concat left right))) := by
  rw [textOf_concat, eval_concat]
  simp only [bind_assoc, pure_bind]

/-- Concatenation from the left takes the texts in order. -/
theorem textOf_foldl (first : Expr) (rest : List Expr) :
    textOf context (rest.foldl .concat first) = (do
      let texts ← (first :: rest).mapM (textOf context)
      return String.join texts) := by
  induction rest generalizing first with
  | nil => simp [String.join]
  | cons second rest ih =>
      have hjoin : ∀ (a b : String) (others : List String),
          String.join ((a ++ b) :: others) = String.join (a :: b :: others) := by
        intro a b others
        simp [String.join]
      rw [List.foldl_cons, ih]
      simp only [List.mapM_cons, textOf_concat, bind_assoc, pure_bind, hjoin]

theorem exists_concat (first second : Expr) (rest : List Expr) :
    ∃ left right, joined (first :: second :: rest) = .concat left right := by
  change ∃ left right, rest.foldl Expr.concat (.concat first second) = Expr.concat left right
  induction rest generalizing first second with
  | nil => exact ⟨first, second, rfl⟩
  | cons third rest ih => exact ih (.concat first second) third

/-- Joined bodies are evaluated one after the other. -/
theorem eval_joined (bodies : List Expr) :
    context.eval (joined bodies) = evalBodies context bodies := by
  match bodies with
  | [] => rfl
  | [body] => rfl
  | first :: second :: rest =>
      obtain ⟨left, right, hjoined⟩ := exists_concat first second rest
      have htexts : textOf context (joined (first :: second :: rest)) = _ :=
        textOf_foldl first (second :: rest)
      rw [hjoined, eval_concat_eq_textOf, ← hjoined, htexts, evalBodies]
      · simp only [bind_assoc, pure_bind]
      · simp
      · simp

/-!
## Compilation
-/

variable {source : String} {pieces : List Segment} {bodies : List Expr}

theorem compile_eq (hlist : Segment.list source.toList = .ok pieces)
    (hbodies : List.Forall₂ Stands pieces bodies) :
    compile source = ofSegments (List.zipWith wrapped pieces bodies) := by
  rw [compile, segments, hlist]
  simp only [mapM_segmentExpr hbodies]
  rfl

theorem exists_of_compile {template : Template} (h : compile source = .ok template) :
    ∃ pieces bodies, Segment.list source.toList = .ok pieces ∧
      List.Forall₂ Stands pieces bodies := by
  rw [compile, segments] at h
  cases hlist : Segment.list source.toList with
  | error error =>
      rw [hlist] at h
      cases h
  | ok pieces =>
      rw [hlist] at h
      cases hmap : pieces.mapM segmentExpr with
      | error error =>
          simp only [hmap] at h
          cases h
      | ok segments =>
          obtain ⟨bodies, hbodies⟩ := exists_bodies hmap
          exact ⟨pieces, bodies, rfl, hbodies⟩

theorem isDeferred_wrapped {piece : Segment} {body : Expr} (h : Stands piece body) :
    isDeferred (wrapped piece body) = true ↔ Marked true piece := by
  cases h with
  | text content => simp [wrapped, isDeferred, Marked]
  | @expression deferred => cases deferred <;> simp [wrapped, isDeferred, Marked]

theorem isDynamic_wrapped {piece : Segment} {body : Expr} (h : Stands piece body) :
    isDynamic (wrapped piece body) = true ↔ Marked false piece := by
  cases h with
  | text content => simp [wrapped, isDynamic, Marked]
  | @expression deferred => cases deferred <;> simp [wrapped, isDynamic, Marked]

theorem any_wrapped {deferred : Bool} {test : Expr → Bool}
    (htest : ∀ {piece body}, Stands piece body →
      (test (wrapped piece body) = true ↔ Marked deferred piece))
    (h : List.Forall₂ Stands pieces bodies) :
    (List.zipWith wrapped pieces bodies).any test = true ↔
      ∃ piece ∈ pieces, Marked deferred piece := by
  induction h with
  | nil => simp
  | cons hpiece _ ih =>
      rw [List.zipWith_cons_cons, List.any_cons, Bool.or_eq_true, ih, htest hpiece,
        List.exists_mem_cons_iff]

/-- Segments that parse compile to their bodies joined, unless they mix the marks. -/
theorem ofSegments_wrapped (h : List.Forall₂ Stands pieces bodies) :
    (Mixes pieces ∧ ofSegments (List.zipWith wrapped pieces bodies) = .error .mixedDelimiters) ∨
      ¬ Mixes pieces ∧
        ∃ kind, ofSegments (List.zipWith wrapped pieces bodies) = .ok ⟨joined bodies, kind⟩ := by
  have hdeferred := any_wrapped isDeferred_wrapped h
  have hdynamic := any_wrapped isDynamic_wrapped h
  rw [ofSegments, map_unwrapped h, kindOf]
  cases hleft : (List.zipWith wrapped pieces bodies).any isDeferred <;>
    cases hright : (List.zipWith wrapped pieces bodies).any isDynamic <;>
      simp [Mixes, ← hdeferred, ← hdynamic, hleft, hright]

/-!
## Compiled templates
-/

theorem terminated_of_segments {pending : List Char} {offset : Nat} {text : List Char}
    (h : Segment.listFrom pending offset text = .ok pieces) {deferred : Bool}
    {tokens : List Token} {span : Span} (hpiece : .expression deferred tokens span ∈ pieces) :
    Grammar.Terminated tokens := by
  have hcollected : ∀ pending, .expression deferred tokens span ∉ Segment.collected pending := by
    intro pending hmem
    unfold Segment.collected at hmem
    split at hmem <;> simp at hmem
  fun_induction Segment.listFrom pending offset text generalizing pieces with
  | case1 | case2 =>
      cases h
      exact absurd hpiece (hcollected _)
  | case3 _ _ _ _ _ _ ih | case7 _ _ _ _ _ _ _ ih => exact ih h hpiece
  | case4 | case5 => cases h
  | case6 pending offset c d rest _ _ read after stop hbody ih =>
      cases hrest : Segment.listFrom [] stop after with
      | error error =>
          rw [hrest] at h
          cases h
      | ok segments =>
          rw [hrest] at h
          cases h
          rcases List.mem_append.mp hpiece with hmem | hmem
          · exact absurd hmem (hcollected _)
          · rcases List.mem_cons.mp hmem with heq | hmem
            · cases heq
              exact Grammar.terminated_of_listFrom hbody
            · exact ih hrest hmem

theorem undelimited_joined (h : ∀ body ∈ bodies, body.Undelimited) :
    (joined bodies).Undelimited := by
  have hconcat : ∀ {left right : Expr}, left.Undelimited → right.Undelimited →
      (Expr.concat left right).Undelimited := by
    intro left right hleft hright
    exact Expr.undelimited_of_parts rfl
      (List.forall_mem_cons.mpr ⟨hleft, List.forall_mem_singleton.mpr hright⟩)
  cases bodies with
  | nil => exact Expr.undelimited_of_parts rfl (List.forall_mem_nil _)
  | cons first rest =>
      obtain ⟨hfirst, hrest⟩ := List.forall_mem_cons.mp h
      clear h
      rw [joined]
      induction rest generalizing first with
      | nil => exact hfirst
      | cons second rest ih =>
          obtain ⟨hsecond, hrest⟩ := List.forall_mem_cons.mp hrest
          exact ih (.concat first second) (hconcat hfirst hsecond) hrest

theorem undelimited_of_stands (hlist : Segment.list source.toList = .ok pieces)
    (hbodies : List.Forall₂ Stands pieces bodies) : ∀ body ∈ bodies, body.Undelimited := by
  have hpieces : ∀ piece ∈ pieces, ∀ body, Stands piece body → body.Undelimited := by
    intro piece hpiece body hstands
    cases hstands with
    | text => exact Expr.undelimited_of_parts rfl (List.forall_mem_nil _)
    | expression hbody =>
        exact Grammar.undelimited_of_ofTokens (terminated_of_segments hlist hpiece) hbody
  clear hlist
  induction hbodies with
  | nil => exact List.forall_mem_nil _
  | cons hpiece _ ih =>
      obtain ⟨hfirst, hrest⟩ := List.forall_mem_cons.mp hpieces
      exact List.forall_mem_cons.mpr ⟨hfirst _ hpiece, ih hrest⟩

/-!
## Exchanged marks
-/

def exchangedKind : TemplateKind → TemplateKind
  | .literal => .literal
  | .dynamic => .deferred
  | .deferred => .dynamic

def exchangedExpr : Expr → Expr
  | .deferred e => .dynamic e
  | .dynamic e => .deferred e
  | e => e

theorem segmentExpr_exchanged (piece : Segment) :
    segmentExpr (exchanged piece) = (segmentExpr piece).map exchangedExpr := by
  cases piece with
  | text => rfl
  | expression deferred tokens span =>
      rw [exchanged, segmentExpr, segmentExpr]
      cases Expr.ofTokens tokens with
      | error => rfl
      | ok body => cases deferred <;> rfl

theorem ofSegments_exchanged (segments : List Expr) :
    ofSegments (segments.map exchangedExpr) =
      (ofSegments segments).map fun template => ⟨template.expr, exchangedKind template.kind⟩ := by
  have hdeferred : isDeferred ∘ exchangedExpr = isDynamic := by
    funext e
    cases e <;> rfl
  have hdynamic : isDynamic ∘ exchangedExpr = isDeferred := by
    funext e
    cases e <;> rfl
  have hunwrapped : Expr.unwrapped ∘ exchangedExpr = Expr.unwrapped := by
    funext e
    cases e <;> rfl
  rw [ofSegments, ofSegments, kindOf, kindOf, List.any_map, List.any_map, List.map_map, hdeferred,
    hdynamic, hunwrapped]
  cases segments.any isDeferred <;> cases segments.any isDynamic <;> rfl

theorem mapM_exchanged (pieces : List Segment) :
    (pieces.map exchanged).mapM segmentExpr =
      (pieces.mapM segmentExpr).map (List.map exchangedExpr) := by
  induction pieces with
  | nil => rfl
  | cons piece rest ih =>
      rw [List.map_cons, List.mapM_cons, List.mapM_cons, segmentExpr_exchanged, ih]
      cases segmentExpr piece with
      | error => rfl
      | ok e => cases rest.mapM segmentExpr <;> rfl

/-- A template with exchanged marks has its segments exchanged, or is not scanned either. -/
theorem list_exchange (source : String) :
    Segment.list (exchange source).toList =
      (Segment.list source.toList).map (List.map exchanged) := by
  rw [exchange, String.toList_ofList]
  exact listFrom_exchangeFrom [] 0 source.toList

/-- It compiles to the same expression, or fails alike. -/
theorem compile_exchange (source : String) :
    compile (exchange source) =
      (compile source).map fun template => ⟨template.expr, exchangedKind template.kind⟩ := by
  rw [compile, compile, segments, segments, list_exchange]
  cases Segment.list source.toList with
  | error => rfl
  | ok pieces =>
      simp only [Except.map]
      rw [mapM_exchanged]
      cases pieces.mapM segmentExpr with
      | error => rfl
      | ok segments => exact ofSegments_exchanged segments

/-!
## The meaning of a template
-/

/-- A template is evaluated as its bodies are, one after the other, and compiles to an expression
without delimiters.  Where the bodies parse, it fails exactly when it mixes the marks, and with all
marks exchanged it compiles to the same expression. -/
theorem compile_preserves_meaning (source : String) :
    (∀ template, compile source = .ok template → ∃ pieces bodies,
      Segment.list source.toList = .ok pieces ∧ List.Forall₂ Stands pieces bodies ∧
        template.expr.Undelimited ∧
        ∀ context : Context, context.eval template.expr = evalBodies context bodies) ∧
    (∀ pieces bodies, Segment.list source.toList = .ok pieces →
      List.Forall₂ Stands pieces bodies →
        ((∃ error, compile source = .error error) ↔ Mixes pieces) ∧
        (Mixes pieces → compile source = .error .mixedDelimiters)) ∧
    Segment.list (exchange source).toList =
      (Segment.list source.toList).map (List.map exchanged) ∧
    compile (exchange source) =
      (compile source).map fun template => ⟨template.expr, exchangedKind template.kind⟩ := by
  refine ⟨?_, ?_, list_exchange source, compile_exchange source⟩
  · intro template htemplate
    obtain ⟨pieces, bodies, hlist, hbodies⟩ := exists_of_compile htemplate
    refine ⟨pieces, bodies, hlist, hbodies, ?_⟩
    rw [compile_eq hlist hbodies] at htemplate
    rcases ofSegments_wrapped hbodies with ⟨-, hfails⟩ | ⟨-, kind, hjoined⟩
    · rw [hfails] at htemplate
      cases htemplate
    · rw [hjoined] at htemplate
      cases htemplate
      exact ⟨undelimited_joined (undelimited_of_stands hlist hbodies), fun context =>
        eval_joined bodies⟩
  · intro pieces bodies hlist hbodies
    rw [compile_eq hlist hbodies]
    rcases ofSegments_wrapped hbodies with ⟨hmixes, hfails⟩ | ⟨hmixes, kind, hjoined⟩
    · exact ⟨⟨fun _ => hmixes, fun _ => ⟨_, hfails⟩⟩, fun _ => hfails⟩
    · refine ⟨⟨?_, fun hboth => absurd hboth hmixes⟩, fun hboth => absurd hboth hmixes⟩
      rintro ⟨error, herror⟩
      rw [hjoined] at herror
      cases herror

/-- A text in front of an expression, and two expressions behind different marks. -/
theorem compile_preserves_meaning_pair :
    (∃ pieces bodies,
      compile "n$\x7ba\x7d" = .ok ⟨.concat (.str "n") (.ident "a"), .dynamic⟩ ∧
      List.Forall₂ Stands pieces bodies ∧
      (Expr.concat (.str "n") (.ident "a")).Undelimited ∧
      (∀ context : Context,
        context.eval (.concat (.str "n") (.ident "a")) = evalBodies context bodies) ∧
      compile (exchange "n$\x7ba\x7d") = .ok ⟨.concat (.str "n") (.ident "a"), .deferred⟩) ∧
    compile "$\x7ba\x7d#\x7bb\x7d" = .error .mixedDelimiters := by
  have hname : Segment.list "n$\x7ba\x7d".toList = .ok [.text "n",
      .expression false [⟨.ident "a", ⟨3, 4⟩⟩, ⟨.eof, ⟨4, 4⟩⟩] ⟨1, 5⟩] := by
    have hread : Token.listBody (0 + 'n'.utf8Size + 2) "a\x7d".toList =
        .ok ([⟨.ident "a", ⟨3, 4⟩⟩, ⟨.eof, ⟨4, 4⟩⟩], some ([], 5)) := by cbv
    change Segment.listFrom [] 0 ('n' :: '$' :: '\x7b' :: "a\x7d".toList) = _
    rw [listFrom_plain [] 0 rfl (by simp), listFrom_marked _ _ rfl, hread]
    simp only
    rw [Segment.listFrom]
    rfl
  have hmixed : Segment.list "$\x7ba\x7d#\x7bb\x7d".toList =
      .ok [.expression false [⟨.ident "a", ⟨2, 3⟩⟩, ⟨.eof, ⟨3, 3⟩⟩] ⟨0, 4⟩,
        .expression true [⟨.ident "b", ⟨6, 7⟩⟩, ⟨.eof, ⟨7, 7⟩⟩] ⟨4, 8⟩] := by
    have hfirst : Token.listBody (0 + 2) "a\x7d#\x7bb\x7d".toList =
        .ok ([⟨.ident "a", ⟨2, 3⟩⟩, ⟨.eof, ⟨3, 3⟩⟩], some ("#\x7bb\x7d".toList, 4)) := by cbv
    have hsecond : Token.listBody (4 + 2) "b\x7d".toList =
        .ok ([⟨.ident "b", ⟨6, 7⟩⟩, ⟨.eof, ⟨7, 7⟩⟩], some ([], 8)) := by cbv
    change Segment.listFrom [] 0 ('$' :: '\x7b' :: "a\x7d#\x7bb\x7d".toList) = _
    rw [listFrom_marked _ _ rfl, hfirst]
    change (Segment.listFrom [] 4 ('#' :: '\x7b' :: "b\x7d".toList)).map _ = _
    rw [listFrom_marked _ _ rfl, hsecond]
    simp only
    rw [Segment.listFrom]
    rfl
  have hthird : Expr.ofTokens [⟨.ident "a", ⟨3, 4⟩⟩, ⟨.eof, ⟨4, 4⟩⟩] = .ok (.ident "a") := by cbv
  have hleft : Expr.ofTokens [⟨.ident "a", ⟨2, 3⟩⟩, ⟨.eof, ⟨3, 3⟩⟩] = .ok (.ident "a") := by cbv
  have hright : Expr.ofTokens [⟨.ident "b", ⟨6, 7⟩⟩, ⟨.eof, ⟨7, 7⟩⟩] = .ok (.ident "b") := by cbv
  have hpair : compile "n$\x7ba\x7d" = .ok ⟨.concat (.str "n") (.ident "a"), .dynamic⟩ := by
    rw [compile_eq hname (.cons (.text "n") (.cons (.expression hthird) .nil))]
    rfl
  obtain ⟨hmeaning, -, -, hexchange⟩ := compile_preserves_meaning "n$\x7ba\x7d"
  obtain ⟨pieces, bodies, -, hbodies, hundelimited, heval⟩ := hmeaning _ hpair
  rw [hpair] at hexchange
  have hfails := (compile_preserves_meaning "$\x7ba\x7d#\x7bb\x7d").2.1 _ [.ident "a", .ident "b"]
    hmixed (.cons (.expression hleft) (.cons (.expression hright) .nil))
  refine ⟨⟨pieces, bodies, hpair, hbodies, hundelimited, heval, hexchange⟩, hfails.2 ⟨?_, ?_⟩⟩
  · exact ⟨_, List.mem_cons_of_mem _ List.mem_cons_self, _, _, rfl⟩
  · exact ⟨_, List.mem_cons_self, _, _, rfl⟩

end Template
end ExprLang
