import ExprLang.Proofs.Grammar.Progress

/-!
# Reading within the tokens

A token list that ends in an empty token is never read past its end: every call stands at one of its
tokens, what is left of it always has the last token, and more tokens behind the end would change
nothing.  Together with the progress of the readers this bounds every reading.
-/

namespace ExprLang
namespace Grammar

variable {tokens rest more : List Token} {kind : TokenKind} {span : Span}

/-!
## The last token
-/

/-- The last token is empty; there may be others before it. -/
def EndsInEof (tokens : List Token) : Prop := ∃ before span, tokens = before ++ [⟨.eof, span⟩]

theorem EndsInEof.exists_cons (h : EndsInEof tokens) : ∃ token after, tokens = token :: after := by
  rcases h with ⟨before, span, rfl⟩
  cases before with
  | nil => exact ⟨_, _, rfl⟩
  | cons token before => exact ⟨_, _, rfl⟩

theorem EndsInEof.length_pos (h : EndsInEof tokens) : 0 < tokens.length := by
  rcases h.exists_cons with ⟨token, after, rfl⟩
  exact Nat.zero_lt_succ _

theorem EndsInEof.tail (h : EndsInEof (⟨kind, span⟩ :: rest)) (hkind : kind ≠ .eof) :
    EndsInEof rest := by
  rcases h with ⟨before, last, heq⟩
  cases before with
  | nil =>
      cases heq
      exact absurd rfl hkind
  | cons token before =>
      cases heq
      exact ⟨before, last, rfl⟩

theorem EndsInEof.of_leaves (h : EndsInEof tokens) (hleaves : Leaves tokens rest) :
    EndsInEof rest := by
  induction hleaves with
  | refl => exact h
  | step hkind _ ih => exact ih (h.tail hkind)

theorem head_append (h : EndsInEof tokens) : head (tokens ++ more) = head tokens := by
  rcases h.exists_cons with ⟨token, after, rfl⟩
  rfl

theorem unexpected_append (h : EndsInEof tokens) (expected : String) :
    unexpected expected (tokens ++ more) = unexpected expected tokens := by
  rw [unexpected, unexpected, head_append h]

/-- What begins with a token when there is more behind it begins with that token by itself. -/
theorem exists_of_append_eq_cons (h : EndsInEof tokens)
    (heq : tokens ++ more = ⟨kind, span⟩ :: rest) (hkind : kind ≠ .eof) :
    ∃ after, tokens = ⟨kind, span⟩ :: after ∧ EndsInEof after ∧ rest = after ++ more := by
  rcases h.exists_cons with ⟨token, after, rfl⟩
  cases heq
  exact ⟨after, rfl, h.tail hkind, rfl⟩

/-!
## Looking ahead
-/

theorem lambdaHead_append_iff {xs : List String} (h : EndsInEof tokens) :
    LambdaHead xs (tokens ++ more) rest ↔
      ∃ after, rest = after ++ more ∧ LambdaHead xs tokens after := by
  constructor
  · intro hhead
    have hmimics : Mimics fun all tokens => EndsInEof tokens ∧ all = tokens ++ more := by
      rintro kind span rest tokens ⟨h, hall⟩ hkind
      rcases exists_of_append_eq_cons h hall.symm hkind with ⟨after, rfl, h, hafter⟩
      exact ⟨span, after, rfl, h, hafter⟩
    rcases hhead.mimic hmimics ⟨h, rfl⟩ with ⟨after, ⟨-, hafter⟩, hhead⟩
    exact ⟨after, hafter, hhead⟩
  · rintro ⟨after, rfl, hhead⟩
    have hmimics : Mimics fun tokens all => all = tokens ++ more := by
      rintro kind span rest _ rfl _
      exact ⟨span, rest ++ more, rfl, rfl⟩
    rcases hhead.mimic hmimics rfl with ⟨_, rfl, hall⟩
    exact hall

/-- The search for the head of a lambda does not look behind the end. -/
theorem lambdaHead?_append (h : EndsInEof tokens) :
    (lambdaHead? (tokens ++ more)).map Parsed.pair =
      (lambdaHead? tokens).map fun found => (found.value, found.rest ++ more) := by
  cases hfound : lambdaHead? tokens with
  | some found =>
      rcases found with ⟨params, after, shorter⟩
      have hhead := lambdaHead_iff.mpr ⟨shorter, hfound⟩
      rcases lambdaHead_iff.mp ((lambdaHead_append_iff h).mpr ⟨after, rfl, hhead⟩) with ⟨_, hsome⟩
      rw [hsome]
      rfl
  | none =>
      -- A head that ends behind the last token would have to have that token in it.
      cases hbeyond : lambdaHead? (tokens ++ more) with
      | none => rfl
      | some found =>
          rcases found with ⟨params, after, shorter⟩
          have hhead := lambdaHead_iff.mpr ⟨shorter, hbeyond⟩
          rcases (lambdaHead_append_iff h).mp hhead with ⟨after, -, hhead⟩
          rcases lambdaHead_iff.mp hhead with ⟨_, hsome⟩
          rw [hfound] at hsome
          cases hsome

theorem qualifies_append_iff {first : Span} {second : String} (h : EndsInEof tokens) :
    Qualifies first second (tokens ++ more) rest ↔
      ∃ after, rest = after ++ more ∧ Qualifies first second tokens after := by
  constructor
  · intro hqualifies
    generalize hall : tokens ++ more = all at hqualifies
    cases hqualifies with
    | touching hcolon hinner =>
        rcases exists_of_append_eq_cons h hall (by simp) with ⟨tokens, rfl, h, hall⟩
        rcases exists_of_append_eq_cons h hall.symm (by simp) with ⟨tokens, rfl, h, hall⟩
        rcases exists_of_append_eq_cons h hall.symm (by simp) with ⟨tokens, rfl, h, rfl⟩
        exact ⟨_, rfl, .touching hcolon hinner⟩
  · rintro ⟨after, rfl, hqualifies⟩
    cases hqualifies with
    | touching hcolon hinner => exact .touching hcolon hinner

/-!
## More tokens behind the end
-/

/-- The same steps, with more tokens behind the end of all those that are called on or left. -/
inductive Steps.Extends {α : Type} (more : List Token) : Steps α → Steps α → Prop
  | done {value : α} {rest : List Token} :
      EndsInEof rest → Extends more (.done value rest) (.done value (rest ++ more))
  | fail {error : ParseError} : Extends more (.fail error) (.fail error)
  | call {reader : Reader} {tokens : List Token}
      {next next' : reader.Answer → List Token → Steps α} :
      EndsInEof tokens →
      (∀ value rest, EndsInEof rest → Extends more (next value rest) (next' value (rest ++ more))) →
      Extends more (.call reader tokens next) (.call reader (tokens ++ more) next')

theorem extends_take {α β : Type} {find : Token → Option β}
    {found found' : β → List Token → Steps α} {other other' : Steps α}
    (h : EndsInEof tokens) (hfind : ∀ span, find ⟨.eof, span⟩ = none)
    (hfound : ∀ b rest, EndsInEof rest → (found b rest).Extends more (found' b (rest ++ more)))
    (hother : other.Extends more other') :
    (Steps.take find tokens found other).Extends more
      (Steps.take find (tokens ++ more) found' other') := by
  rcases h.exists_cons with ⟨⟨kind, span⟩, after, rfl⟩
  cases hfound? : find ⟨kind, span⟩ with
  | none =>
      rw [take_of_none hfound?, take_of_none (by exact hfound?)]
      exact hother
  | some b =>
      rw [take_of_some hfound?, List.cons_append, take_of_some hfound?]
      apply hfound
      apply h.tail
      rintro rfl
      rw [hfind] at hfound?
      cases hfound?

theorem extends_take_kind {α : Type} {found found' : Unit → List Token → Steps α}
    {other other' : Steps α} (h : EndsInEof tokens) (hkind : kind ≠ .eof)
    (hfound : ∀ rest, EndsInEof rest → (found () rest).Extends more (found' () (rest ++ more)))
    (hother : other.Extends more other') :
    (Steps.take (ofKind kind) tokens found other).Extends more
      (Steps.take (ofKind kind) (tokens ++ more) found' other') :=
  extends_take h (fun _ => ofKind_eof hkind) (fun _ => hfound) hother

theorem extends_fail {α : Type} {error error' : ParseError} (h : error' = error) :
    (.fail error : Steps α).Extends more (.fail error') := by
  rw [h]
  exact .fail

theorem extends_last {reader : Reader} (h : EndsInEof tokens) :
    Steps.Extends more (.call reader tokens .done) (.call reader (tokens ++ more) .done) :=
  .call h fun _ _ hrest => .done hrest

section Readers

variable (h : EndsInEof tokens)
include h

theorem sequenceTail_extends (left : Expr) :
    (Reader.steps (.sequenceTail left) tokens).Extends more
      (Reader.steps (.sequenceTail left) (tokens ++ more)) := by
  refine extends_take_kind h (by decide) (fun after hafter => ?_) (.done h)
  exact .call hafter fun right mid hmid => extends_last hmid

theorem assignment_extends :
    (Reader.steps .assignment tokens).Extends more (Reader.steps .assignment (tokens ++ more)) := by
  have hahead : (lambdaHead? (tokens ++ more)).map Parsed.pair = _ := lambdaHead?_append h
  rw [Reader.steps, Reader.steps]
  cases hlambda : lambdaHead? tokens with
  | some found =>
      rcases found with ⟨params, mid, shorter⟩
      have hmid := h.of_leaves (lambdaHead_iff.mpr ⟨shorter, hlambda⟩).leaves
      rw [hlambda] at hahead
      rcases Option.map_eq_some_iff.mp hahead with ⟨⟨_, _, _⟩, hbeyond, hsame⟩
      cases hsame
      rw [hbeyond]
      exact .call hmid fun body rest hrest => .done hrest
  | none =>
      rw [hlambda] at hahead
      rw [Option.map_eq_none_iff.mp hahead]
      refine .call h fun target mid hmid => ?_
      refine extends_take_kind hmid (by decide) (fun after hafter => ?_) (.done hmid)
      exact .call hafter fun value rest hrest => .done hrest

theorem choice_extends :
    (Reader.steps .choice tokens).Extends more (Reader.steps .choice (tokens ++ more)) := by
  refine .call h fun condition mid hmid => ?_
  refine extends_take_kind hmid (by decide) (fun after hafter => ?_) (.done hmid)
  refine .call hafter fun yes later hlater => ?_
  refine .call hlater fun _ last hlast => ?_
  exact .call hlast fun no rest hrest => .done hrest

theorem operandOf_extends (level : Level) :
    (Reader.steps (.operandOf level) tokens).Extends more
      (Reader.steps (.operandOf level) (tokens ++ more)) := by
  rw [Reader.steps, Reader.steps]
  cases level.tighter with
  | some inner => exact extends_last h
  | none => exact extends_last h

theorem binaryTail_extends (level : Level) (left : Expr) :
    (Reader.steps (.binaryTail level left) tokens).Extends more
      (Reader.steps (.binaryTail level left) (tokens ++ more)) := by
  refine extends_take h (fun _ => operator?_eof level) (fun apply after hafter => ?_) (.done h)
  exact .call hafter fun right mid hmid => extends_last hmid

theorem unary_extends :
    (Reader.steps .unary tokens).Extends more (Reader.steps .unary (tokens ++ more)) := by
  refine extends_take h (fun _ => rfl) (fun op after hafter => ?_) (extends_last h)
  exact .call hafter fun operand rest hrest => .done hrest

theorem suffixes_extends (object : Expr) :
    (Reader.steps (.suffixes object) tokens).Extends more
      (Reader.steps (.suffixes object) (tokens ++ more)) := by
  refine extends_take_kind h (by decide) (fun after hafter => ?_) ?_
  · exact .call hafter fun property mid hmid => extends_last hmid
  refine extends_take_kind h (by decide) (fun after hafter => ?_) ?_
  · refine .call hafter fun key mid hmid => ?_
    exact .call hmid fun _ later hlater => extends_last hlater
  refine extends_take_kind h (by decide) (fun after hafter => ?_) (.done h)
  exact .call hafter fun args mid hmid => extends_last hmid

theorem primary_extends :
    (Reader.steps .primary tokens).Extends more (Reader.steps .primary (tokens ++ more)) := by
  refine extends_take h (fun _ => rfl) (fun found after hafter => ?_) ?_
  · rcases name_related found.1 (fun _ _ => qualifies_append_iff hafter) rfl with ⟨hvalue, hrest⟩
    rw [hvalue, hrest]
    exact .done (hafter.of_leaves (name_leaves found.1 found.2 after))
  refine extends_take_kind h (by decide) (fun after hafter => ?_) ?_
  · refine .call hafter fun inner mid hmid => ?_
    exact .call hmid fun _ rest hrest => .done hrest
  refine extends_take_kind h (by decide) (fun after hafter => ?_) ?_
  · exact .call hafter fun items rest hrest => .done hrest
  refine extends_take_kind h (by decide) (fun after hafter => ?_) ?_
  · exact extends_last hafter
  refine extends_take h (fun _ => rfl) (fun e rest hrest => .done hrest) ?_
  apply extends_fail
  rw [head_append h]

theorem itemsUntil_extends (close : TokenKind) (hclose : close ≠ .eof) :
    (Reader.steps (.itemsUntil close hclose) tokens).Extends more
      (Reader.steps (.itemsUntil close hclose) (tokens ++ more)) := by
  rw [Reader.steps, Reader.steps, head_append h]
  split
  · exact .call h fun _ rest hrest => .done hrest
  · refine .call h fun items mid hmid => ?_
    exact .call hmid fun _ rest hrest => .done hrest

theorem itemTail_extends :
    (Reader.steps .itemTail tokens).Extends more (Reader.steps .itemTail (tokens ++ more)) := by
  refine extends_take_kind h (by decide) (fun after hafter => ?_) (.done h)
  refine .call hafter fun item mid hmid => ?_
  exact .call hmid fun items rest hrest => .done hrest

theorem setOrMap_extends :
    (Reader.steps .setOrMap tokens).Extends more (Reader.steps .setOrMap (tokens ++ more)) := by
  refine extends_take_kind h (by decide) (fun rest hrest => .done hrest) ?_
  refine .call h fun first mid hmid => ?_
  refine extends_take_kind hmid (by decide) (fun after hafter => ?_) ?_
  · refine .call hafter fun value later hlater => ?_
    refine .call hlater fun entries last hlast => ?_
    exact .call hlast fun _ rest hrest => .done hrest
  · refine .call hmid fun items last hlast => ?_
    exact .call hlast fun _ rest hrest => .done hrest

theorem entryTail_extends :
    (Reader.steps .entryTail tokens).Extends more (Reader.steps .entryTail (tokens ++ more)) := by
  refine extends_take_kind h (by decide) (fun after hafter => ?_) (.done h)
  refine .call hafter fun key mid hmid => ?_
  refine .call hmid fun _ later hlater => ?_
  refine .call hlater fun value last hlast => ?_
  exact .call hlast fun entries rest hrest => .done hrest

end Readers

theorem steps_extend (reader : Reader) (h : EndsInEof tokens) :
    (reader.steps tokens).Extends more (reader.steps (tokens ++ more)) := by
  cases reader with
  | token kind hkind =>
      exact extends_take_kind h hkind (fun rest hrest => .done hrest)
        (extends_fail (unexpected_append h _))
  | name =>
      exact extends_take h (fun _ => rfl) (fun found rest hrest => .done hrest)
        (extends_fail (unexpected_append h _))
  | sequence | binaryAt | value => exact .call h fun first mid hmid => extends_last hmid
  | sequenceTail left => exact sequenceTail_extends h left
  | assignment => exact assignment_extends h
  | choice => exact choice_extends h
  | operandOf level => exact operandOf_extends h level
  | binaryTail level left => exact binaryTail_extends h level left
  | unary => exact unary_extends h
  | suffixes object => exact suffixes_extends h object
  | primary => exact primary_extends h
  | itemsUntil close hclose => exact itemsUntil_extends h close hclose
  | itemList =>
      refine .call h fun item mid hmid => ?_
      exact .call hmid fun items rest hrest => .done hrest
  | itemTail => exact itemTail_extends h
  | setOrMap => exact setOrMap_extends h
  | entryTail => exact entryTail_extends h

/-- An answer with more tokens left behind the end. -/
def withMore {α : Type} (more : List Token) (answer : α × List Token) : α × List Token :=
  (answer.1, answer.2 ++ more)

/-- The call is answered in the same way whatever is behind the end. -/
def Call.Ends (call : Call) : Prop :=
  ∀ more, call.reader.read (call.tokens ++ more) = call.read.map (withMore more)

theorem Steps.Extends.run_eq {α : Type} {steps steps' : Steps α} {outer : Call}
    (h : steps.Extends more steps') (hadvances : steps.Advances outer)
    (hinner : ∀ inner : Call, inner.Follows outer → EndsInEof inner.tokens → inner.Ends) :
    steps'.run Reader.answer = (steps.run Reader.answer).map (Except.map (withMore more)) := by
  induction h with
  | done => rfl
  | fail => rfl
  | @call reader tokens next next' htokens _ ih =>
      rcases hadvances with ⟨hfollows, hnext⟩
      have hread := hinner ⟨reader, tokens⟩ hfollows htokens more
      rw [run, run, Reader.answer, Reader.answer, hread]
      cases hanswer : reader.read tokens with
      | error error =>
          rw [Call.read, hanswer]
          rfl
      | ok answer =>
          rw [Call.read, hanswer]
          have hleaves := progresses ⟨reader, tokens⟩ _ _ hanswer
          exact ih _ _ (htokens.of_leaves hleaves.leaves) (hnext _ _ hleaves)

theorem ends (call : Call) (h : EndsInEof call.tokens) : call.Ends := by
  induction call using Call.induction with
  | h outer ih =>
      intro more
      have hextends : (outer.reader.steps outer.tokens).Extends more _ :=
        steps_extend outer.reader h
      have hrun := hextends.run_eq (steps_advance outer) ih
      rw [read_follows_steps, read_follows_steps] at hrun
      exact Option.some.inj hrun

theorem ofTokens_eq (tokens : List Token) :
    Expr.ofTokens tokens = (Reader.sequence.read tokens).bind fun answer =>
      if (head answer.2).kind = .eof then .ok answer.1
      else .error (unexpected "end of expression" answer.2) := by
  rw [Expr.ofTokens, Reader.read]
  cases sequence tokens with
  | error error => rfl
  | ok parsed => rfl

theorem ofTokens_append (h : EndsInEof tokens) :
    Expr.ofTokens (tokens ++ more) = Expr.ofTokens tokens := by
  rw [ofTokens_eq, ofTokens_eq, ends ⟨.sequence, tokens⟩ h more]
  cases hanswer : Reader.sequence.read tokens with
  | error error =>
      rw [Call.read, hanswer]
      rfl
  | ok answer =>
      rcases answer with ⟨e, rest⟩
      have hrest : EndsInEof rest := h.of_leaves (progresses ⟨.sequence, tokens⟩ _ _ hanswer).leaves
      rw [Call.read, hanswer]
      simp only [Except.map, Except.bind, withMore, head_append hrest, unexpected_append hrest]

/-!
## Positions
-/

/-- How many tokens of a list are left behind when others are left. -/
def position (tokens rest : List Token) : Nat := tokens.length - rest.length

/-- What is left is the list from a position of it on, with the last token at least. -/
def StandsIn (tokens rest : List Token) : Prop :=
  position tokens rest < tokens.length ∧ rest = tokens.drop (position tokens rest)

theorem Leaves.isSuffix (h : Leaves tokens rest) : rest <:+ tokens := by
  induction h with
  | refl => exact List.suffix_rfl
  | step _ _ ih => exact ih.trans (List.suffix_cons _ _)

theorem Leaves.eq_or_leavesSome (h : Leaves tokens rest) :
    rest = tokens ∨ LeavesSome tokens rest := by
  cases h with
  | refl => exact Or.inl rfl
  | step hkind hrest => exact Or.inr ((leavesSome_cons hkind).before hrest)

theorem EndsInEof.standsIn (h : EndsInEof tokens) (hleaves : Leaves tokens rest) :
    StandsIn tokens rest := by
  have hrest := (h.of_leaves hleaves).length_pos
  have htokens := h.length_pos
  constructor
  · unfold position
    omega
  · exact List.suffix_iff_eq_drop.mp hleaves.isSuffix

theorem LeavesSome.position_lt {mid : List Token} (hmid : Leaves tokens mid)
    (h : LeavesSome mid rest) : position tokens mid < position tokens rest := by
  have hle := hmid.length_le
  have hlt := h.shorter
  unfold position
  omega

/-!
## Every reading progresses and ends
-/

/-- What holds of a call that is made while some tokens are read. -/
structure Call.Progress (tokens : List Token) (call : Call) : Prop where
  /-- The call stands at one of the tokens. -/
  stands : StandsIn tokens call.tokens
  /-- The answer is what the steps of the reader come to. -/
  answered : (call.reader.steps call.tokens).run Reader.answer = some call.read
  /-- A call that the reader makes stands later, or at the same token and a tighter level; each
  further round of a loop stands later. -/
  calls : ∀ inner, call.Makes inner → StandsIn tokens inner.tokens ∧
    (position tokens call.tokens < position tokens inner.tokens ∨
      inner.tokens = call.tokens ∧ inner.reader.continues = false ∧
        inner.reader.level < call.reader.level)
  /-- An answer leaves the last token at least and some tokens behind; only what continues may be
  over where it stands. -/
  leaves : ∀ value rest, call.read = .ok (value, rest) → StandsIn tokens rest ∧
    (position tokens call.tokens < position tokens rest ∨
      call.reader.continues = true ∧ rest = call.tokens)
  /-- The head of a lambda is over before the last token, and its search does not look behind it. -/
  looksAhead : (∀ found, lambdaHead? call.tokens = some found → StandsIn tokens found.rest ∧
      position tokens call.tokens < position tokens found.rest) ∧
    ∀ more, (lambdaHead? (call.tokens ++ more)).map Parsed.pair =
      (lambdaHead? call.tokens).map fun found => withMore more found.pair
  /-- What is behind the last token changes nothing. -/
  ends : call.Ends
  /-- Calls nested to a depth that the number of tokens bounds give the answer. -/
  terminates : call.reader.readUpTo (32 * call.tokens.length + 21) call.tokens = some call.read

theorem leaves_of_reaches {start call : Call} (h : Relation.ReflTransGen Call.Makes start call) :
    Leaves start.tokens call.tokens := by
  induction h with
  | refl => exact .refl
  | tail _ hmakes ih => exact ih.trans hmakes.follows.leaves

theorem progress_of_leaves {call : Call} (h : EndsInEof tokens)
    (hleaves : Leaves tokens call.tokens) : call.Progress tokens := by
  have hcall : EndsInEof call.tokens := h.of_leaves hleaves
  constructor
  case stands => exact h.standsIn hleaves
  case answered => exact read_follows_steps call.reader call.tokens
  case calls =>
    intro inner hmakes
    have hfollows := hmakes.follows
    refine ⟨h.standsIn (hleaves.trans hfollows.leaves), ?_⟩
    exact hfollows.imp_left fun hlater => hlater.position_lt hleaves
  case leaves =>
    intro value rest hread
    have hmay := progresses call value rest hread
    unfold Reader.MayLeave at hmay
    split at hmay
    · rename_i hcontinues
      refine ⟨h.standsIn (hleaves.trans hmay), ?_⟩
      rcases hmay.eq_or_leavesSome with hsame | hsome
      · exact Or.inr ⟨hcontinues, hsame⟩
      · exact Or.inl (hsome.position_lt hleaves)
    · exact ⟨h.standsIn (hleaves.trans hmay.leaves), Or.inl (hmay.position_lt hleaves)⟩
  case looksAhead =>
    refine ⟨?_, fun more => lambdaHead?_append hcall⟩
    rintro ⟨params, rest, shorter⟩ hfound
    have hhead := (lambdaHead_iff.mpr ⟨shorter, hfound⟩).leaves
    have hsome : LeavesSome call.tokens rest := ⟨hhead, shorter⟩
    exact ⟨h.standsIn (hleaves.trans hhead), hsome.position_lt hleaves⟩
  case ends => exact Grammar.ends call hcall
  case terminates =>
    apply readUpTo_eq_read
    have hlevel := call.reader.level_le
    unfold Call.measure
    omega

/-- Reading a token list that ends in an empty token always progresses and never passes the end:
every call that is made, however deep, stands at one of the tokens, calls others only later or at a
tighter level, and leaves some tokens behind but not the last.  So calls nested to a depth that the
number of tokens bounds decide whether the list is an expression, whatever the tokens are and
whatever follows them. -/
theorem reading_progresses (h : EndsInEof tokens) :
    (∀ start call : Call, start.tokens = tokens → Relation.ReflTransGen Call.Makes start call →
      call.Progress tokens) ∧
    (∃ answer, Reader.sequence.readUpTo (32 * tokens.length + 20) tokens = some answer ∧
      Expr.ofTokens tokens = answer.bind fun found =>
        if (head found.2).kind = .eof then .ok found.1
        else .error (unexpected "end of expression" found.2)) ∧
    ∀ more, Expr.ofTokens (tokens ++ more) = Expr.ofTokens tokens := by
  refine ⟨?calls, ?decides, fun more => ofTokens_append h⟩
  case calls =>
    rintro start call rfl hreaches
    exact progress_of_leaves h (leaves_of_reaches hreaches)
  case decides =>
    exact ⟨_, readUpTo_eq_read ⟨.sequence, tokens⟩ (Nat.lt_succ_self _), ofTokens_eq tokens⟩

/-- A group that is not closed is found out at its end, whatever follows. -/
theorem unclosed_group_progresses :
    let name : Token := ⟨.ident "a", ⟨1, 2⟩⟩
    let last : Token := ⟨.eof, ⟨2, 2⟩⟩
    let tokens : List Token := [⟨.lparen, ⟨0, 1⟩⟩, name, last]
    let inner : Call := ⟨.sequence, [name, last]⟩
    (Call.mk .primary tokens).Makes inner ∧ inner.Progress tokens ∧
      Expr.ofTokens tokens = .error (unexpected TokenKind.rparen.description [last]) ∧
      ∀ more, Expr.ofTokens (tokens ++ more) = Expr.ofTokens tokens := by
  intro name last tokens inner
  have hmakes : (Call.mk .primary tokens).Makes inner := .now
  have hends : EndsInEof tokens := ⟨[⟨.lparen, ⟨0, 1⟩⟩, name], ⟨2, 2⟩, rfl⟩
  rcases reading_progresses hends with ⟨hcalls, ⟨answer, hanswer, hparsed⟩, hmore⟩
  have hread : Reader.sequence.readUpTo (32 * tokens.length + 20) tokens =
      some (.error (unexpected TokenKind.rparen.description [last])) := rfl
  cases hanswer.symm.trans hread
  exact ⟨hmakes, hcalls ⟨.primary, tokens⟩ inner rfl (.single hmakes), hparsed, hmore⟩

end Grammar
end ExprLang
