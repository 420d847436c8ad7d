import Mathlib.Logic.Relation
import ExprLang.Proofs.Grammar.Calls

/-!
# Progress of the readers

Every call that a reader makes stands at a later token than the reader did, or at the same tokens
and a tighter level of the grammar.  A reader that continues something already read, and so is the
further rounds of a loop, is called at a later token only.  This is shown once for the steps of each
reader; that the calls come to an end, and that every reader leaves some of its tokens behind,
follows by induction on the number of tokens and the level.
-/

namespace ExprLang
namespace Grammar

section Tokens

variable {tokens mid rest : List Token}

theorem Leaves.length_le (h : Leaves tokens rest) : rest.length ≤ tokens.length := by
  induction h with
  | refl => exact Nat.le_refl _
  | step _ _ ih => exact Nat.le_succ_of_le ih

/-- Some tokens, none of them empty, are left behind. -/
structure LeavesSome (tokens rest : List Token) : Prop where
  leaves : Leaves tokens rest
  shorter : rest.length < tokens.length

theorem leavesSome_cons {kind : TokenKind} {span : Span} (hkind : kind ≠ .eof) :
    LeavesSome (⟨kind, span⟩ :: rest) rest :=
  ⟨.step hkind .refl, Nat.lt_succ_self _⟩

theorem LeavesSome.before (h : LeavesSome tokens mid) (hmid : Leaves mid rest) :
    LeavesSome tokens rest :=
  ⟨h.leaves.trans hmid, Nat.lt_of_le_of_lt hmid.length_le h.shorter⟩

theorem Leaves.before (h : Leaves tokens mid) (hmid : LeavesSome mid rest) :
    LeavesSome tokens rest :=
  ⟨h.trans hmid.leaves, Nat.lt_of_lt_of_le hmid.shorter h.length_le⟩

end Tokens

/-!
## Levels of the readers
-/

namespace Reader

/-- How loose the expressions of a reader are, with single tokens at the bottom. -/
def level : Reader → Nat
  | itemsUntil .. => 20
  | itemList | setOrMap | sequence => 19
  | assignment => 18
  | choice => 17
  | binaryAt level => 2 * level.rank + 4
  | operandOf level => 2 * level.rank + 3
  | unary => 2
  | value => 1
  | _ => 0

/-- Whether a reader continues what is already read: each call of it is a round of a loop. -/
def continues : Reader → Bool
  | sequenceTail _ | binaryTail .. | suffixes _ | itemTail | entryTail => true
  | _ => false

/-- Which tokens a reader may leave: what continues may be over at once, anything else is not. -/
def MayLeave (reader : Reader) : List Token → List Token → Prop :=
  if reader.continues then Leaves else LeavesSome

theorem MayLeave.leaves {reader : Reader} {tokens rest : List Token}
    (h : reader.MayLeave tokens rest) : Leaves tokens rest := by
  unfold MayLeave at h
  split at h
  · exact h
  · exact h.leaves

theorem level_le (reader : Reader) : reader.level ≤ 20 := by
  cases reader with
  | binaryAt level =>
      have hrank := level.rank_le
      simp only [Reader.level]
      omega
  | operandOf level =>
      have hrank := level.rank_le
      simp only [Reader.level]
      omega
  | _ => simp [Reader.level]

end Reader

theorem LeavesSome.mayLeave {reader : Reader} {tokens rest : List Token}
    (h : LeavesSome tokens rest) : reader.MayLeave tokens rest := by
  unfold Reader.MayLeave
  split
  · exact h.leaves
  · exact h

/-- A reader and the tokens that it is called on. -/
structure Call where
  reader : Reader
  tokens : List Token

namespace Call

/-- The answer to a call, with the tokens left. -/
def read (call : Call) : Except ParseError (call.reader.Answer × List Token) :=
  call.reader.read call.tokens

/-- The call stands at a later token than another, or at the same tokens and a tighter level.  What
continues stands at a later token. -/
def Follows (inner outer : Call) : Prop :=
  LeavesSome outer.tokens inner.tokens ∨
    inner.tokens = outer.tokens ∧ inner.reader.continues = false ∧
      inner.reader.level < outer.reader.level

theorem Follows.leaves {inner outer : Call} (h : inner.Follows outer) :
    Leaves outer.tokens inner.tokens := by
  rcases h with hlater | ⟨hsame, -⟩
  · exact hlater.leaves
  · rw [hsame]
    exact .refl

/-- What falls with every call: first the number of tokens, then the level. -/
def measure (call : Call) : Nat := 32 * call.tokens.length + call.reader.level

theorem Follows.measure_lt {inner outer : Call} (h : inner.Follows outer) :
    inner.measure < outer.measure := by
  have hlevel := inner.reader.level_le
  unfold measure
  rcases h with hlater | ⟨hsame, -, htighter⟩
  · have hshorter := hlater.shorter
    omega
  · rw [hsame]
    omega

end Call

/-- Whatever carries over from all calls that may follow to the call that they follow holds of every
call. -/
theorem Call.induction {holds : Call → Prop}
    (h : ∀ outer : Call, (∀ inner : Call, inner.Follows outer → holds inner) → holds outer)
    (call : Call) : holds call :=
  h call fun inner _ => Call.induction h inner
termination_by call.measure
decreasing_by exact Call.Follows.measure_lt ‹_›

/-!
## Steps that progress
-/

/-- Every call of the steps follows the outer call, and the tokens left in the end are some that the
outer reader may leave, as far as every call leaves tokens that its reader may leave. -/
def Steps.Advances {α : Type} (outer : Call) : Steps α → Prop
  | done _ rest => outer.reader.MayLeave outer.tokens rest
  | fail _ => True
  | call reader tokens next =>
    Call.Follows ⟨reader, tokens⟩ outer ∧
      ∀ value rest, reader.MayLeave tokens rest → (next value rest).Advances outer

section Composition

variable {α β : Type} {outer : Call} {reader : Reader} {tokens rest : List Token} {kind : TokenKind}

theorem advances_done {value : α} (h : LeavesSome outer.tokens rest) :
    (Steps.done value rest).Advances outer :=
  h.mayLeave

theorem advances_later {next : reader.Answer → List Token → Steps α}
    (h : LeavesSome outer.tokens tokens)
    (hnext : ∀ value rest, LeavesSome outer.tokens rest → (next value rest).Advances outer) :
    (Steps.call reader tokens next).Advances outer :=
  ⟨.inl h, fun value rest hmay => hnext value rest (h.before hmay.leaves)⟩

theorem advances_tighter {next : reader.Answer → List Token → Steps α}
    (hcontinues : reader.continues = false) (hlevel : reader.level < outer.reader.level)
    (hnext : ∀ value rest, LeavesSome outer.tokens rest → (next value rest).Advances outer) :
    (Steps.call reader outer.tokens next).Advances outer := by
  refine ⟨.inr ⟨rfl, hcontinues, hlevel⟩, fun value rest hmay => hnext value rest ?_⟩
  rwa [Reader.MayLeave, hcontinues] at hmay

/-- An empty token is never taken. -/
theorem advances_take {find : Token → Option β} {found : β → List Token → Steps α}
    {other : Steps α} (htokens : Leaves outer.tokens tokens)
    (hfind : ∀ span, find ⟨.eof, span⟩ = none)
    (hfound : ∀ b rest, LeavesSome outer.tokens rest → (found b rest).Advances outer)
    (hother : other.Advances outer) : (Steps.take find tokens found other).Advances outer := by
  cases tokens with
  | nil => exact hother
  | cons token rest =>
      rcases token with ⟨kind, span⟩
      cases hfound? : find ⟨kind, span⟩ with
      | none =>
          rw [take_of_none hfound?]
          exact hother
      | some b =>
          rw [take_of_some hfound?]
          apply hfound
          apply htokens.before
          apply leavesSome_cons
          rintro rfl
          rw [hfind] at hfound?
          cases hfound?

theorem operator?_eof (level : Level) : level.operator? .eof = none := by
  cases level <;> rfl

theorem ofKind_eof {span : Span} (hkind : kind ≠ .eof) : ofKind kind ⟨.eof, span⟩ = none :=
  if_neg hkind.symm

theorem advances_take_kind {found : Unit → List Token → Steps α} {other : Steps α}
    (htokens : Leaves outer.tokens tokens) (hkind : kind ≠ .eof)
    (hfound : ∀ rest, LeavesSome outer.tokens rest → (found () rest).Advances outer)
    (hother : other.Advances outer) :
    (Steps.take (ofKind kind) tokens found other).Advances outer :=
  advances_take htokens (fun _ => ofKind_eof hkind) (fun _ => hfound) hother

end Composition

section Readers

variable (tokens : List Token)

theorem sequence_advances : (Reader.steps .sequence tokens).Advances ⟨.sequence, tokens⟩ := by
  refine advances_tighter rfl (Nat.lt_succ_self _) fun left mid hmid => ?_
  exact advances_later hmid fun whole rest hrest => advances_done hrest

theorem sequenceTail_advances (left : Expr) :
    (Reader.steps (.sequenceTail left) tokens).Advances ⟨.sequenceTail left, tokens⟩ := by
  refine advances_take_kind .refl (by decide) (fun after hafter => ?_) .refl
  refine advances_later hafter fun right mid hmid => ?_
  exact advances_later hmid fun whole rest hrest => advances_done hrest

theorem assignment_advances : (Reader.steps .assignment tokens).Advances ⟨.assignment, tokens⟩ := by
  rw [Reader.steps]
  cases hlambda : lambdaHead? tokens with
  | some parsed =>
      rcases parsed with ⟨params, mid, shorter⟩
      have hmid : LeavesSome tokens mid :=
        ⟨(lambdaHead_iff.mpr ⟨shorter, hlambda⟩).leaves, shorter⟩
      exact advances_later hmid fun body rest hrest => advances_done hrest
  | none =>
      refine advances_tighter rfl (Nat.lt_succ_self _) fun target mid hmid => ?_
      refine advances_take_kind hmid.leaves (by decide) (fun after hafter => ?_) hmid
      exact advances_later hafter fun value rest hrest => advances_done hrest

theorem choice_advances : (Reader.steps .choice tokens).Advances ⟨.choice, tokens⟩ := by
  refine advances_tighter rfl (Nat.lt_succ_self _) fun condition mid hmid => ?_
  refine advances_take_kind hmid.leaves (by decide) (fun after hafter => ?_) hmid
  refine advances_later hafter fun yes later hlater => ?_
  refine advances_later hlater fun _ last hlast => ?_
  exact advances_later hlast fun no rest hrest => advances_done hrest

theorem binaryAt_advances (level : Level) :
    (Reader.steps (.binaryAt level) tokens).Advances ⟨.binaryAt level, tokens⟩ := by
  refine advances_tighter rfl (Nat.lt_succ_self _) fun left mid hmid => ?_
  exact advances_later hmid fun whole rest hrest => advances_done hrest

theorem operandOf_advances (level : Level) :
    (Reader.steps (.operandOf level) tokens).Advances ⟨.operandOf level, tokens⟩ := by
  rw [Reader.steps]
  cases hinner : level.tighter with
  | some inner =>
      have htighter : (Reader.binaryAt inner).level < (Reader.operandOf level).level := by
        have hrank := Level.rank_lt_of_tighter hinner
        simp only [Reader.level]
        omega
      exact advances_tighter rfl htighter fun whole rest hrest => advances_done hrest
  | none =>
      have htighter : Reader.unary.level < (Reader.operandOf level).level := by
        simp only [Reader.level]
        omega
      exact advances_tighter rfl htighter fun whole rest hrest => advances_done hrest

theorem binaryTail_advances (level : Level) (left : Expr) :
    (Reader.steps (.binaryTail level left) tokens).Advances ⟨.binaryTail level left, tokens⟩ := by
  refine advances_take .refl (fun _ => operator?_eof level) (fun apply after hafter => ?_) .refl
  refine advances_later hafter fun right mid hmid => ?_
  exact advances_later hmid fun whole rest hrest => advances_done hrest

theorem unary_advances : (Reader.steps .unary tokens).Advances ⟨.unary, tokens⟩ := by
  refine advances_take .refl (fun _ => rfl) (fun op after hafter => ?_) ?_
  · exact advances_later hafter fun operand rest hrest => advances_done hrest
  · exact advances_tighter rfl (Nat.lt_succ_self _) fun whole rest hrest => advances_done hrest

theorem value_advances : (Reader.steps .value tokens).Advances ⟨.value, tokens⟩ := by
  refine advances_tighter rfl (Nat.lt_succ_self _) fun first mid hmid => ?_
  exact advances_later hmid fun whole rest hrest => advances_done hrest

theorem suffixes_advances (object : Expr) :
    (Reader.steps (.suffixes object) tokens).Advances ⟨.suffixes object, tokens⟩ := by
  refine advances_take_kind .refl (by decide) (fun after hafter => ?_) ?_
  · refine advances_later hafter fun property mid hmid => ?_
    exact advances_later hmid fun whole rest hrest => advances_done hrest
  refine advances_take_kind .refl (by decide) (fun after hafter => ?_) ?_
  · refine advances_later hafter fun key mid hmid => ?_
    refine advances_later hmid fun _ later hlater => ?_
    exact advances_later hlater fun whole rest hrest => advances_done hrest
  refine advances_take_kind .refl (by decide) (fun after hafter => ?_) .refl
  refine advances_later hafter fun args mid hmid => ?_
  exact advances_later hmid fun whole rest hrest => advances_done hrest

theorem primary_advances : (Reader.steps .primary tokens).Advances ⟨.primary, tokens⟩ := by
  refine advances_take .refl (fun _ => rfl) (fun found after hafter => ?_) ?_
  · exact advances_done (hafter.before (name_leaves found.1 found.2 after))
  refine advances_take_kind .refl (by decide) (fun after hafter => ?_) ?_
  · refine advances_later hafter fun inner mid hmid => ?_
    exact advances_later hmid fun _ rest hrest => advances_done hrest
  refine advances_take_kind .refl (by decide) (fun after hafter => ?_) ?_
  · exact advances_later hafter fun items rest hrest => advances_done hrest
  refine advances_take_kind .refl (by decide) (fun after hafter => ?_) ?_
  · exact advances_later hafter fun braced rest hrest => advances_done hrest
  exact advances_take .refl (fun _ => rfl) (fun e rest hrest => advances_done hrest) trivial

theorem itemsUntil_advances (close : TokenKind) (hclose : close ≠ .eof) :
    (Reader.steps (.itemsUntil close hclose) tokens).Advances
      ⟨.itemsUntil close hclose, tokens⟩ := by
  rw [Reader.steps]
  split
  · exact advances_tighter rfl (Nat.zero_lt_succ _) fun _ rest hrest => advances_done hrest
  · refine advances_tighter rfl (Nat.lt_succ_self _) fun items mid hmid => ?_
    exact advances_later hmid fun _ rest hrest => advances_done hrest

theorem itemList_advances : (Reader.steps .itemList tokens).Advances ⟨.itemList, tokens⟩ := by
  refine advances_tighter rfl (Nat.lt_succ_self _) fun item mid hmid => ?_
  exact advances_later hmid fun items rest hrest => advances_done hrest

theorem itemTail_advances : (Reader.steps .itemTail tokens).Advances ⟨.itemTail, tokens⟩ := by
  refine advances_take_kind .refl (by decide) (fun after hafter => ?_) .refl
  refine advances_later hafter fun item mid hmid => ?_
  exact advances_later hmid fun items rest hrest => advances_done hrest

theorem setOrMap_advances : (Reader.steps .setOrMap tokens).Advances ⟨.setOrMap, tokens⟩ := by
  refine advances_take_kind .refl (by decide) (fun rest hrest => advances_done hrest) ?_
  refine advances_tighter rfl (Nat.lt_succ_self _) fun first mid hmid => ?_
  refine advances_take_kind hmid.leaves (by decide) (fun after hafter => ?_) ?_
  · refine advances_later hafter fun value later hlater => ?_
    refine advances_later hlater fun entries last hlast => ?_
    exact advances_later hlast fun _ rest hrest => advances_done hrest
  · refine advances_later hmid fun items last hlast => ?_
    exact advances_later hlast fun _ rest hrest => advances_done hrest

theorem entryTail_advances : (Reader.steps .entryTail tokens).Advances ⟨.entryTail, tokens⟩ := by
  refine advances_take_kind .refl (by decide) (fun after hafter => ?_) .refl
  refine advances_later hafter fun key mid hmid => ?_
  refine advances_later hmid fun _ later hlater => ?_
  refine advances_later hlater fun value last hlast => ?_
  exact advances_later hlast fun entries rest hrest => advances_done hrest

end Readers

theorem steps_advance (call : Call) : (call.reader.steps call.tokens).Advances call := by
  rcases call with ⟨reader, tokens⟩
  cases reader with
  | token kind hkind =>
      exact advances_take_kind .refl hkind (fun rest hrest => advances_done hrest) trivial
  | name =>
      exact advances_take .refl (fun _ => rfl) (fun found rest hrest => advances_done hrest) trivial
  | sequence => exact sequence_advances tokens
  | sequenceTail left => exact sequenceTail_advances tokens left
  | assignment => exact assignment_advances tokens
  | choice => exact choice_advances tokens
  | binaryAt level => exact binaryAt_advances tokens level
  | operandOf level => exact operandOf_advances tokens level
  | binaryTail level left => exact binaryTail_advances tokens level left
  | unary => exact unary_advances tokens
  | value => exact value_advances tokens
  | suffixes object => exact suffixes_advances tokens object
  | primary => exact primary_advances tokens
  | itemsUntil close hclose => exact itemsUntil_advances tokens close hclose
  | itemList => exact itemList_advances tokens
  | itemTail => exact itemTail_advances tokens
  | setOrMap => exact setOrMap_advances tokens
  | entryTail => exact entryTail_advances tokens

/-!
## Calls that are made
-/

section Runs

variable {α : Type} {steps : Steps α} {outer inner : Call}

/-- The call leaves tokens that its reader may leave, if it answers. -/
def Call.Progresses (call : Call) : Prop :=
  ∀ value rest, call.read = .ok (value, rest) → call.reader.MayLeave call.tokens rest

theorem Steps.Advances.mayLeave_of_run (h : steps.Advances outer)
    (hinner : ∀ inner : Call, inner.Follows outer → inner.Progresses) {value : α}
    {rest : List Token} (hrun : steps.run Reader.answer = some (.ok (value, rest))) :
    outer.reader.MayLeave outer.tokens rest := by
  induction steps with
  | done value rest =>
      cases hrun
      exact h
  | fail error => cases hrun
  | call reader tokens next ih =>
      rcases h with ⟨hfollows, hnext⟩
      rw [run, Reader.answer] at hrun
      cases hread : reader.read tokens with
      | error error =>
          rw [hread] at hrun
          cases hrun
      | ok answer =>
          rw [hread] at hrun
          exact ih _ _ (hnext _ _ (hinner _ hfollows _ _ hread)) hrun

theorem progresses (call : Call) : call.Progresses := by
  induction call using Call.induction with
  | h outer ih =>
      intro value rest hread
      apply (steps_advance outer).mayLeave_of_run ih
      rw [read_follows_steps]
      exact congrArg some hread

/-- The steps make a call, when the readers answer the calls before it. -/
inductive Steps.Makes {α : Type} : Steps α → Call → Prop
  | now {reader : Reader} {tokens : List Token} {next : reader.Answer → List Token → Steps α} :
      Makes (.call reader tokens next) ⟨reader, tokens⟩
  | later {reader : Reader} {tokens rest : List Token}
      {next : reader.Answer → List Token → Steps α} {value : reader.Answer} {inner : Call} :
      reader.read tokens = .ok (value, rest) → Makes (next value rest) inner →
      Makes (.call reader tokens next) inner

/-- The reader of the outer call makes the inner call. -/
def Call.Makes (outer inner : Call) : Prop := (outer.reader.steps outer.tokens).Makes inner

theorem Steps.Advances.follows (h : steps.Advances outer) (hmakes : steps.Makes inner) :
    inner.Follows outer := by
  induction hmakes with
  | now => exact h.1
  | later hread _ ih => exact ih (h.2 _ _ (progresses ⟨_, _⟩ _ _ hread))

theorem Call.Makes.follows (h : outer.Makes inner) : inner.Follows outer :=
  (steps_advance outer).follows h

/-!
## Calls nested to some depth
-/

/-- What a reader answers by its steps, with calls nested at most `depth` deep. -/
def Reader.readUpTo : Nat → (reader : Reader) → List Token →
    Option (Except ParseError (reader.Answer × List Token))
  | 0, _, _ => none
  | depth + 1, reader, tokens => (reader.steps tokens).run (readUpTo depth)

theorem Steps.Advances.run_eq (h : steps.Advances outer)
    {answer : (reader : Reader) → List Token →
      Option (Except ParseError (reader.Answer × List Token))}
    (hanswer : ∀ inner : Call, inner.Follows outer →
      answer inner.reader inner.tokens = some inner.read) :
    steps.run answer = steps.run Reader.answer := by
  induction steps with
  | done | fail => rfl
  | call reader tokens next ih =>
      rcases h with ⟨hfollows, hnext⟩
      have hcall : answer reader tokens = Reader.answer reader tokens := hanswer _ hfollows
      rw [run, run, hcall, Reader.answer]
      cases hread : reader.read tokens with
      | error error => rfl
      | ok found => exact ih _ _ (hnext _ _ (progresses ⟨reader, tokens⟩ _ _ hread))

theorem readUpTo_eq_read (call : Call) {depth : Nat} (h : call.measure < depth) :
    call.reader.readUpTo depth call.tokens = some call.read := by
  induction depth generalizing call with
  | zero => exact absurd h (Nat.not_lt_zero _)
  | succ depth ih =>
      have hrun := (steps_advance call).run_eq fun inner hfollows =>
        ih inner (Nat.lt_of_lt_of_le hfollows.measure_lt (Nat.le_of_lt_succ h))
      rw [Reader.readUpTo, hrun, read_follows_steps]
      rfl

end Runs

end Grammar
end ExprLang
