import Mathlib
import ExprLang.Proofs.Number.IntegerText
import ExprLang.Proofs.Operator.Order
import ExprLang.Proofs.Source.Phrases
import ExprLang.Proofs.Store.Standard
import ExprLang.Proofs.Template.Wrapping

/-!
# Integer literals

A run of digits of any length is one token, and it is an expression by itself and with a minus in
front of it.  Its value is the integer that the digits denote, whatever zeros they begin with: it is
a 64-bit integer while the digits denote one, and a big integer from there on.
-/

namespace ExprLang

open Grammar

/-- The value of the digits of an integer, with a minus in front of them if it is negative.  The
minus is no part of the literal, so that the least integer of 64 bits is a big one. -/
def Value.ofInteger (n : Int) : Value :=
  if n.natAbs < 2 ^ 63 then .long (Int64.ofInt n) else .bigInteger n

theorem Value.ofInteger_natCast (n : Nat) :
    ofInteger n = if n < 2 ^ 63 then .long (Int64.ofNat n) else .bigInteger n := by
  rw [ofInteger, Int.natAbs_natCast, Int64.ofInt_eq_ofNat]

theorem Value.ofInteger_neg_natCast (n : Nat) :
    ofInteger (-n) = if n < 2 ^ 63 then .long (Int64.ofInt (-n)) else .bigInteger (-n) := by
  rw [ofInteger, Int.natAbs_neg, Int.natAbs_natCast]

theorem Value.exactNumber?_ofInteger (n : Int) :
    (Value.ofInteger n).exactNumber? = some (n : ℚ) := by
  unfold Value.ofInteger
  split
  · rename_i hsmall
    rw [exactNumber?, Int64.toInt_ofInt_of_le (by lia) (by lia)]
  · rfl

/-- The tree of a literal, with the operator of the minus in front of it. -/
def Expr.ofDigits (negative : Bool) (n : Nat) : Expr :=
  let literal := if n < 2 ^ 63 then .int (Int64.ofNat n) else .bigInt (String.ofList (natDigits n))
  if negative then .unary .neg literal else literal

/-- Digits, with a minus in front of them or without. -/
def signed (negative : Bool) (digits : List Char) : List Char :=
  if negative then '-' :: digits else digits

variable {digits rest : List Char}

/-!
## Tokens
-/

theorem Lexeme.denotes_integer (hdigits : IsDigits digits) :
    Denotes (integer digits).kind (.ofDigits false (digitsValue digits)) := by
  rcases Nat.lt_or_ge (digitsValue digits) (2 ^ 63) with hsmall | hlarge
  · rw [integer_of_lt hsmall, Expr.ofDigits, if_pos hsmall]
    exact .int _
  · rw [integer_of_le hdigits.2 hlarge, Expr.ofDigits, if_neg (Nat.not_lt.mpr hlarge)]
    exact .bigInt _

theorem Lexeme.next?_minus (hdigits : IsDigits digits) (rest : List Char) :
    next? ('-' :: (digits ++ rest)) = some ⟨['-'], .minus⟩ := by
  obtain ⟨c, cs, rfl⟩ := List.exists_cons_of_ne_nil hdigits.1
  have harrow : ('>' == c) = false :=
    eq_false_of_isDigit (p := fun c => '>' == c) (by decide) (hdigits.2 c List.mem_cons_self)
  change symbol? ('-' :: c :: (cs ++ rest)) = _
  simp [symbol?, symbols, List.isPrefixOf, harrow]

namespace Token

theorem listFrom_of_next? {lexeme : Lexeme} (braces : Option Nat) (offset : Nat) (rest : List Char)
    (hnext : Lexeme.next? (lexeme.text ++ rest) = some lexeme) (hopen : lexeme.kind ≠ .lbrace)
    (hclose : lexeme.kind ≠ .rbrace) :
    listFrom braces offset (lexeme.text ++ rest) =
      (listFrom braces (stopOf offset lexeme) rest).map fun read =>
        (⟨lexeme.kind, .ofRange offset (stopOf offset lexeme)⟩ :: read.1, read.2) := by
  obtain ⟨pattern, hlongest⟩ := Lexeme.next?_eq_some_iff.mp hnext
  have hnest : nest braces lexeme.kind = braces := by
    unfold nest
    split
    · contradiction
    · contradiction
    · rfl
  rw [listFrom_lexeme offset hlongest fun h => absurd h hclose, hnest]

/-- The tokens of a literal stand in front of those of what follows it, and they are its tree. -/
theorem exists_front (negative : Bool) (hdigits : IsDigits digits) (offset : Nat) :
    ∃ front stop,
      (∀ braces rest, Apart rest → rest.head? ≠ some '.' →
        listFrom braces offset (signed negative digits ++ rest) =
          (listFrom braces stop rest).map fun read => (front ++ read.1, read.2)) ∧
      ∀ tokens, Derives (.sequence (.ofDigits negative (digitsValue digits)))
        (front ++ tokens) tokens := by
  have hdenotes := Lexeme.denotes_integer hdigits
  have hread (braces : Option Nat) (offset : Nat) {rest : List Char} (hrest : Apart rest)
      (hpoint : rest.head? ≠ some '.') := listFrom_of_next? braces offset rest
    (Lexeme.next?_digits hdigits.1 hdigits.2 hrest hpoint) hdenotes.ne_lbrace
    (hdenotes.ne_close .brace)
  have hsequence {e : Expr} {ts tokens : List Token} (h : Derives (.unary e) ts tokens) :
      Derives (.sequence e) ts tokens :=
    .sequenceOne (.assignmentOne (.choiceOne (.joinedOne (h.operand_of_unary .or))))
  have hunary (span : Span) (tokens : List Token) :
      Derives (.unary (.ofDigits false (digitsValue digits)))
        (⟨(Lexeme.integer digits).kind, span⟩ :: tokens) tokens :=
    .unaryValue (.valueOne (.literal hdenotes))
  cases negative with
  | false =>
      refine ⟨[⟨(Lexeme.integer digits).kind,
        .ofRange offset (stopOf offset (Lexeme.integer digits))⟩], _,
        fun braces rest hrest hpoint => hread braces offset hrest hpoint,
        fun tokens => hsequence (hunary _ tokens)⟩
  | true =>
      let minus : Lexeme := ⟨['-'], .minus⟩
      let after := stopOf offset minus
      refine ⟨[⟨.minus, .ofRange offset after⟩, ⟨(Lexeme.integer digits).kind,
        .ofRange after (stopOf after (Lexeme.integer digits))⟩],
        stopOf after (Lexeme.integer digits), ?_,
        fun tokens => hsequence (.unaryPrefix .neg (hunary _ tokens))⟩
      intro braces rest hrest hpoint
      have hnext : Lexeme.next? (minus.text ++ (digits ++ rest)) = some minus :=
        Lexeme.next?_minus hdigits rest
      have hminus := listFrom_of_next? braces offset (digits ++ rest) hnext (by decide) (by decide)
      have hafter : listFrom braces (stopOf offset minus) (digits ++ rest) = _ :=
        hread braces after hrest hpoint
      refine hminus.trans ?_
      rw [hafter]
      cases listFrom braces (stopOf after (Lexeme.integer digits)) rest <;> rfl

end Token

/-!
## Trees
-/

theorem parse_signed (negative : Bool) (hdigits : IsDigits digits) :
    Expr.parse (String.ofList (signed negative digits)) =
      .ok (.ofDigits negative (digitsValue digits)) := by
  obtain ⟨front, stop, hread, hderives⟩ := Token.exists_front negative hdigits 0
  have htokens := hread none [] (fun c hc => by cases hc) (by decide)
  rw [Token.listFrom, List.append_nil] at htokens
  have hlist : Token.list (signed negative digits) = .ok (front ++ [⟨.eof, .point stop⟩]) := by
    rw [Token.list, htokens]
    rfl
  rw [Expr.parse, String.toList_ofList, hlist]
  exact ofTokens_of_spells ⟨_, rfl, hderives _⟩

namespace Template

/-- Between the delimiters of a template an expression is read up to their closing brace. -/
theorem compile_of_listBody {source : String} {tokens : List Token} {stop : Nat} {e : Expr}
    (hbody : Token.listBody 2 (source.toList ++ ['\x7d']) = .ok (tokens, some ([], stop)))
    (hparse : Expr.ofTokens tokens = .ok e) : compile (bracket source) = .ok ⟨e, .dynamic⟩ := by
  have hbracket : (bracket source).toList = '$' :: '\x7b' :: (source.toList ++ ['\x7d']) := by
    simp [bracket]
  have hlist : Segment.list (bracket source).toList =
      .ok [.expression false tokens (.ofRange 0 stop)] := by
    rw [Segment.list, hbracket, Segment.listFrom, if_neg (by decide), if_pos (by decide)]
    split
    · rename_i hfail
      rw [hbody] at hfail
      cases hfail
    · rename_i hopen
      rw [hbody] at hopen
      cases hopen
    · rename_i hclosed
      rw [hbody] at hclosed
      cases hclosed
      rw [Segment.listFrom]
      rfl
  rw [compile, segments, hlist]
  simp only [List.mapM_cons, List.mapM_nil, segmentExpr, hparse]
  rfl

theorem compile_signed (negative : Bool) (hdigits : IsDigits digits) :
    compile (bracket (String.ofList (signed negative digits))) =
      .ok ⟨.ofDigits negative (digitsValue digits), .dynamic⟩ := by
  obtain ⟨front, stop, hread, hderives⟩ := Token.exists_front negative hdigits 2
  have hbrace : Token.listFrom (some 0) stop ['\x7d'] =
      .ok ([⟨.eof, .point stop⟩], some ([], stop + 1)) := by
    rw [Token.listFrom]
    rfl
  have hparse : Expr.ofTokens (front ++ [⟨.eof, .point stop⟩]) =
      .ok (.ofDigits negative (digitsValue digits)) := ofTokens_of_spells ⟨_, rfl, hderives _⟩
  have hapart : Apart ['\x7d'] := by
    intro c hc
    cases hc
    rfl
  have hbody : Token.listBody 2 ((String.ofList (signed negative digits)).toList ++ ['\x7d']) =
      .ok (front ++ [⟨.eof, .point stop⟩], some ([], stop + 1)) := by
    rw [String.toList_ofList, Token.listBody, hread _ _ hapart (by decide), hbrace]
    rfl
  exact compile_of_listBody hbody hparse

end Template

/-!
## Values
-/

theorem Evaluation.bigLiteral_natDigits (n : Nat) (world : World) :
    bigLiteral (String.ofList (natDigits n)) world = .ok (.bigInteger n) world := by
  have hread := (IntegerText.digits (isDigits_natDigits n)).readBigInt?
  rw [digitsValue_natDigits, readBigInt?] at hread
  rw [bigLiteral, String.toList_ofList]
  cases hdigits : readBigInt (natDigits n) with
  | error fault =>
      rw [hdigits] at hread
      cases hread
  | ok m =>
      rw [hdigits] at hread
      cases hread
      rfl

theorem Heap.negate_ofInteger (heap : Heap) (n : Nat) :
    heap.negate (.ofInteger n) = .ok (.ofInteger (-n)) := by
  rw [Value.ofInteger_natCast, Value.ofInteger_neg_natCast]
  split
  · rw [Int64.ofInt_neg, Int64.ofInt_eq_ofNat]
    rfl
  · rfl

namespace Context

variable (context : Context) (world : World)

theorem eval_ofDigits_false (n : Nat) :
    context.eval (.ofDigits false n) world = .ok (.ofInteger n) world := by
  change Evaluation.eval context _ (.ofDigits false n) world = _
  rw [Value.ofInteger_natCast]
  unfold Expr.ofDigits
  split
  · rfl
  · exact Evaluation.bigLiteral_natDigits n world

theorem eval_ofDigits_true (n : Nat) :
    context.eval (.ofDigits true n) world = .ok (.ofInteger (-n)) world := by
  have hoperand := context.eval_ofDigits_false world n
  have hnegate : Evaluation.unary .neg (.ofInteger n) world = .ok (.ofInteger (-n)) world := by
    change Action.ofExcept (world.heap.negate (.ofInteger n)) world = _
    rw [world.heap.negate_ofInteger]
    rfl
  have htree : Expr.ofDigits true n = .unary .neg (.ofDigits false n) := rfl
  rw [htree]
  exact (Resolver.bind_of_ok hoperand).trans hnegate

end Context

/-- A bare expression that leaves the world alone changes nothing but the cache. -/
theorem Session.eval_of_compile {text : String} {template : Template} {processor : Processor}
    {value : Value} (hfaithful : processor.cache.Faithful)
    (hcompile : Template.compile (Template.bracket text) = .ok template)
    (hvalue : processor.context.eval template.expr processor.world = .ok value processor.world) :
    ∃ cache, Session.eval text .any processor = .ok value { processor with cache } := by
  have hcached := hfaithful.compile (Template.bracket text)
  rw [hcompile] at hcached
  obtain ⟨cache, hcache, -⟩ := hcached
  refine ⟨cache, ?_⟩
  have hexpression : Session.expression text .any processor =
      .ok ⟨Template.bracket text, template, .any⟩ { processor with cache } := by
    simp only [Session.expression, Session.templateExpression, Session.compile, bind, EStateM.bind,
      hcache, pure, EStateM.pure]
  have hany : processor.context.evalAs template.expr .any processor.world =
      .ok value processor.world := Resolver.bind_of_ok hvalue
  simp only [Session.eval, bind, EStateM.bind, hexpression, Session.value, Session.evaluate,
    ValueExpression.value, ValueExpression.expr, hany]

/-- The text is an expression of this value, which does not depend on the context and leaves the
world alone, and a processor answers with it at any point of its use. -/
structure Evaluates (text : String) (value : Value) : Prop where
  tree : ∃ e, Expr.parse text = .ok e ∧
    ∀ (context : Context) (world : World), context.eval e world = .ok value world
  session (config : Config) (steps : List Step) :
    let processor := (Step.runAll steps (.ofConfig config)).2
    ∃ cache, Session.eval text .any processor = .ok value { processor with cache }

theorem evaluates_signed (negative : Bool) (hdigits : IsDigits digits) :
    Evaluates (String.ofList (signed negative digits))
      (.ofInteger (if negative then -(digitsValue digits : Int) else digitsValue digits)) := by
  have heval (context : Context) (world : World) :
      context.eval (.ofDigits negative (digitsValue digits)) world =
        .ok (.ofInteger (if negative then -(digitsValue digits : Int) else digitsValue digits))
          world := by
    cases negative with
    | false => exact context.eval_ofDigits_false world _
    | true => exact context.eval_ofDigits_true world _
  exact ⟨⟨_, parse_signed negative hdigits, heval⟩, fun config steps =>
    Session.eval_of_compile (Template.faithful_of_session config steps)
      (Template.compile_signed negative hdigits) (heval _ _)⟩

theorem evaluates_intText (m : Int) : Evaluates (intText m) (.ofInteger m) := by
  rcases lt_or_ge m 0 with hneg | hnonneg
  · have heval := evaluates_signed true (isDigits_natDigits m.natAbs)
    have hm : -(m.natAbs : Int) = m := by lia
    rw [digitsValue_natDigits, if_pos rfl, hm] at heval
    rwa [intText, if_pos hneg]
  · have heval := evaluates_signed false (isDigits_natDigits m.natAbs)
    rw [digitsValue_natDigits, if_neg Bool.false_ne_true, Int.natAbs_of_nonneg hnonneg] at heval
    rwa [intText, if_neg (not_lt.mpr hnonneg)]

/-- A run of digits is an expression of the integer that the digits denote, whatever zeros it
begins with, and with a minus in front of it of the integer of the other sign; the integer is one
of 64 bits if the digits denote one, and a big one otherwise.  So the decimal text of an integer
is an expression whose value is equal to every number that is the same. -/
theorem integerLiteral_evaluates :
    (∀ digits, IsDigits digits →
      let n := Nat.ofDigitChars 10 digits 0
      Evaluates (String.ofList digits)
          (if n < 2 ^ 63 then .long (Int64.ofNat n) else .bigInteger n) ∧
        Evaluates (String.ofList ('-' :: digits))
          (if n < 2 ^ 63 then .long (Int64.ofInt (-n)) else .bigInteger (-n))) ∧
      ∀ m : Int, ∃ value, Evaluates (intText m) value ∧
        ∀ (heap : Heap) (other : Value), other.exactNumber? = some (m : ℚ) →
          heap.applyBinary .eq value other = .ok (.bool true) ∧
            heap.applyBinary .eq other value = .ok (.bool true) := by
  constructor
  · intro digits hdigits n
    have hplain := evaluates_signed false hdigits
    have hminus := evaluates_signed true hdigits
    have hn : digitsValue digits = n := digitsValue_eq_ofDigitChars digits
    rw [hn] at hplain hminus
    rw [← Value.ofInteger_natCast, ← Value.ofInteger_neg_natCast]
    exact ⟨hplain, hminus⟩
  · intro m
    refine ⟨.ofInteger m, evaluates_intText m, fun heap other hother => ?_⟩
    have hvalue := Value.exactNumber?_ofInteger m
    have hleft := (heap.comparesAs_of_exactNumber? hvalue hother).eq
    have hright := (heap.comparesAs_of_exactNumber? hother hvalue).eq
    rw [decide_eq_true rfl] at hleft hright
    exact ⟨hleft, hright⟩

/-- The least integer of 64 bits is a big one, and so it is without the minus. -/
theorem integerLiteral_evaluates_boundary :
    (IsDigits "009223372036854775808".toList ∧
      Evaluates "009223372036854775808" (.bigInteger 9223372036854775808) ∧
      Evaluates "-009223372036854775808" (.bigInteger (-9223372036854775808))) ∧
    (IsDigits "9223372036854775807".toList ∧
      Evaluates "-9223372036854775807" (.long (-9223372036854775807))) ∧
    (Value.bigDecimal ⟨-9223372036854775808, 0⟩).exactNumber? =
        some ((-9223372036854775808 : Int) : ℚ) ∧
      ∃ value, Evaluates "-9223372036854775808" value ∧
        Heap.empty.applyBinary .eq value (.bigDecimal ⟨-9223372036854775808, 0⟩) =
          .ok (.bool true) := by
  have hlarge : IsDigits "009223372036854775808".toList :=
    ⟨by simp, by simp⟩
  have hsmall : IsDigits "9223372036854775807".toList := ⟨by simp, by simp⟩
  have hsame : (Value.bigDecimal ⟨-9223372036854775808, 0⟩).exactNumber? =
      some ((-9223372036854775808 : Int) : ℚ) := by
    rw [Value.exactNumber?]
    norm_num [Decimal.toRat]
  obtain ⟨value, hvalue, hequal⟩ := integerLiteral_evaluates.2 (-9223372036854775808)
  exact ⟨⟨hlarge, integerLiteral_evaluates.1 _ hlarge⟩,
    ⟨hsmall, (integerLiteral_evaluates.1 _ hsmall).2⟩, hsame, value, hvalue,
    (hequal .empty _ hsame).1⟩

end ExprLang
