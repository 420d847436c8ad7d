import ExprLang.Proofs.Operator.Order

/-!
# Agreement of the comparison operators

Relational and equality operators choose by one rule what two operands are compared as, and then
go separate ways.  Where one operand is a number, a character or text, and neither is of a sort
that one of the two treats in a way of its own, both come to the same order of the operands, or to
the same error.
-/

namespace ExprLang

/-!
## Operands with one order
-/

namespace Value

def isText : Value → Bool
  | .string _ => true
  | _ => false

def isChar : Value → Bool
  | .char _ => true
  | _ => false

/-- Whether equality brings the other operand to the type of the value. -/
def isTruthOrConstant : Value → Bool
  | .bool _ | .enum .. => true
  | _ => false

/-- What a value is not if it has one order with another: null, a floating-point number, text that
reads as one opposite a number, or a truth value or a constant opposite text. -/
structure SuitsBeside (value other : Value) : Prop where
  not_null : value.isNull = false
  not_floating : value.isFloating = false
  not_decimalText : value.isDecimalText → other.isNumber = false
  not_truthOrConstant : value.isTruthOrConstant → other.isText = false

/-- Two operands that all comparison operators look at alike. -/
structure Orderable (first second : Value) : Prop where
  left : first.SuitsBeside second
  right : second.SuitsBeside first
  number_or_text : first.isNumber ∨ first.isChar ∨ first.isText ∨
    second.isNumber ∨ second.isChar ∨ second.isText

theorem not_truthOrConstant_of_text {left right : Value} (hl : left.SuitsBeside right)
    (hr : right.SuitsBeside left) (h : left.isText ∨ right.isText) :
    left.isTruthOrConstant = false ∧ right.isTruthOrConstant = false := by
  have hsort (value : Value) (htext : value.isText) : value.isTruthOrConstant = false := by
    cases value <;> first | rfl | cases htext
  have hno {value other : Value} (hsuits : value.SuitsBeside other) (htext : other.isText) :
      value.isTruthOrConstant = false := by
    by_contra hvalue
    rw [hsuits.not_truthOrConstant (Bool.eq_true_of_not_eq_false hvalue)] at htext
    cases htext
  rcases h with htext | htext
  · exact ⟨hsort left htext, hno hr htext⟩
  · exact ⟨hno hl htext, hsort right htext⟩

end Value

namespace Comparand

variable {left right : Value}

theorem of_eq (left right : Value) : of left right =
    let floating := left.isFloating || right.isFloating
      || (left.isDecimalText && right.isNumber) || (right.isDecimalText && left.isNumber)
    let big := left.isBigInteger || right.isBigInteger
    if left.isBigDecimal || right.isBigDecimal || (big && floating) then bigDecimal
    else if big then bigInteger
    else if floating then double
    else if left.isIntegral || right.isIntegral || left.isChar || right.isChar then long
    else if left.isText || right.isText then text
    else other := rfl

theorem of_comm (left right : Value) : of left right = of right left := by
  rw [of_eq, of_eq]
  grind

/-- The values that a kind is chosen for: one of two operands that are compared in it is such. -/
def isOf : Comparand → Value → Bool
  | bigDecimal, value => value.isBigDecimal
  | bigInteger, value => value.isBigInteger
  | long, value => value.isIntegral || value.isChar
  | text, value => value.isText
  | double, _ | other, _ => false

theorem isNumber_eq (value : Value) : value.isNumber =
    (value.isIntegral || value.isFloating || value.isBigInteger || value.isBigDecimal) := by
  cases value <;> rfl

theorem isOf_of_orderable (h : left.Orderable right) :
    (of left right).isOf left ∨ (of left right).isOf right := by
  rcases h with ⟨hleft, hright, hsort⟩
  have hl := isNumber_eq left
  have hr := isNumber_eq right
  rw [of_eq]
  grind [isOf, Value.SuitsBeside]

end Comparand

/-!
## The order of two operands
-/

namespace Heap

/-- The order of two operands that are converted first, the left one before the right one. -/
def orderOf {α : Type} (convert : Value → Except EvalError α) (order : α → α → Ordering)
    (left right : Value) : Except EvalError Ordering := do
  let a ← convert left
  let b ← convert right
  return order a b

/-- Where one operand is converted, exchanged operands are in the reverse order or fail alike. -/
theorem orderOf_swap {α : Type} {convert : Value → Except EvalError α}
    {order : α → α → Ordering} {left right : Value}
    (horder : ∀ a b, order b a = (order a b).swap)
    (hconvert : (∃ a, convert left = .ok a) ∨ ∃ b, convert right = .ok b) :
    orderOf convert order right left = (orderOf convert order left right).map .swap := by
  unfold orderOf
  cases hleft : convert left with
  | error error =>
      rcases hconvert with ⟨a, ha⟩ | ⟨b, hb⟩
      · rw [ha] at hleft
        cases hleft
      · rw [hb]
        rfl
  | ok a =>
      cases convert right with
      | error error => rfl
      | ok b => exact congrArg Except.ok (horder a b)

/-- What all comparison operators make of two operands: their order, or an error. -/
structure OrdersBy (heap : Heap) (left right : Value) (answer : Except EvalError Ordering) :
    Prop where
  compare : ∀ op, heap.compare op left right = answer.map some
  equals : heap.equals left right = answer.map (· == .eq)

theorem beq_eq_compare {α : Type} [Ord α] [Std.LawfulEqOrd α] [BEq α] [LawfulBEq α] (a b : α) :
    (a == b) = (Ord.compare a b == .eq) := by
  rw [Bool.eq_iff_iff, beq_iff_eq, Std.LawfulEqCmp.compare_beq_iff_eq]

theorem beq_eq_compare_toInt (a b : Int64) :
    (a == b) = (Ord.compare a.toInt b.toInt == .eq) := by
  rw [← beq_eq_compare, Bool.eq_iff_iff, beq_iff_eq, beq_iff_eq, Int64.toInt_inj]

section Kinds

variable {heap : Heap} {left right value : Value}

theorem exists_toDecimal (h : Comparand.bigDecimal.isOf value) :
    ∃ d, heap.toDecimal value = .ok d := by
  cases value with
  | bigDecimal d => exact ⟨d, rfl⟩
  | _ => cases h

theorem exists_toInteger (h : Comparand.bigInteger.isOf value) :
    ∃ n, heap.toInteger value = .ok n := by
  cases value with
  | bigInteger n => exact ⟨n, rfl⟩
  | _ => cases h

theorem exists_toInt64 (h : Comparand.long.isOf value) : ∃ n, heap.toInt64 value = .ok n := by
  cases value with
  | byte | short | int | long | char => exact ⟨_, rfl⟩
  | _ => cases h

/-- Comparison of converted operands, where equality holds of operands of equal order. -/
theorem OrdersBy.of_convert {α : Type} {convert : Value → Except EvalError α}
    {order : α → α → Ordering} {same : α → α → Bool} (hsame : ∀ a b, same a b = (order a b == .eq))
    (hcompare : ∀ op, heap.compare op left right =
      do return some (order (← convert left) (← convert right)))
    (hequals : heap.equals left right = do return same (← convert left) (← convert right)) :
    heap.OrdersBy left right (orderOf convert order left right) := by
  constructor
  case compare =>
    intro op
    rw [hcompare, orderOf]
    cases convert left with
    | error => rfl
    | ok a => cases convert right <;> rfl
  case equals =>
    rw [hequals, orderOf]
    cases convert left with
    | error => rfl
    | ok a =>
        cases convert right with
        | error => rfl
        | ok b => exact congrArg Except.ok (hsame a b)

theorem ordersBy_bigDecimal (hleft : left.isNull = false) (hright : right.isNull = false)
    (hkind : Comparand.of left right = .bigDecimal) :
    heap.OrdersBy left right (orderOf heap.toDecimal Decimal.compare left right) := by
  have hsame (a b : Decimal) : a.equals b = (a.compare b == .eq) := rfl
  refine .of_convert hsame (fun op => ?_) ?_
  · rw [compare, hleft, hright, hkind]
    rfl
  · rw [equals, hleft, hright, hkind]
    rfl

theorem ordersBy_bigInteger (hleft : left.isNull = false) (hright : right.isNull = false)
    (hkind : Comparand.of left right = .bigInteger) :
    heap.OrdersBy left right (orderOf heap.toInteger Ord.compare left right) := by
  refine .of_convert beq_eq_compare (fun op => ?_) ?_
  · rw [compare, hleft, hright, hkind]
    rfl
  · rw [equals, hleft, hright, hkind]
    rfl

theorem ordersBy_long (hleft : left.isNull = false) (hright : right.isNull = false)
    (hkind : Comparand.of left right = .long) :
    heap.OrdersBy left right
      (orderOf heap.toInt64 (fun a b => Ord.compare a.toInt b.toInt) left right) := by
  refine .of_convert beq_eq_compare_toInt (fun op => ?_) ?_
  · rw [compare, hleft, hright, hkind]
    rfl
  · rw [equals, hleft, hright, hkind]
    rfl

/-- Text is compared with the text of a value that equality has no other use for. -/
theorem equalsOther_of_text (hleft : left.isTruthOrConstant = false)
    (hright : right.isTruthOrConstant = false) (h : left.isText ∨ right.isText) :
    heap.equalsOther left right = .ok (heap.text left == heap.text right) := by
  rcases h with htext | htext
  · cases left with
    | string s =>
        cases right with
        | bool | enum => cases hright
        | _ => rfl
    | _ => cases htext
  · cases right with
    | string s =>
        cases left with
        | bool | enum => cases hleft
        | _ => rfl
    | _ => cases htext

theorem ordersBy_text (hl : left.SuitsBeside right) (hr : right.SuitsBeside left)
    (hkind : Comparand.of left right = .text) (h : left.isText ∨ right.isText) :
    heap.OrdersBy left right (.ok (Ord.compare (heap.text left) (heap.text right))) := by
  have hothers := Value.not_truthOrConstant_of_text hl hr h
  constructor
  case compare =>
    intro op
    rw [compare, hl.not_null, hr.not_null, hkind]
    rfl
  case equals =>
    rw [equals, hl.not_null, hr.not_null, hkind]
    change heap.equalsOther left right = _
    rw [equalsOther_of_text hothers.1 hothers.2 h, beq_eq_compare]
    rfl

/-- The order of two operands is the reverse of that of the exchanged ones: the operand that the
kind was chosen for is always converted, so there is no second error to choose from. -/
theorem exists_ordersBy (heap : Heap) (h : left.Orderable right) : ∃ answer,
    heap.OrdersBy left right answer ∧ heap.OrdersBy right left (answer.map .swap) := by
  have hl := h.left.not_null
  have hr := h.right.not_null
  have hof := Comparand.isOf_of_orderable h
  have hcomm := Comparand.of_comm right left
  generalize hkind : Comparand.of left right = kind at hof hcomm
  cases kind with
  | double | other => rcases hof with hleft | hright <;> contradiction
  | bigDecimal =>
      refine ⟨_, ordersBy_bigDecimal hl hr hkind, ?_⟩
      rw [← orderOf_swap Decimal.compare_swap (hof.imp exists_toDecimal exists_toDecimal)]
      exact ordersBy_bigDecimal hr hl hcomm
  | bigInteger =>
      refine ⟨_, ordersBy_bigInteger hl hr hkind, ?_⟩
      rw [← orderOf_swap (fun _ _ => Std.OrientedOrd.eq_swap)
        (hof.imp exists_toInteger exists_toInteger)]
      exact ordersBy_bigInteger hr hl hcomm
  | long =>
      refine ⟨_, ordersBy_long hl hr hkind, ?_⟩
      rw [← orderOf_swap (fun _ _ => Std.OrientedOrd.eq_swap)
        (hof.imp exists_toInt64 exists_toInt64)]
      exact ordersBy_long hr hl hcomm
  | text =>
      refine ⟨_, ordersBy_text h.left h.right hkind hof, ?_⟩
      have hswap : Ord.compare (heap.text right) (heap.text left) =
          (Ord.compare (heap.text left) (heap.text right)).swap := Std.OrientedOrd.eq_swap
      change heap.OrdersBy right left (.ok _)
      rw [← hswap]
      exact ordersBy_text h.right h.left hcomm hof.symm

end Kinds

/-!
## Operators
-/

end Heap

namespace BinaryOp

/-- The operators that compare their operands. -/
def comparisons : List BinaryOp := [eq, notEq, lt, ltEq, gt, gtEq]

/-- Whether a comparison operator holds of operands in an order. -/
def accepts : BinaryOp → Ordering → Bool
  | eq, order => order == .eq
  | notEq, order => order != .eq
  | lt, order => order == .lt
  | ltEq, order => order == .lt || order == .eq
  | gt, order => order == .gt
  | gtEq, order => order == .gt || order == .eq
  | _, _ => false

/-- The one of `<`, `==` and `>` that holds in an order. -/
def ofOrder : Ordering → BinaryOp
  | .lt => lt
  | .eq => eq
  | .gt => gt

/-- The operator that says of exchanged operands what the given one says of two operands. -/
def mirrored : BinaryOp → BinaryOp
  | lt => gt
  | ltEq => gtEq
  | gt => lt
  | gtEq => ltEq
  | op => op

theorem accepts_iff_eq_ofOrder {op : BinaryOp} (h : op ∈ [lt, eq, gt]) (order : Ordering) :
    op.accepts order ↔ op = ofOrder order := by
  cases order <;> decide +revert

theorem mirrored_mem_comparisons {op : BinaryOp} (h : op ∈ comparisons) :
    op.mirrored ∈ comparisons := by
  decide +revert

theorem accepts_swap {op : BinaryOp} (h : op ∈ comparisons) (order : Ordering) :
    op.accepts order.swap = op.mirrored.accepts order := by
  cases order <;> decide +revert

end BinaryOp

namespace Heap

variable {heap : Heap} {left right : Value} {answer : Except EvalError Ordering}

theorem OrdersBy.applyBinary (h : heap.OrdersBy left right answer) {op : BinaryOp}
    (hop : op ∈ BinaryOp.comparisons) :
    heap.applyBinary op left right = answer.map fun order => .bool (op.accepts order) := by
  cases op with
  | eq | notEq =>
      rw [Heap.applyBinary, h.equals]
      cases answer <;> rfl
  | lt | ltEq | gt | gtEq =>
      rw [Heap.applyBinary, h.compare]
      cases answer with
      | error => rfl
      | ok order => cases order <;> rfl
  | _ => exact absurd hop (by decide)

/-- The operators answer as for one order: one of less, equal and greater holds, and the others are
put together from these. -/
structure Trichotomy (heap : Heap) (left right : Value) : Prop where
  answers : ∀ op ∈ BinaryOp.comparisons,
    ∃ truth, heap.applyBinary op left right = .ok (.bool truth)
  exactly_one : ∃! op, op ∈ [BinaryOp.lt, .eq, .gt] ∧ heap.Holds op left right
  ltEq_iff : heap.Holds .ltEq left right ↔ ¬ heap.Holds .gt left right
  gtEq_iff : heap.Holds .gtEq left right ↔ ¬ heap.Holds .lt left right
  notEq_iff : heap.Holds .notEq left right ↔ ¬ heap.Holds .eq left right

theorem OrdersBy.holds_iff {order : Ordering} (h : heap.OrdersBy left right (.ok order))
    {op : BinaryOp} (hop : op ∈ BinaryOp.comparisons) :
    heap.Holds op left right ↔ op.accepts order := by
  rw [Holds, h.applyBinary hop]
  simp [Except.map]

theorem OrdersBy.trichotomy {order : Ordering} (h : heap.OrdersBy left right (.ok order)) :
    heap.Trichotomy left right := by
  constructor
  case answers =>
    intro op hop
    exact ⟨op.accepts order, h.applyBinary hop⟩
  case exactly_one =>
    have hsub : ∀ op ∈ [BinaryOp.lt, .eq, .gt], op ∈ BinaryOp.comparisons := by decide
    have hmem : BinaryOp.ofOrder order ∈ [BinaryOp.lt, .eq, .gt] := by cases order <;> decide
    refine ⟨BinaryOp.ofOrder order, ⟨hmem, ?_⟩, ?_⟩
    · rw [h.holds_iff (hsub _ hmem), BinaryOp.accepts_iff_eq_ofOrder hmem]
    · rintro op ⟨hop, hholds⟩
      rw [h.holds_iff (hsub op hop), BinaryOp.accepts_iff_eq_ofOrder hop] at hholds
      exact hholds
  case ltEq_iff =>
    rw [h.holds_iff (by decide), h.holds_iff (by decide)]
    cases order <;> decide
  case gtEq_iff =>
    rw [h.holds_iff (by decide), h.holds_iff (by decide)]
    cases order <;> decide
  case notEq_iff =>
    rw [h.holds_iff (by decide), h.holds_iff (by decide)]
    cases order <;> decide

/-- Operands that are looked at alike have one order for all comparison operators, or all of them
fail with one error.  Exchanged operands have the same answers from the mirrored operators. -/
theorem comparisons_agree (heap : Heap) (h : left.Orderable right) :
    ((∃ error, ∀ op ∈ BinaryOp.comparisons, heap.applyBinary op left right = .error error) ∨
      heap.Trichotomy left right) ∧
    ∀ op ∈ BinaryOp.comparisons,
      heap.applyBinary op right left = heap.applyBinary op.mirrored left right := by
  rcases exists_ordersBy heap h with ⟨answer, horder, hswapped⟩
  constructor
  · cases answer with
    | error error => exact Or.inl ⟨error, fun op hop => horder.applyBinary hop⟩
    | ok order => exact Or.inr horder.trichotomy
  · intro op hop
    rw [hswapped.applyBinary hop, horder.applyBinary (BinaryOp.mirrored_mem_comparisons hop)]
    cases answer with
    | error error => rfl
    | ok order =>
        exact congrArg (fun truth => Except.ok (Value.bool truth))
          (BinaryOp.accepts_swap hop order)

/-- Text opposite a decimal of the same value has an order; a letter opposite a character that is
compared by its code has none in either order of the operands. -/
theorem comparisons_agree_text :
    let heap : Heap := .empty
    let text : Value := .string "17"
    let decimal : Value := .bigDecimal ⟨170, 1⟩
    let letter : Value := .string "x"
    heap.Trichotomy text decimal ∧ heap.Holds .eq text decimal ∧
      heap.applyBinary .lt (.char 'x') letter = heap.applyBinary .gt letter (.char 'x') ∧
      heap.applyBinary .lt (.char 'x') letter = .error (heap.cannotConvert letter "Long") := by
  intro heap text decimal letter
  have hdecimal : text.Orderable decimal := by
    refine ⟨⟨rfl, rfl, ?_, ?_⟩, ⟨rfl, rfl, ?_, ?_⟩, ?_⟩ <;> decide
  have hchar : letter.Orderable (.char 'x') := by
    refine ⟨⟨rfl, rfl, ?_, ?_⟩, ⟨rfl, rfl, ?_, ?_⟩, ?_⟩ <;> decide
  have heq : heap.applyBinary .eq text decimal = .ok (.bool true) := by decide
  refine ⟨?_, heq, (comparisons_agree heap hchar).2 .lt (by decide), by decide⟩
  rcases (comparisons_agree heap hdecimal).1 with ⟨error, herror⟩ | htrichotomy
  · rw [herror .eq (by decide)] at heq
    cases heq
  · exact htrichotomy

end Heap
end ExprLang
