import Mathlib.Order.Compare
import ExprLang.Operator
import ExprLang.Proofs.Operator.Operands

/-!
# The order of exact numbers

An integer of any width and a decimal at any scale is a rational number.  Two of them are compared
in a kind that has room for both, where neither loses anything.  So a comparison decides the order
of the two rational numbers whatever kinds they are of, and on all these values together the
relational operators are one total preorder, with the equality operators as its equality.
-/

namespace ExprLang

/-!
## Comparison of numbers
-/

theorem compare_eq_cmp_cast (a b : Int) : Ord.compare a b = cmp (a : ℚ) b := by
  rw [← cmp_eq_compare]
  exact (Int.cast_strictMono.cmp_map_eq a b).symm

namespace Decimal

variable (a b : Decimal)

/-- At a common scale both numbers are multiples of one power of ten. -/
theorem compare_eq_cmp : a.compare b = cmp a.toRat b.toRat := by
  have hpow : (0 : ℚ) < 10 ^ (-commonScale a b) := zpow_pos (by norm_num) _
  have hleft : a.toRat = a.unscaledAt (commonScale a b) * 10 ^ (-commonScale a b) :=
    toRat_eq_unscaledAt (le_max_left a.scale b.scale)
  have hright : b.toRat = b.unscaledAt (commonScale a b) * 10 ^ (-commonScale a b) :=
    toRat_eq_unscaledAt (le_max_right a.scale b.scale)
  rw [hleft, hright, cmp_mul_pos_right hpow, ← compare_eq_cmp_cast]
  rfl

theorem compare_swap : b.compare a = (a.compare b).swap := by
  rw [compare_eq_cmp, compare_eq_cmp, cmp_swap]

theorem equals_eq_decide : a.equals b = decide (a.toRat = b.toRat) := by
  rw [equals, compare_eq_cmp, beq_eq_decide]
  exact decide_eq_decide.mpr (cmp_eq_eq_iff _ _)

theorem equals_comm : b.equals a = a.equals b := by
  rw [equals_eq_decide, equals_eq_decide]
  exact decide_eq_decide.mpr eq_comm

end Decimal

/-!
## Exact numbers
-/

/-- The number that an integer of any width or a decimal is. -/
def Value.exactNumber? : Value → Option ℚ
  | .byte n => some n.toInt
  | .short n => some n.toInt
  | .int n => some n.toInt
  | .long n => some n.toInt
  | .bigInteger n => some n
  | .bigDecimal d => some d.toRat
  | _ => none

/-- The kind of numbers that two operands of arithmetic have in common, as one to compare in. -/
def Conversion.comparand : Conversion → Comparand
  | zero => .other
  | bigDecimal => .bigDecimal
  | bigInteger => .bigInteger
  | double => .double
  | long => .long

section Exact

variable {left right value : Value} {x y : ℚ}

theorem Value.number?_of_exactNumber? (h : value.exactNumber? = some x) (kind : Conversion) :
    kind.number? value = some x := by
  cases value with
  | byte | short | int | long | bigInteger | bigDecimal => exact h
  | _ => cases h

/-- What comparisons look for in a value, as it is for exact numbers. -/
structure Value.Traits (value : Value) : Prop where
  not_null : value.isNull = false
  not_floating : value.isFloating = false
  not_text : value.isDecimalText = false
  kind : value.isIntegral ∨ value.isBigInteger ∨ value.isBigDecimal

theorem Value.traits_of_exactNumber? (h : value.exactNumber? = some x) : value.Traits := by
  cases value with
  | byte | short | int | long => exact ⟨rfl, rfl, rfl, .inl rfl⟩
  | bigInteger => exact ⟨rfl, rfl, rfl, .inr (.inl rfl)⟩
  | bigDecimal => exact ⟨rfl, rfl, rfl, .inr (.inr rfl)⟩
  | _ => cases h

/-- Two exact numbers are compared in the kind of numbers that arithmetic on them is carried out
in, and it is an exact one. -/
theorem comparand_of_exactNumber? (hleft : left.exactNumber? = some x)
    (hright : right.exactNumber? = some y) :
    (Conversion.of left right).IsExact ∧
      Comparand.of left right = (Conversion.of left right).comparand := by
  have hl := left.traits_of_exactNumber? hleft
  have hr := right.traits_of_exactNumber? hright
  unfold Conversion.IsExact Comparand.of Conversion.of
  grind [Conversion.comparand, Value.Traits]

namespace Heap

/-- Two operands as the numbers that they are converted to for a comparison, in a kind without
rounding. -/
inductive Reads (heap : Heap) (left right : Value) : Comparand → ℚ → ℚ → Prop
  | long {n m : Int64} : heap.toInt64 left = .ok n → heap.toInt64 right = .ok m →
      Reads heap left right .long n.toInt m.toInt
  | bigInteger {n m : Int} : heap.toInteger left = .ok n → heap.toInteger right = .ok m →
      Reads heap left right .bigInteger n m
  | bigDecimal {d e : Decimal} : heap.toDecimal left = .ok d → heap.toDecimal right = .ok e →
      Reads heap left right .bigDecimal d.toRat e.toRat

theorem reads_of_exactNumber? (heap : Heap) (hleft : left.exactNumber? = some x)
    (hright : right.exactNumber? = some y) :
    heap.Reads left right (Comparand.of left right) x y := by
  rcases comparand_of_exactNumber? hleft hright with ⟨hexact, hcomparand⟩
  have hadmits := Conversion.admits_left rfl hexact fun _ =>
    (Value.traits_of_exactNumber? hleft).not_floating
  have hadmits' := Conversion.admits_right rfl hexact fun _ =>
    (Value.traits_of_exactNumber? hright).not_floating
  have hx := Value.number?_of_exactNumber? hleft (Conversion.of left right)
  have hy := Value.number?_of_exactNumber? hright (Conversion.of left right)
  rw [hcomparand]
  rcases hexact with hkind | hkind | hkind
  · rw [hkind] at hadmits hadmits' hx hy ⊢
    rcases (reads_toInt64 heap hadmits).exists_ok hx with ⟨n, hn, rfl⟩
    rcases (reads_toInt64 heap hadmits').exists_ok hy with ⟨m, hm, rfl⟩
    exact .long hn hm
  · rw [hkind] at hadmits hadmits' hx hy ⊢
    rcases (reads_toInteger heap hadmits).exists_ok hx with ⟨n, hn, rfl⟩
    rcases (reads_toInteger heap hadmits').exists_ok hy with ⟨m, hm, rfl⟩
    exact .bigInteger hn hm
  · rw [hkind] at hadmits hadmits' hx hy ⊢
    rcases (reads_toDecimal heap hadmits).exists_ok hx with ⟨d, hd, rfl⟩
    rcases (reads_toDecimal heap hadmits').exists_ok hy with ⟨e, he, rfl⟩
    exact .bigDecimal hd he

theorem compare_of_exactNumber? (heap : Heap) (op : BinaryOp) (hleft : left.exactNumber? = some x)
    (hright : right.exactNumber? = some y) : heap.compare op left right = .ok (some (cmp x y)) := by
  have hreads := heap.reads_of_exactNumber? hleft hright
  rw [compare, (Value.traits_of_exactNumber? hleft).not_null,
    (Value.traits_of_exactNumber? hright).not_null]
  generalize Comparand.of left right = comparand at hreads ⊢
  cases hreads with
  | long hn hm =>
      rw [hn, hm, ← compare_eq_cmp_cast]
      rfl
  | bigInteger hn hm =>
      rw [hn, hm, ← compare_eq_cmp_cast]
      rfl
  | bigDecimal hd he =>
      rw [hd, he, ← Decimal.compare_eq_cmp]
      rfl

theorem equals_of_exactNumber? (heap : Heap) (hleft : left.exactNumber? = some x)
    (hright : right.exactNumber? = some y) : heap.equals left right = .ok (decide (x = y)) := by
  have hreads := heap.reads_of_exactNumber? hleft hright
  rw [equals, (Value.traits_of_exactNumber? hleft).not_null,
    (Value.traits_of_exactNumber? hright).not_null]
  generalize Comparand.of left right = comparand at hreads ⊢
  cases hreads with
  | @long n m hn hm =>
      rw [hn, hm]
      have hnm : (n == m) = decide ((n.toInt : ℚ) = m.toInt) := by
        rw [beq_eq_decide]
        simp only [Int.cast_inj, Int64.toInt_inj]
      exact congrArg Except.ok hnm
  | @bigInteger n m hn hm =>
      rw [hn, hm]
      have hnm : (n == m) = decide ((n : ℚ) = m) := by
        rw [beq_eq_decide]
        simp only [Int.cast_inj]
      exact congrArg Except.ok hnm
  | bigDecimal hd he =>
      rw [hd, he, ← Decimal.equals_eq_decide]
      rfl

/-- How two values compare that are numbers: in the order of these numbers. -/
structure ComparesAs (heap : Heap) (left right : Value) (x y : ℚ) : Prop where
  compare : ∀ op, heap.compare op left right = .ok (some (cmp x y))
  equals : heap.equals left right = .ok (decide (x = y))
  eq : heap.applyBinary .eq left right = .ok (.bool (x = y))
  notEq : heap.applyBinary .notEq left right = .ok (.bool (x ≠ y))
  lt : heap.applyBinary .lt left right = .ok (.bool (x < y))
  ltEq : heap.applyBinary .ltEq left right = .ok (.bool (x ≤ y))
  gt : heap.applyBinary .gt left right = .ok (.bool (x > y))
  gtEq : heap.applyBinary .gtEq left right = .ok (.bool (x ≥ y))

theorem comparesAs_of_exactNumber? (heap : Heap) (hleft : left.exactNumber? = some x)
    (hright : right.exactNumber? = some y) : heap.ComparesAs left right x y := by
  have hcompare op := heap.compare_of_exactNumber? op hleft hright
  have hequals := heap.equals_of_exactNumber? hleft hright
  have hlt : (some (cmp x y) == some .lt) = decide (x < y) := by
    rw [beq_eq_decide]
    exact decide_eq_decide.mpr (Option.some_inj.trans (cmp_eq_lt_iff x y))
  have heq : (some (cmp x y) == some .eq) = decide (x = y) := by
    rw [beq_eq_decide]
    exact decide_eq_decide.mpr (Option.some_inj.trans (cmp_eq_eq_iff x y))
  have hgt : (some (cmp x y) == some .gt) = decide (x > y) := by
    rw [beq_eq_decide]
    exact decide_eq_decide.mpr (Option.some_inj.trans (cmp_eq_gt_iff x y))
  have hge : x ≥ y ↔ x > y ∨ x = y := le_iff_lt_or_eq.trans (or_congr_right eq_comm)
  constructor
  case compare => exact hcompare
  case equals => exact hequals
  case eq =>
    rw [applyBinary, hequals]
    rfl
  case notEq =>
    rw [applyBinary, hequals, decide_not]
    rfl
  case lt =>
    rw [applyBinary, hcompare, ← hlt]
    rfl
  case ltEq =>
    rw [applyBinary, hcompare, Bool.decide_congr le_iff_lt_or_eq, Bool.decide_or, ← hlt, ← heq]
    rfl
  case gt =>
    rw [applyBinary, hcompare, ← hgt]
    rfl
  case gtEq =>
    rw [applyBinary, hcompare, Bool.decide_congr hge, Bool.decide_or, ← hgt, ← heq]
    rfl

/-!
## One order on all exact numbers
-/

/-- The operator answers that it holds between the values. -/
def Holds (heap : Heap) (op : BinaryOp) (left right : Value) : Prop :=
  heap.applyBinary op left right = .ok (.bool true)

/-- On some values the relational operators are one total preorder, and the equality operators are
its equality. -/
structure OrdersTotally (heap : Heap) (among : Value → Prop) : Prop where
  answers : ∀ a b, among a → among b →
    ∀ op ∈ [BinaryOp.eq, .notEq, .lt, .ltEq, .gt, .gtEq],
      ∃ truth, heap.applyBinary op a b = .ok (.bool truth)
  total : ∀ a b, among a → among b → heap.Holds .ltEq a b ∨ heap.Holds .ltEq b a
  trans : ∀ a b c, among a → among b → among c →
    heap.Holds .ltEq a b → heap.Holds .ltEq b c → heap.Holds .ltEq a c
  eq_iff : ∀ a b, among a → among b →
    (heap.Holds .eq a b ↔ heap.Holds .ltEq a b ∧ heap.Holds .ltEq b a)
  notEq_iff : ∀ a b, among a → among b → (heap.Holds .notEq a b ↔ ¬ heap.Holds .eq a b)
  lt_iff : ∀ a b, among a → among b →
    (heap.Holds .lt a b ↔ heap.Holds .ltEq a b ∧ ¬ heap.Holds .ltEq b a)
  gt_iff : ∀ a b, among a → among b → (heap.Holds .gt a b ↔ heap.Holds .lt b a)
  gtEq_iff : ∀ a b, among a → among b → (heap.Holds .gtEq a b ↔ heap.Holds .ltEq b a)

namespace ComparesAs

variable {heap : Heap} (h : heap.ComparesAs left right x y)

include h

theorem holds_eq : heap.Holds .eq left right ↔ x = y := by
  simp [Holds, h.eq]

theorem holds_notEq : heap.Holds .notEq left right ↔ x ≠ y := by
  simp [Holds, h.notEq]

theorem holds_lt : heap.Holds .lt left right ↔ x < y := by
  simp [Holds, h.lt]

theorem holds_ltEq : heap.Holds .ltEq left right ↔ x ≤ y := by
  simp [Holds, h.ltEq]

theorem holds_gt : heap.Holds .gt left right ↔ y < x := by
  simp [Holds, h.gt]

theorem holds_gtEq : heap.Holds .gtEq left right ↔ y ≤ x := by
  simp [Holds, h.gtEq]

end ComparesAs

theorem ordersTotally_of_comparesAs {heap : Heap} {among : Value → Prop} (number : Value → ℚ)
    (h : ∀ a b, among a → among b → heap.ComparesAs a b (number a) (number b)) :
    heap.OrdersTotally among := by
  constructor
  case answers =>
    intro a b ha hb op hop
    have hab := h a b ha hb
    simp only [List.mem_cons, List.not_mem_nil, or_false] at hop
    rcases hop with rfl | rfl | rfl | rfl | rfl | rfl
    · exact ⟨_, hab.eq⟩
    · exact ⟨_, hab.notEq⟩
    · exact ⟨_, hab.lt⟩
    · exact ⟨_, hab.ltEq⟩
    · exact ⟨_, hab.gt⟩
    · exact ⟨_, hab.gtEq⟩
  case total =>
    intro a b ha hb
    rw [(h a b ha hb).holds_ltEq, (h b a hb ha).holds_ltEq]
    exact le_total _ _
  case trans =>
    intro a b c ha hb hc
    rw [(h a b ha hb).holds_ltEq, (h b c hb hc).holds_ltEq, (h a c ha hc).holds_ltEq]
    exact le_trans
  case eq_iff =>
    intro a b ha hb
    rw [(h a b ha hb).holds_eq, (h a b ha hb).holds_ltEq, (h b a hb ha).holds_ltEq]
    exact le_antisymm_iff
  case notEq_iff =>
    intro a b ha hb
    rw [(h a b ha hb).holds_notEq, (h a b ha hb).holds_eq]
  case lt_iff =>
    intro a b ha hb
    rw [(h a b ha hb).holds_lt, (h a b ha hb).holds_ltEq, (h b a hb ha).holds_ltEq]
    exact lt_iff_le_not_ge
  case gt_iff =>
    intro a b ha hb
    rw [(h a b ha hb).holds_gt, (h b a hb ha).holds_lt]
  case gtEq_iff =>
    intro a b ha hb
    rw [(h a b ha hb).holds_gtEq, (h b a hb ha).holds_ltEq]

/-- Any two integers or decimals compare as the rational numbers that they are, and on all of them
together the relational operators are one total preorder and the equality operators its
equality. -/
theorem comparison_exact (heap : Heap) :
    (∀ left right x y, left.exactNumber? = some x → right.exactNumber? = some y →
        heap.ComparesAs left right x y) ∧
      heap.OrdersTotally fun value => ∃ x, value.exactNumber? = some x := by
  have hcompares : ∀ left right x y, left.exactNumber? = some x → right.exactNumber? = some y →
      heap.ComparesAs left right x y := fun _ _ _ _ => heap.comparesAs_of_exactNumber?
  constructor
  · exact hcompares
  · refine ordersTotally_of_comparesAs (fun value => value.exactNumber?.getD 0) ?_
    rintro a b ⟨x, hx⟩ ⟨y, hy⟩
    rw [hx, hy]
    exact hcompares a b x y hx hy

/-- One is the same number as an integer and as a decimal at two scales, and integers that have
one nearest 64-bit floating-point number in common are still told apart. -/
theorem comparison_exact_mixed :
    let heap : Heap := .empty
    let one : Value := .byte 1
    let tenths : Value := .bigDecimal ⟨10, 1⟩
    let hundredths : Value := .bigDecimal ⟨100, 2⟩
    heap.ComparesAs one tenths 1 1 ∧ heap.ComparesAs tenths hundredths 1 1 ∧
      heap.Holds .ltEq one hundredths ∧
      heap.compare .lt (.bigInteger (2 ^ 53)) (.long (2 ^ 53 + 1)) = .ok (some .lt) := by
  intro heap one tenths hundredths
  rcases comparison_exact heap with ⟨hcompares, horder⟩
  have hone : one.exactNumber? = some 1 := by
    have hvalue : (1 : Int8).toInt = 1 := rfl
    rw [Value.exactNumber?, hvalue, Int.cast_one]
  have htenths : tenths.exactNumber? = some 1 := by
    have hvalue : (⟨10, 1⟩ : Decimal).toRat = 1 := by
      rw [Decimal.toRat]
      norm_num
    rw [Value.exactNumber?, hvalue]
  have hhundredths : hundredths.exactNumber? = some 1 := by
    have hvalue : (⟨100, 2⟩ : Decimal).toRat = 1 := by
      rw [Decimal.toRat]
      norm_num
    rw [Value.exactNumber?, hvalue]
  have hfirst := hcompares one tenths 1 1 hone htenths
  have hsecond := hcompares tenths hundredths 1 1 htenths hhundredths
  refine ⟨hfirst, hsecond, ?_, ?_⟩
  · exact horder.trans one tenths hundredths ⟨1, hone⟩ ⟨1, htenths⟩ ⟨1, hhundredths⟩
      (hfirst.holds_ltEq.mpr le_rfl) (hsecond.holds_ltEq.mpr le_rfl)
  · have hvalue : (2 ^ 53 + 1 : Int64).toInt = 2 ^ 53 + 1 := rfl
    have hlarge := hcompares (.bigInteger (2 ^ 53)) (.long (2 ^ 53 + 1)) (2 ^ 53) (2 ^ 53 + 1)
      (by rw [Value.exactNumber?]; norm_num) (by rw [Value.exactNumber?, hvalue]; norm_num)
    rw [hlarge.compare, (cmp_eq_lt_iff _ _).mpr (lt_add_one _)]

end Heap

end Exact
end ExprLang
