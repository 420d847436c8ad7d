import Mathlib.Data.Rat.Floor
import ExprLang.Operator
import ExprLang.Proofs.Operator.Operands

/-!
# Exact arithmetic

On operands that are not floating-point numbers, sums, differences, products and remainders are
those of the rational numbers that the operands count as.  Only 64-bit integers leave something
out: they keep the residue of a result.
-/

namespace ExprLang

/-!
## Results as numbers
-/

namespace Conversion

/-- The value is of the kind, and this is its number. -/
inductive Holds : Conversion → Value → ℚ → Prop
  | long (n : Int64) : Holds long (.long n) n.toInt
  | bigInteger (n : Int) : Holds bigInteger (.bigInteger n) n
  | bigDecimal (d : Decimal) : Holds bigDecimal (.bigDecimal d) d.toRat

/-- What a kind keeps of an exact result: 64-bit integers keep the residue with a sign. -/
def kept (kind : Conversion) (x : ℚ) : ℚ :=
  if kind = long then (⌊x⌋.bmod (2 ^ 64) : Int) else x

/-- The answer of an operation on two numbers of a kind. -/
inductive Computes (kind : Conversion) (a b : ℚ) : Arithmetic → Except EvalError Value → Prop
  | add {value : Value} : Holds kind value (kind.kept (a + b)) → Computes kind a b .add (.ok value)
  | sub {value : Value} : Holds kind value (kind.kept (a - b)) → Computes kind a b .sub (.ok value)
  | mul {value : Value} : Holds kind value (kind.kept (a * b)) → Computes kind a b .mul (.ok value)
  | mod {value : Value} {r : ℚ} : b ≠ 0 → IsRemainder a b r → Holds kind value r →
      Computes kind a b .mod (.ok value)
  | moduloByZero : b = 0 → Computes kind a b .mod (.error (.of .moduloByZero))

/-- The answer of an operation on two operands: the exact one where both have a number of the
kind, and otherwise the fault of the first that has none. -/
structure Answers (kind : Conversion) (heap : Heap) (op : Arithmetic) (left right : Value)
    (answer : Except EvalError Value) : Prop where
  computes : ∀ a b, kind.number? left = some a → kind.number? right = some b →
    kind.Computes a b op answer
  left_fails : kind.number? left = none → answer = .error (heap.cannotConvert left kind.name)
  right_fails : ∀ a, kind.number? left = some a → kind.number? right = none →
    answer = .error (heap.cannotConvert right kind.name)

/-- Both answers are the same number of the kind. -/
def SameNumber (kind : Conversion) (first second : Except EvalError Value) : Prop :=
  ∃ value other x, first = .ok value ∧ second = .ok other ∧
    kind.Holds value x ∧ kind.Holds other x

end Conversion

/-!
## Operations on numbers
-/

/-- The low 64 bits of an integer of any size. -/
def Value.lowBits : Value → Value
  | .bigInteger n => .long (.ofInt n)
  | value => value

namespace Arithmetic

/-- The operator that an expression is written with. -/
def operator : Arithmetic → BinaryOp
  | add => .add
  | sub => .sub
  | mul => .mul
  | div => .div
  | mod => .mod

variable {op : Arithmetic}

theorem ne_div_of_comm (hop : op = add ∨ op = mul) : op ≠ div := by
  rintro rfl
  rcases hop with h | h <;> cases h

theorem conversion_of_ne_div (hop : op ≠ div) (left right : Value) :
    op.conversion left right = Conversion.of left right :=
  if_neg hop

theorem computes_mod {kind : Conversion} {a b r : ℚ} {value : Value} {p : Prop} [Decidable p]
    (hzero : p ↔ b = 0) (hrem : b ≠ 0 → IsRemainder a b r) (hvalue : kind.Holds value r) :
    kind.Computes a b mod (if p then .error (.of .moduloByZero) else .ok value) := by
  split
  · rename_i hp
    exact .moduloByZero (hzero.mp hp)
  · rename_i hp
    have hb := mt hzero.mpr hp
    exact .mod hb (hrem hb) hvalue

theorem onLongs_computes (hop : op ≠ div) (a b : Int64) :
    Conversion.long.Computes a.toInt b.toInt op (op.onLongs a b) := by
  have hkept : ∀ {n : Int64} {m : Int} {x : ℚ}, n.toInt = m.bmod (2 ^ 64) → x = m →
      Conversion.long.Holds (.long n) (Conversion.long.kept x) := by
    rintro n m _ hn rfl
    rw [Conversion.kept, if_pos rfl, Int.floor_intCast, ← hn]
    exact .long n
  cases op with
  | div => exact absurd rfl hop
  | add => exact .add (hkept (Int64.toInt_add a b) (Int.cast_add _ _).symm)
  | sub => exact .sub (hkept (Int64.toInt_sub a b) (Int.cast_sub _ _).symm)
  | mul => exact .mul (hkept (Int64.toInt_mul a b) (Int.cast_mul _ _).symm)
  | mod =>
      have hzero : b = 0 ↔ (b.toInt : ℚ) = 0 := by
        rw [Int.cast_eq_zero, ← Int64.toInt_inj, Int64.toInt_zero]
      have hrem : (b.toInt : ℚ) ≠ 0 → IsRemainder a.toInt b.toInt (a % b).toInt := by
        intro hb
        rw [Int64.toInt_mod]
        exact .tmod a.toInt (Int.cast_ne_zero.mp hb)
      exact computes_mod hzero hrem (.long (a % b))

theorem onIntegers_computes (hop : op ≠ div) (a b : Int) :
    Conversion.bigInteger.Computes a b op (op.onIntegers a b) := by
  have hkept : ∀ {n : Int} {x : ℚ}, (n : ℚ) = x →
      Conversion.bigInteger.Holds (.bigInteger n) (Conversion.bigInteger.kept x) := by
    rintro n _ rfl
    exact .bigInteger n
  cases op with
  | div => exact absurd rfl hop
  | add => exact .add (hkept (Int.cast_add a b))
  | sub => exact .sub (hkept (Int.cast_sub a b))
  | mul => exact .mul (hkept (Int.cast_mul a b))
  | mod =>
      have hrem : (b : ℚ) ≠ 0 → IsRemainder a b (a.tmod b : Int) := by
        intro hb
        exact .tmod a (Int.cast_ne_zero.mp hb)
      exact computes_mod Int.cast_eq_zero.symm hrem (.bigInteger (a.tmod b))

theorem onDecimals_computes (hop : op ≠ div) (a b : Decimal) :
    Conversion.bigDecimal.Computes a.toRat b.toRat op (op.onDecimals a b) := by
  have hkept : ∀ {d : Decimal} {x : ℚ}, d.toRat = x →
      Conversion.bigDecimal.Holds (.bigDecimal d) (Conversion.bigDecimal.kept x) := by
    rintro d _ rfl
    exact .bigDecimal d
  cases op with
  | div => exact absurd rfl hop
  | add => exact .add (hkept (Decimal.toRat_add a b))
  | sub => exact .sub (hkept (Decimal.toRat_sub a b))
  | mul => exact .mul (hkept (Decimal.toRat_mul a b))
  | mod =>
      exact computes_mod Decimal.toRat_eq_zero_iff.symm Decimal.isRemainder_rem
        (.bigDecimal (a.rem b))

/-- The operation on 64-bit integers is the one on integers of any size, with the result cut. -/
theorem onLongs_eq_lowBits (hop : op ≠ div) (a b : Int64) :
    op.onLongs a b = (op.onIntegers a.toInt b.toInt).map Value.lowBits := by
  cases op with
  | div => exact absurd rfl hop
  | add => simp [onLongs, onIntegers, Except.map, Value.lowBits]
  | sub => simp [onLongs, onIntegers, Except.map, Value.lowBits]
  | mul => simp [onLongs, onIntegers, Except.map, Value.lowBits]
  | mod =>
      have hzero : b = 0 ↔ b.toInt = 0 := by rw [← Int64.toInt_inj, Int64.toInt_zero]
      rw [onLongs, onIntegers]
      split
      · rename_i hb
        rw [if_pos (hzero.mp hb)]
        rfl
      · rename_i hb
        rw [if_neg (mt hzero.mpr hb), ← Int64.toInt_mod]
        exact congrArg (fun n => Except.ok (Value.long n)) (Int64.ofInt_toInt (a % b)).symm

end Arithmetic

/-!
## Operations on operands
-/

namespace Conversion

variable {heap : Heap} {op : Arithmetic} {left right : Value}

/-- Operands that are converted to their numbers, and an operation that is exact on these. -/
theorem answers_of_operands {α : Type} {kind : Conversion} {number : α → ℚ}
    {convert : Value → Except EvalError α} {operate : α → α → Except EvalError Value}
    (hleft : kind.Reads heap number left (convert left))
    (hright : kind.Reads heap number right (convert right))
    (hoperate : ∀ a b, kind.Computes (number a) (number b) op (operate a b)) :
    kind.Answers heap op left right (do operate (← convert left) (← convert right)) where
  computes := by
    intro a b ha hb
    obtain ⟨n, hn, rfl⟩ := hleft.exists_ok ha
    obtain ⟨m, hm, rfl⟩ := hright.exists_ok hb
    rw [hn, hm]
    exact hoperate n m
  left_fails := by
    intro ha
    rw [hleft.eq_error ha]
    rfl
  right_fails := by
    intro a ha hb
    obtain ⟨n, hn, -⟩ := hleft.exists_ok ha
    rw [hn, hright.eq_error hb]
    rfl

end Conversion

namespace Heap

variable {heap : Heap} {op : Arithmetic} {left right : Value}

theorem applyBinary_operator (op : Arithmetic) (left right : Value) :
    heap.applyBinary op.operator left right = heap.arithmetic op left right := by
  cases op <;> rfl

theorem arithmetic_answers (heap : Heap) (hop : op ≠ .div) (hleft : left.isFloating = false)
    (hright : right.isFloating = false) (hexact : (Conversion.of left right).IsExact) :
    (Conversion.of left right).Answers heap op left right (heap.arithmetic op left right) := by
  have hadmits := Conversion.admits_left rfl hexact fun _ => hleft
  have hadmits' := Conversion.admits_right rfl hexact fun _ => hright
  rw [arithmetic, Arithmetic.conversion_of_ne_div hop]
  rcases hexact with hkind | hkind | hkind
  · rw [hkind] at hadmits hadmits' ⊢
    exact Conversion.answers_of_operands (reads_toInt64 heap hadmits)
      (reads_toInt64 heap hadmits') (Arithmetic.onLongs_computes hop)
  · rw [hkind] at hadmits hadmits' ⊢
    exact Conversion.answers_of_operands (reads_toInteger heap hadmits)
      (reads_toInteger heap hadmits') (Arithmetic.onIntegers_computes hop)
  · rw [hkind] at hadmits hadmits' ⊢
    exact Conversion.answers_of_operands (reads_toDecimal heap hadmits)
      (reads_toDecimal heap hadmits') (Arithmetic.onDecimals_computes hop)

end Heap

/-!
## Exchanged operands
-/

namespace Conversion

variable {kind : Conversion} {a b x : ℚ} {op : Arithmetic} {first second : Except EvalError Value}

theorem Computes.sameNumber (hop : op = .add ∨ op = .mul) (hfirst : kind.Computes a b op first)
    (hsecond : kind.Computes b a op second) : kind.SameNumber first second := by
  rcases hop with rfl | rfl
  · cases hfirst with | add hvalue => cases hsecond with | add hother =>
    rw [add_comm] at hother
    exact ⟨_, _, _, rfl, rfl, hvalue, hother⟩
  · cases hfirst with | mul hvalue => cases hsecond with | mul hother =>
    rw [mul_comm] at hother
    exact ⟨_, _, _, rfl, rfl, hvalue, hother⟩

/-- An integer is one value of its kind. -/
theorem Holds.eq {value other : Value} (hkind : kind ≠ .bigDecimal) (hvalue : kind.Holds value x)
    (hother : kind.Holds other x) : value = other := by
  cases hvalue with
  | long n =>
      generalize hx : (n.toInt : ℚ) = x at hother
      cases hother with | long m => rw [Int64.toInt_inj.mp (Int.cast_inj.mp hx)]
  | bigInteger n =>
      generalize hx : (n : ℚ) = x at hother
      cases hother with | bigInteger m => rw [Int.cast_inj.mp hx]
  | bigDecimal => exact absurd rfl hkind

theorem SameNumber.eq (hkind : kind ≠ .bigDecimal) (h : kind.SameNumber first second) :
    first = second := by
  obtain ⟨value, other, x, rfl, rfl, hvalue, hother⟩ := h
  rw [hvalue.eq hkind hother]

end Conversion

theorem Arithmetic.onDecimals_comm {op : Arithmetic} (hop : op = add ∨ op = mul) {a b : Decimal}
    (h : op = mul ∨ a.toRat ≠ 0 ∨ b.toRat ≠ 0) : op.onDecimals a b = op.onDecimals b a := by
  rcases hop with rfl | rfl
  · rw [onDecimals, Decimal.add_comm_of_ne_zero (h.resolve_left (by decide))]
    rfl
  · rw [onDecimals, Decimal.mul_comm]
    rfl

namespace Heap

variable {heap : Heap} {op : Arithmetic} {left right : Value} {a b : ℚ}

theorem arithmetic_comm_of_bigDecimal (hop : op = .add ∨ op = .mul)
    (hleft : left.isFloating = false) (hright : right.isFloating = false)
    (hkind : Conversion.of left right = .bigDecimal)
    (ha : Conversion.bigDecimal.number? left = some a)
    (hb : Conversion.bigDecimal.number? right = some b) (h : op = .mul ∨ a ≠ 0 ∨ b ≠ 0) :
    heap.arithmetic op left right = heap.arithmetic op right left := by
  have hdiv := Arithmetic.ne_div_of_comm hop
  have hexact : Conversion.bigDecimal.IsExact := .inr (.inr rfl)
  have hadmits := Conversion.admits_left hkind hexact fun _ => hleft
  have hadmits' := Conversion.admits_right hkind hexact fun _ => hright
  obtain ⟨d, hd, rfl⟩ := (reads_toDecimal heap hadmits).exists_ok ha
  obtain ⟨e, he, rfl⟩ := (reads_toDecimal heap hadmits').exists_ok hb
  rw [arithmetic, arithmetic, Arithmetic.conversion_of_ne_div hdiv,
    Arithmetic.conversion_of_ne_div hdiv, Conversion.of_comm right left, hkind, hd, he]
  exact Arithmetic.onDecimals_comm hop h

/-- Exchanged operands have the same sum and product, written alike unless both are decimal
zeros. -/
theorem arithmetic_swap (hop : op = .add ∨ op = .mul) (hleft : left.isFloating = false)
    (hright : right.isFloating = false) (hexact : (Conversion.of left right).IsExact)
    (ha : (Conversion.of left right).number? left = some a)
    (hb : (Conversion.of left right).number? right = some b) :
    (Conversion.of left right).SameNumber (heap.arithmetic op left right)
        (heap.arithmetic op right left) ∧
      (heap.arithmetic op left right = heap.arithmetic op right left ∨
        Conversion.of left right = .bigDecimal ∧ op = .add ∧ a = 0 ∧ b = 0) := by
  have hdiv := Arithmetic.ne_div_of_comm hop
  have hanswer := arithmetic_answers heap hdiv hleft hright hexact
  rw [Conversion.of_comm] at hexact
  have hother := arithmetic_answers heap hdiv hright hleft hexact
  rw [Conversion.of_comm right left] at hother
  have hsame := (hanswer.computes a b ha hb).sameNumber hop (hother.computes b a hb ha)
  refine ⟨hsame, ?_⟩
  by_cases hkind : Conversion.of left right = .bigDecimal
  · rw [hkind] at ha hb
    by_cases hzero : op = .mul ∨ a ≠ 0 ∨ b ≠ 0
    · exact .inl (arithmetic_comm_of_bigDecimal hop hleft hright hkind ha hb hzero)
    · simp only [not_or, not_not] at hzero
      exact .inr ⟨hkind, hop.resolve_right hzero.1, hzero.2⟩
  · exact .inl (hsame.eq hkind)

/-- 64-bit integers have the low bits of the result that integers of any size have. -/
theorem arithmetic_eq_lowBits (hop : op ≠ .div) (hkind : Conversion.of left right = .long)
    (ha : Conversion.long.number? left = some a) (hb : Conversion.long.number? right = some b)
    {first second : Value} (hkind' : Conversion.of first second = .bigInteger)
    (ha' : Conversion.bigInteger.number? first = some a)
    (hb' : Conversion.bigInteger.number? second = some b) :
    heap.arithmetic op left right = (heap.arithmetic op first second).map Value.lowBits := by
  have hlong := Conversion.admits_left hkind (.inl rfl) nofun
  have hlong' := Conversion.admits_right hkind (.inl rfl) nofun
  have hinteger := Conversion.admits_left hkind' (.inr (.inl rfl)) nofun
  have hinteger' := Conversion.admits_right hkind' (.inr (.inl rfl)) nofun
  obtain ⟨n, hn, rfl⟩ := (reads_toInt64 heap hlong).exists_ok ha
  obtain ⟨m, hm, rfl⟩ := (reads_toInt64 heap hlong').exists_ok hb
  obtain ⟨i, hi, hin⟩ := (reads_toInteger heap hinteger).exists_ok ha'
  obtain ⟨j, hj, hjm⟩ := (reads_toInteger heap hinteger').exists_ok hb'
  rw [Int.cast_inj] at hin hjm
  rw [arithmetic, arithmetic, Arithmetic.conversion_of_ne_div hop,
    Arithmetic.conversion_of_ne_div hop, hkind, hkind', hn, hm, hi, hj, hin, hjm]
  exact Arithmetic.onLongs_eq_lowBits hop n m

/-- Arithmetic on operands that are not floating-point numbers is exact.  Sums and products do not
depend on the order of the operands, up to the scale of a sum of decimal zeros, and 64-bit integers
have the low bits of the results of integers of any size. -/
theorem applyBinary_exact (heap : Heap) (op : Arithmetic) (hop : op ≠ .div) (left right : Value)
    (hleft : left.isFloating = false) (hright : right.isFloating = false)
    (hexact : (Conversion.of left right).IsExact) :
    let kind := Conversion.of left right
    let answer := heap.applyBinary op.operator left right
    kind.Answers heap op left right answer ∧
    ∀ a b, kind.number? left = some a → kind.number? right = some b →
      (op = .add ∨ op = .mul →
        kind.SameNumber answer (heap.applyBinary op.operator right left) ∧
        (answer = heap.applyBinary op.operator right left ∨
          kind = .bigDecimal ∧ op = .add ∧ a = 0 ∧ b = 0)) ∧
      (kind = .long → ∀ first second, Conversion.of first second = .bigInteger →
        Conversion.bigInteger.number? first = some a →
        Conversion.bigInteger.number? second = some b →
        answer = (heap.applyBinary op.operator first second).map Value.lowBits) := by
  simp only [applyBinary_operator]
  refine ⟨arithmetic_answers heap hop hleft hright hexact, fun a b ha hb => ⟨fun hcomm => ?_, ?_⟩⟩
  · exact arithmetic_swap hcomm hleft hright hexact ha hb
  · intro hkind first second hkind' ha' hb'
    rw [hkind] at ha hb
    exact arithmetic_eq_lowBits hop hkind ha hb hkind' ha' hb'

/-- The least 64-bit integer and text that is minus one. -/
theorem applyBinary_exact_least :
    let heap : Heap := .empty
    let least : Value := .long Int64.minValue
    Conversion.long.Computes (-2 ^ 63) (-1) .mod (heap.applyBinary .mod least (.string "-1")) ∧
      heap.applyBinary .mod least (.string "-1") = .ok (.long 0) ∧
      heap.applyBinary .mul least (.string "-1") =
        (heap.applyBinary .mul (.bigInteger (-2 ^ 63)) (.bigInteger (-1))).map Value.lowBits := by
  intro heap least
  have hleft : Conversion.long.number? least = some (-2 ^ 63) := by
    have hvalue : Int64.minValue.toInt = -2 ^ 63 := rfl
    rw [Conversion.number?, hvalue]
    norm_num
  have hright : Conversion.long.number? (.string "-1") = some (-1) := by
    have hread : readIntWithin? Int64.minValue.toInt Int64.maxValue.toInt "-1".toList =
        some (-1) := by decide
    have htext : Conversion.long.textNumber? "-1" = some ((-1 : Int) : ℚ) := by
      rw [Conversion.textNumber?, hread]
      rfl
    change (if "-1".isEmpty then some 0 else Conversion.long.textNumber? "-1") = _
    rw [if_neg (by decide), htext]
    norm_num
  obtain ⟨hanswers, -⟩ :=
    applyBinary_exact heap .mod (by decide) least (.string "-1") rfl rfl (.inl rfl)
  obtain ⟨-, hnumbers⟩ :=
    applyBinary_exact heap .mul (by decide) least (.string "-1") rfl rfl (.inl rfl)
  refine ⟨hanswers.computes _ _ hleft hright, rfl, ?_⟩
  refine (hnumbers _ _ hleft hright).2 rfl (.bigInteger (-2 ^ 63)) (.bigInteger (-1)) rfl ?_ ?_
  · rw [Conversion.number?]
    norm_num
  · rw [Conversion.number?]
    norm_num

end Heap
end ExprLang
