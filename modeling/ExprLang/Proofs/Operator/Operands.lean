import ExprLang.Coercion
import ExprLang.Operator.Arithmetic
import ExprLang.Proofs.Number.Decimal

/-!
# Operands as numbers

An operand that is not a floating-point number counts as a rational number in each kind of
numbers that arithmetic is exact in.  It is converted to that number, or it is refused.
-/

namespace ExprLang

/-!
## The number of an operand
-/

namespace Conversion

/-- The kinds of number without rounding. -/
def IsExact (kind : Conversion) : Prop := kind = long ∨ kind = bigInteger ∨ kind = bigDecimal

/-- The number that text is read as. -/
def textNumber? (kind : Conversion) (text : String) : Option ℚ :=
  match kind with
  | long =>
    (readIntWithin? Int64.minValue.toInt Int64.maxValue.toInt text.toList).map ((↑) : Int → ℚ)
  | bigInteger => (readBigInt? text.toList).map ((↑) : Int → ℚ)
  | bigDecimal => (Decimal.read? (Text.trim text.toList)).map Decimal.toRat
  | zero | double => none

/-- The number that an operand counts as: of a character its code unit with a sign, of empty
text zero. -/
def number? (kind : Conversion) : Value → Option ℚ
  | .byte n => some n.toInt
  | .short n => some n.toInt
  | .int n => some n.toInt
  | .long n => some n.toInt
  | .bigInteger n => some n
  | .bigDecimal d => some d.toRat
  | .char c => some ((c.toNat : Int).bmod (2 ^ 16))
  | .string s => if s.isEmpty then some 0 else kind.textNumber? s
  | _ => none

end Conversion

/-!
## Kinds of operands
-/

namespace Conversion

/-- An operand that a kind of exact numbers has room for. -/
structure Admits (kind : Conversion) (value : Value) : Prop where
  not_null : value.isNull = false
  not_floating : value.isFloating = false
  integer : value.isBigInteger → kind ≠ long
  decimal : value.isBigDecimal → kind = bigDecimal

variable {kind : Conversion} {left right : Value}

theorem of_comm (left right : Value) : of left right = of right left := by
  unfold of
  grind

theorem admits_left (hkind : of left right = kind) (hexact : kind.IsExact)
    (hfloating : kind = bigDecimal → left.isFloating = false) : kind.Admits left := by
  subst hkind
  constructor <;> unfold of IsExact at * <;> grind

theorem admits_right (hkind : of left right = kind) (hexact : kind.IsExact)
    (hfloating : kind = bigDecimal → right.isFloating = false) : kind.Admits right :=
  admits_left (of_comm right left ▸ hkind) hexact hfloating

end Conversion

/-!
## Conversion of operands
-/

/-- The conversion of an operand to a kind: to its number, or refused. -/
def Conversion.Reads {α : Type} (kind : Conversion) (heap : Heap) (number : α → ℚ)
    (value : Value) (answer : Except EvalError α) : Prop :=
  answer.map number = heap.orCannotConvert value kind.name (kind.number? value)

namespace Conversion.Reads

variable {α : Type} {kind : Conversion} {heap : Heap} {number : α → ℚ} {value : Value}
  {answer : Except EvalError α}

theorem exists_ok (h : kind.Reads heap number value answer) {x : ℚ}
    (hx : kind.number? value = some x) : ∃ a, answer = .ok a ∧ number a = x := by
  rw [Reads, hx] at h
  cases answer with
  | error => cases h
  | ok a => exact ⟨a, rfl, Except.ok.inj h⟩

theorem eq_error (h : kind.Reads heap number value answer) (hx : kind.number? value = none) :
    answer = .error (heap.cannotConvert value kind.name) := by
  rw [Reads, hx] at h
  cases answer with
  | error => exact congrArg Except.error (Except.error.inj h)
  | ok => cases h

end Conversion.Reads

/-- What the conversions to the three kinds have in common. -/
def Heap.toOperand {α : Type} (heap : Heap) (kind : Conversion) (zero : α)
    (read : String → Option α) (convert : Number → Option α) (value : Value) :
    Except EvalError α := do
  let value ← heap.numeric value kind.name
  match value with
  | .null => return zero
  | .string s => heap.orCannotConvert value kind.name (read s)
  | _ => heap.orCannotConvert value kind.name (Number.ofValue? value >>= convert)

namespace Heap

variable {heap : Heap} {value : Value}

theorem toInt64_eq_toOperand : heap.toInt64 value =
    heap.toOperand .long 0 readInt64? (fun number => some number.toInt64) value := by
  unfold toInt64 toOperand
  congr 1
  funext value
  cases value <;> rfl

theorem toInteger_eq_toOperand : heap.toInteger value =
    heap.toOperand .bigInteger 0 (fun s => readBigInt? s.toList)
      (fun number => some number.toInteger) value := by
  unfold toInteger toOperand
  congr 1
  funext value
  cases value <;> rfl

theorem toDecimal_eq_toOperand : heap.toDecimal value =
    heap.toOperand .bigDecimal (.ofInt 0) (fun s => Decimal.read? (Text.trim s.toList))
      Number.toDecimal? value := by
  unfold toDecimal toOperand
  congr 1

theorem toInt_codeUnit (c : Char) : (codeUnit c).toInt = (c.toNat : Int).bmod (2 ^ 16) :=
  Int16.toInt_ofNat'

section Operand

variable {α : Type} {kind : Conversion} {zero : α} {read : String → Option α}
  {convert : Number → Option α} {number : α → ℚ}

theorem toOperand_string (s : String) : heap.toOperand kind zero read convert (.string s) =
    if s.isEmpty then heap.orCannotConvert (.long 0) kind.name (convert (.integral 0))
    else heap.orCannotConvert (.string s) kind.name (read s) := by
  have hnumeric : heap.numeric (.string s) kind.name =
      .ok (if s.isEmpty then .long 0 else .string s) := rfl
  rw [toOperand, hnumeric]
  cases s.isEmpty <;> rfl

/-- An operand is converted to its number or refused. -/
theorem reads_toOperand (hread : ∀ s, (read s).map number = kind.textNumber? s)
    (hintegral : ∀ n : Int64, (convert (.integral n)).map number = some (n.toInt : ℚ))
    (hlarge : value.isBigInteger || value.isBigDecimal →
      (Number.ofValue? value >>= convert).map number = kind.number? value)
    (hnull : value.isNull = false) (hfloating : value.isFloating = false) :
    kind.Reads heap number value (heap.toOperand kind zero read convert value) := by
  have hfound : ∀ {found : Option α} {x : Option ℚ}, found.map number = x →
      (heap.orCannotConvert value kind.name found).map number =
        heap.orCannotConvert value kind.name x := by
    rintro found _ rfl
    cases found <;> rfl
  -- A converted integer is never refused, so it does not matter which value a fault would name.
  have hinteger : ∀ (named : Value) {n : Int64} {m : Int}, n.toInt = m →
      (heap.orCannotConvert named kind.name (convert (.integral n))).map number =
        .ok (m : ℚ) := by
    rintro named n _ rfl
    obtain ⟨a, ha, hnumber⟩ := Option.map_eq_some_iff.mp (hintegral n)
    rw [ha, ← hnumber]
    rfl
  cases value with
  | null => cases hnull
  | float | double => cases hfloating
  | string s =>
      rw [Conversion.Reads, toOperand_string, Conversion.number?]
      split
      · rw [hinteger (.long 0) Int64.toInt_zero, Int.cast_zero]
        rfl
      · exact hfound (hread s)
  | char c => exact hinteger (.short (codeUnit c)) (by rw [Int16.toInt_toInt64, toInt_codeUnit])
  | byte n => exact hinteger (.byte n) (Int8.toInt_toInt64 n)
  | short n => exact hinteger (.short n) (Int16.toInt_toInt64 n)
  | int n => exact hinteger (.int n) (Int32.toInt_toInt64 n)
  | long n => exact hinteger (.long n) rfl
  | bigInteger | bigDecimal => exact hfound (hlarge rfl)
  | _ => rfl

end Operand

theorem map_readInt64? (text : String) :
    (readInt64? text).map (fun n => (n.toInt : ℚ)) = Conversion.long.textNumber? text := by
  rw [readInt64?, Conversion.textNumber?, Option.map_map]
  refine Option.map_congr fun n hn => ?_
  simp only [readIntWithin?, Option.filter_eq_some_iff, Bool.and_eq_true, decide_eq_true_eq] at hn
  obtain ⟨-, hlow, hhigh⟩ := hn
  rw [Function.comp_apply, Int64.toInt_ofInt_of_le hlow (Int.lt_of_le_sub_one hhigh)]

theorem reads_toInt64 (heap : Heap) (h : Conversion.long.Admits value) :
    Conversion.long.Reads heap (fun n => (n.toInt : ℚ)) value (heap.toInt64 value) := by
  rw [toInt64_eq_toOperand]
  refine reads_toOperand map_readInt64? (fun _ => rfl) ?_ h.not_null h.not_floating
  intro hlarge
  cases (Bool.or_eq_true _ _).mp hlarge with
  | inl hinteger => exact absurd rfl (h.integer hinteger)
  | inr hdecimal => cases h.decimal hdecimal

theorem reads_toInteger (heap : Heap) (h : Conversion.bigInteger.Admits value) :
    Conversion.bigInteger.Reads heap ((↑) : Int → ℚ) value (heap.toInteger value) := by
  rw [toInteger_eq_toOperand]
  refine reads_toOperand (fun _ => rfl) (fun _ => rfl) ?_ h.not_null h.not_floating
  intro hlarge
  cases value with
  | bigInteger => rfl
  | bigDecimal => cases h.decimal rfl
  | _ => cases hlarge

theorem reads_toDecimal (heap : Heap) (h : Conversion.bigDecimal.Admits value) :
    Conversion.bigDecimal.Reads heap Decimal.toRat value (heap.toDecimal value) := by
  rw [toDecimal_eq_toOperand]
  refine reads_toOperand (fun _ => rfl) (fun n => ?_) ?_ h.not_null h.not_floating
  · exact congrArg some (Decimal.toRat_ofInt n.toInt)
  · intro hlarge
    cases value with
    | bigInteger n => exact congrArg some (Decimal.toRat_ofInt n)
    | bigDecimal => rfl
    | _ => cases hlarge

end Heap

end ExprLang
