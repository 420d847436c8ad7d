import ExprLang.Proofs.Operator.Exactness
import ExprLang.Proofs.Operator.Symmetry

/-!
# Faults of operators

An operator converts its operands to one kind of number, to truth values or to constants of one
enumeration, the left operand before the right one, and answers from what they were converted to.
So it fails in few ways: an operand does not convert, and the fault names that operand as it was
given; a divisor is zero; or two operands have no order.
-/

namespace ExprLang

/-!
## What operators ask of operands
-/

/-- What an operator converts its operands to. -/
inductive Demand
  | nothing
  | number (kind : Conversion)
  | truth
  | constant (type : EnumType)

/-- The demand of a comparison that is carried out on numbers. -/
def Comparand.demand? : Comparand → Option Demand
  | bigDecimal => some (.number .bigDecimal)
  | bigInteger => some (.number .bigInteger)
  | double => some (.number .double)
  | long => some (.number .long)
  | text | other => none

/-- The demand of an equality of operands that are not compared as numbers: a truth value beside a
truth value, and beside a constant one of its enumeration, the left one's if both are constants. -/
def Demand.ofOthers : Value → Value → Demand
  | .bool _, _ | _, .bool _ => truth
  | .enum type _, _ => constant type
  | _, .enum type _ => constant type
  | _, _ => nothing

/-- What an operator asks of two operands.  Null is compared as it is. -/
def BinaryOp.demand (op : BinaryOp) (left right : Value) : Demand :=
  match op with
  | add | sub | mul | mod => .number (Conversion.of left right)
  | div => .number (Conversion.forDivision left right)
  | and | or => .truth
  | lt | ltEq | gt | gtEq =>
    if left.isNull || right.isNull then .nothing
    else (Comparand.of left right).demand?.getD .nothing
  | eq | notEq =>
    if left.isNull || right.isNull then .nothing
    else (Comparand.of left right).demand?.getD (.ofOthers left right)

namespace Heap

/-- Whether an operand converts to what is asked of it, or the fault if it does not. -/
def convertTo (heap : Heap) (demand : Demand) (value : Value) : Except EvalError Unit :=
  match demand with
  | .nothing | .number .zero => .ok ()
  | .number .bigDecimal => (heap.toDecimal value).map fun _ => ()
  | .number .bigInteger => (heap.toInteger value).map fun _ => ()
  | .number .double => (heap.toBinary64 value).map fun _ => ()
  | .number .long => (heap.toInt64 value).map fun _ => ()
  | .truth => (heap.toBool value).map fun _ => ()
  | .constant type => (heap.coerce .empty value (.enum type)).map fun _ => ()

/-- The value converts to zero in one of the kinds of exact numbers. -/
def IsZero (heap : Heap) (kind : Conversion) (value : Value) : Prop :=
  match kind with
  | .long => heap.toInt64 value = .ok 0
  | .bigInteger => heap.toInteger value = .ok 0
  | .bigDecimal => ∃ d : Decimal, heap.toDecimal value = .ok d ∧ d.toRat = 0
  | .zero | .double => False

/-- The left operand of a logical operator is its answer. -/
def Decides (heap : Heap) (op : BinaryOp) (left : Value) : Prop :=
  op = .and ∧ heap.toBool left = .ok false ∨ op = .or ∧ heap.toBool left = .ok true

/-!
## Faults
-/

/-- The faults of an operator on operands that convert. -/
inductive FailsConverted (heap : Heap) (op : BinaryOp) (left right : Value) : EvalError → Prop
  | divisionByZero : op = .div → Conversion.forDivision left right = .bigDecimal →
      heap.IsZero .bigDecimal right →
      FailsConverted heap op left right (.of .divisionByZero)
  | moduloByZero : op = .mod → heap.IsZero (Conversion.of left right) right →
      FailsConverted heap op left right (.of .moduloByZero)
  | notComparable : op.isRelational → left.isNull = false → right.isNull = false →
      Comparand.of left right = .other → compareOther? left right = none →
      FailsConverted heap op left right
        (.of (.notComparable op (heap.typeName left) (heap.typeName right)))

/-- The faults of an operator: that of the first operand that does not convert, and otherwise one
of operands that do. -/
inductive Fails (heap : Heap) (op : BinaryOp) (left right : Value) : EvalError → Prop
  | left {target : String} :
      heap.convertTo (op.demand left right) left = .error (heap.cannotConvert left target) →
      Fails heap op left right (heap.cannotConvert left target)
  | right {target : String} :
      heap.convertTo (op.demand left right) left = .ok () → ¬ heap.Decides op left →
      heap.convertTo (op.demand left right) right = .error (heap.cannotConvert right target) →
      Fails heap op left right (heap.cannotConvert right target)
  | converted {error : EvalError} :
      heap.convertTo (op.demand left right) left = .ok () →
      heap.convertTo (op.demand left right) right = .ok () →
      heap.FailsConverted op left right error → Fails heap op left right error

/-!
## Operands that are blamed
-/

/-- If the answer is a fault, it says that the value does not convert. -/
def Blames {α : Type} (heap : Heap) (value : Value) (answer : Except EvalError α) : Prop :=
  ∀ error, answer = .error error → ∃ target, error = heap.cannotConvert value target

section Blames

variable {α β : Type} {heap : Heap} {value : Value}

theorem blames_ok (a : α) : heap.Blames value (.ok a) := by
  intro error h
  cases h

theorem blames_cannotConvert (target : String) :
    heap.Blames value (.error (heap.cannotConvert value target) : Except EvalError α) := by
  intro error h
  cases h
  exact ⟨target, rfl⟩

theorem blames_orCannotConvert (target : String) (found : Option α) :
    heap.Blames value (heap.orCannotConvert value target found) := by
  cases found with
  | none => exact blames_cannotConvert target
  | some a => exact blames_ok a

theorem Blames.map {answer : Except EvalError α} (h : heap.Blames value answer) (f : α → β) :
    heap.Blames value (answer.map f) := by
  cases answer with
  | error error =>
      intro other hother
      cases hother
      exact h error rfl
  | ok a => exact blames_ok (f a)

/-- A number that stands for empty text or a character always converts, so that a fault never names
it. -/
theorem blames_toOperand {kind : Conversion} {zero : α} {read : String → Option α}
    {convert : Number → Option α} (hintegral : ∀ n : Int64, (convert (.integral n)).isSome) :
    heap.Blames value (heap.toOperand kind zero read convert value) := by
  have hinteger (named : Value) (n : Int64) :
      heap.Blames value (heap.orCannotConvert named kind.name (convert (.integral n))) := by
    obtain ⟨a, ha⟩ := Option.isSome_iff_exists.mp (hintegral n)
    rw [ha]
    exact blames_ok a
  cases value with
  | null => exact blames_ok zero
  | string s =>
      rw [toOperand_string]
      split
      · exact hinteger (.long 0) 0
      · exact blames_orCannotConvert _ _
  | char c => exact hinteger (.short (codeUnit c)) _
  | bool | enum | classRef | list | set | map | array | bean | lambda =>
      exact blames_cannotConvert _
  | _ => exact blames_orCannotConvert _ _

theorem toBinary64_eq_toOperand : heap.toBinary64 value =
    heap.toOperand .double Binary.zero (fun s => Binary.readLenient? _ s.toList)
      (fun number => some number.toBinary64) value := by
  unfold toBinary64 toOperand
  congr 1
  funext value
  cases value <;> rfl

theorem blames_toBool : heap.Blames value (heap.toBool value) := by
  cases value with
  | null | bool | string => exact blames_ok _
  | _ => exact blames_cannotConvert _

theorem blames_coerce_enum (type : EnumType) :
    heap.Blames value (heap.coerce .empty value (.enum type)) := by
  unfold coerce toEnum
  dsimp only
  split
  · exact blames_ok _
  · split
    · split
      · exact blames_ok _
      · exact blames_orCannotConvert _ _
    · split
      · exact blames_ok _
      · exact blames_orCannotConvert _ _
    · exact blames_orCannotConvert _ _

theorem blames_convertTo (demand : Demand) : heap.Blames value (heap.convertTo demand value) := by
  cases demand with
  | nothing => exact blames_ok ()
  | number kind =>
      cases kind with
      | zero => exact blames_ok ()
      | bigDecimal =>
          apply Blames.map
          rw [toDecimal_eq_toOperand]
          exact blames_toOperand fun _ => rfl
      | bigInteger =>
          apply Blames.map
          rw [toInteger_eq_toOperand]
          exact blames_toOperand fun _ => rfl
      | double =>
          apply Blames.map
          rw [toBinary64_eq_toOperand]
          exact blames_toOperand fun _ => rfl
      | long =>
          apply Blames.map
          rw [toInt64_eq_toOperand]
          exact blames_toOperand fun _ => rfl
  | truth => exact blames_toBool.map _
  | constant type => exact (blames_coerce_enum type).map _

end Blames

/-!
## Operands in turn
-/

/-- An answer from two operands that are converted in turn; the last argument holds of its faults
once both are converted. -/
inductive Asks {α : Type} (heap : Heap) (demand : Demand) (left right : Value)
    (fails : EvalError → Prop) : Except EvalError α → Prop
  | left {error : EvalError} : heap.convertTo demand left = .error error →
      Asks heap demand left right fails (.error error)
  | right {error : EvalError} : heap.convertTo demand left = .ok () →
      heap.convertTo demand right = .error error → Asks heap demand left right fails (.error error)
  | converted {answer : Except EvalError α} : heap.convertTo demand left = .ok () →
      heap.convertTo demand right = .ok () →
      (∀ error, answer = .error error ↔ fails error) → Asks heap demand left right fails answer

section Asks

variable {α β : Type} {heap : Heap} {demand : Demand} {left right : Value}
  {fails : EvalError → Prop}

theorem Asks.map {answer : Except EvalError α} (h : heap.Asks demand left right fails answer)
    (f : α → β) : heap.Asks demand left right fails (answer.map f) := by
  cases h with
  | left hleft => exact .left hleft
  | right hleft hright => exact .right hleft hright
  | converted hleft hright hfails =>
      refine .converted hleft hright fun error => ?_
      rw [← hfails]
      cases answer with
      | error other => exact ⟨fun h => by cases h; rfl, fun h => by cases h; rfl⟩
      | ok a => exact ⟨nofun, nofun⟩

theorem Asks.of_convert {convert : Value → Except EvalError α} {next : α → α → Except EvalError β}
    (hconvert : ∀ value, heap.convertTo demand value = (convert value).map fun _ => ())
    (hnext : ∀ a b, convert left = .ok a → convert right = .ok b →
      ∀ error, next a b = .error error ↔ fails error) :
    heap.Asks demand left right fails (do next (← convert left) (← convert right)) := by
  cases hleft : convert left with
  | error error =>
      apply Asks.left
      rw [hconvert, hleft]
      rfl
  | ok a =>
      have hleft' : heap.convertTo demand left = .ok () := by
        rw [hconvert, hleft]
        rfl
      cases hright : convert right with
      | error error =>
          apply Asks.right hleft'
          rw [hconvert, hright]
          rfl
      | ok b =>
          refine .converted hleft' ?_ (hnext a b hleft hright)
          rw [hconvert, hright]
          rfl

/-- Operands that are converted and then only compared. -/
theorem Asks.of_total {convert : Value → Except EvalError α} (f : α → α → β)
    (hconvert : ∀ value, heap.convertTo demand value = (convert value).map fun _ => ())
    (hfails : ∀ error, ¬ fails error) :
    heap.Asks demand left right fails (do return f (← convert left) (← convert right)) :=
  .of_convert hconvert fun _ _ _ _ error => iff_of_false nofun (hfails error)

/-- An answer from the left operand, beside a right one that is what is asked for. -/
theorem Asks.of_left {answer : Except EvalError α} (f : α → β)
    (hleft : heap.convertTo demand left = answer.map fun _ => ())
    (hright : heap.convertTo demand right = .ok ()) (hfails : ∀ error, ¬ fails error) :
    heap.Asks demand left right fails (answer.map f) := by
  cases answer with
  | error error => exact .left hleft
  | ok a => exact .converted hleft hright fun error => iff_of_false nofun (hfails error)

theorem Asks.of_right {answer : Except EvalError α} (f : α → β)
    (hleft : heap.convertTo demand left = .ok ())
    (hright : heap.convertTo demand right = answer.map fun _ => ())
    (hfails : ∀ error, ¬ fails error) : heap.Asks demand left right fails (answer.map f) := by
  cases answer with
  | error error => exact .right hleft hright
  | ok a => exact .converted hleft hright fun error => iff_of_false nofun (hfails error)

end Asks

/-!
## Arithmetic
-/

section Arithmetic

variable {heap : Heap} {left right : Value} {error : EvalError}

theorem forDivision_ne_bigInteger (left right : Value) :
    Conversion.forDivision left right ≠ .bigInteger := by
  unfold Conversion.forDivision
  cases Conversion.of left right <;> exact nofun

theorem demand_operator (op : Arithmetic) :
    op.operator.demand left right = .number (op.conversion left right) := by
  cases op <;> rfl

theorem failsConverted_operator_iff (op : Arithmetic) :
    heap.FailsConverted op.operator left right error ↔
      (op = .div ∧ op.conversion left right = .bigDecimal ∧ heap.IsZero .bigDecimal right ∧
        error = .of .divisionByZero) ∨
      (op = .mod ∧ heap.IsZero (op.conversion left right) right ∧
        error = .of .moduloByZero) := by
  constructor
  · intro h
    cases h with
    | divisionByZero hop hkind hzero =>
        cases op <;> cases hop
        exact .inl ⟨rfl, hkind, hzero, rfl⟩
    | moduloByZero hop hzero =>
        cases op <;> cases hop
        exact .inr ⟨rfl, hzero, rfl⟩
    | notComparable hop => cases op <;> cases hop
  · rintro (⟨rfl, hkind, hzero, rfl⟩ | ⟨rfl, hzero, rfl⟩)
    · exact .divisionByZero rfl hkind hzero
    · exact .moduloByZero rfl hzero

theorem onDecimals_eq_error_iff (op : Arithmetic) (a b : Decimal) :
    op.onDecimals a b = .error error ↔
      (op = .div ∧ b.toRat = 0 ∧ error = .of .divisionByZero) ∨
      (op = .mod ∧ b.toRat = 0 ∧ error = .of .moduloByZero) := by
  rw [Decimal.toRat_eq_zero_iff]
  cases op <;> unfold Arithmetic.onDecimals <;> grind

theorem onIntegers_eq_error_iff {op : Arithmetic} (hop : op ≠ .div) (a b : Int) :
    op.onIntegers a b = .error error ↔ op = .mod ∧ b = 0 ∧ error = .of .moduloByZero := by
  cases op <;> unfold Arithmetic.onIntegers <;> grind

theorem onLongs_eq_error_iff (op : Arithmetic) (a b : Int64) :
    op.onLongs a b = .error error ↔ op = .mod ∧ b = 0 ∧ error = .of .moduloByZero := by
  cases op <;> unfold Arithmetic.onLongs <;> grind

theorem asks_arithmetic (heap : Heap) (op : Arithmetic) (left right : Value) :
    heap.Asks (op.operator.demand left right) left right
      (heap.FailsConverted op.operator left right) (heap.arithmetic op left right) := by
  rw [demand_operator]
  unfold arithmetic
  cases hkind : op.conversion left right with
  | zero =>
      refine .converted rfl rfl fun error => iff_of_false nofun ?_
      rw [failsConverted_operator_iff, hkind]
      rintro (⟨-, hne, -⟩ | ⟨-, hzero, -⟩)
      · cases hne
      · exact hzero
  | bigDecimal =>
      refine .of_convert (fun _ => rfl) fun a b _ hb error => ?_
      have hzero : heap.IsZero .bigDecimal right ↔ b.toRat = 0 := by simp [IsZero, hb]
      rw [failsConverted_operator_iff, hkind, onDecimals_eq_error_iff, hzero]
      simp
  | bigInteger =>
      have hop : op ≠ .div := by
        rintro rfl
        exact forDivision_ne_bigInteger left right hkind
      refine .of_convert (fun _ => rfl) fun a b _ hb error => ?_
      have hzero : heap.IsZero .bigInteger right ↔ b = 0 := by simp [IsZero, hb]
      rw [failsConverted_operator_iff, hkind, onIntegers_eq_error_iff hop, hzero]
      simp
  | double =>
      refine .of_total _ (fun _ => rfl) fun error => ?_
      rw [failsConverted_operator_iff, hkind]
      rintro (⟨-, hne, -⟩ | ⟨-, hzero, -⟩)
      · cases hne
      · exact hzero
  | long =>
      refine .of_convert (fun _ => rfl) fun a b _ hb error => ?_
      have hzero : heap.IsZero .long right ↔ b = 0 := by simp [IsZero, hb]
      rw [failsConverted_operator_iff, hkind, onLongs_eq_error_iff, hzero]
      simp

end Arithmetic

/-!
## Comparisons
-/

section Comparison

variable {heap : Heap} {op : BinaryOp} {left right : Value} {error : EvalError}

theorem failsConverted_relational_iff (hop : op.isRelational) :
    heap.FailsConverted op left right error ↔
      left.isNull = false ∧ right.isNull = false ∧ Comparand.of left right = .other ∧
        compareOther? left right = none ∧
        error = .of (.notComparable op (heap.typeName left) (heap.typeName right)) := by
  constructor
  · intro h
    cases h with
    | divisionByZero hdiv => cases hdiv; cases hop
    | moduloByZero hmod => cases hmod; cases hop
    | notComparable _ hleft hright hkind hother => exact ⟨hleft, hright, hkind, hother, rfl⟩
  · rintro ⟨hleft, hright, hkind, hother, rfl⟩
    exact .notComparable hop hleft hright hkind hother

theorem demand_relational (hop : op.isRelational) : op.demand left right =
    if left.isNull || right.isNull then .nothing
    else (Comparand.of left right).demand?.getD .nothing := by
  cases op <;> first | rfl | cases hop

theorem asks_compare (heap : Heap) (hop : op.isRelational) (left right : Value) :
    heap.Asks (op.demand left right) left right (heap.FailsConverted op left right)
      (heap.compare op left right) := by
  have hordered (h : Comparand.of left right ≠ .other) (error : EvalError) :
      ¬ heap.FailsConverted op left right error := by
    rw [failsConverted_relational_iff hop]
    rintro ⟨-, -, hkind, -⟩
    exact h hkind
  rw [demand_relational hop]
  unfold compare
  split
  · rename_i hnull
    refine .converted rfl rfl fun error => iff_of_false nofun ?_
    rw [failsConverted_relational_iff hop]
    rintro ⟨hleft, hright, -⟩
    rw [hleft, hright] at hnull
    cases hnull
  · rename_i hnull
    cases hkind : Comparand.of left right with
    | bigDecimal => exact .of_total _ (fun _ => rfl) (hordered (hkind ▸ nofun))
    | bigInteger => exact .of_total _ (fun _ => rfl) (hordered (hkind ▸ nofun))
    | double => exact .of_total _ (fun _ => rfl) (hordered (hkind ▸ nofun))
    | long => exact .of_total _ (fun _ => rfl) (hordered (hkind ▸ nofun))
    | text =>
        exact .converted rfl rfl fun error => iff_of_false nofun (hordered (hkind ▸ nofun) error)
    | other =>
        refine .converted rfl rfl fun error => ?_
        rw [Bool.or_eq_true, not_or, Bool.not_eq_true, Bool.not_eq_true] at hnull
        rw [failsConverted_relational_iff hop, and_iff_right hnull.1, and_iff_right hnull.2,
          and_iff_right hkind]
        cases compareOther? left right with
        | none => simp [eq_comm]
        | some order => simp

/-- An equality operator answers for all operands that convert. -/
theorem not_failsConverted_equality (hop : op = .eq ∨ op = .notEq) (error : EvalError) :
    ¬ heap.FailsConverted op left right error := by
  rcases hop with rfl | rfl
  · rintro ⟨⟩ <;> contradiction
  · rintro ⟨⟩ <;> contradiction

theorem demand_equality (hop : op = .eq ∨ op = .notEq) : op.demand left right =
    if left.isNull || right.isNull then .nothing
    else (Comparand.of left right).demand?.getD (.ofOthers left right) := by
  rcases hop with rfl | rfl <;> rfl

theorem convertTo_own (type : EnumType) (ordinal : Nat) :
    heap.convertTo (.constant type) (.enum type ordinal) = .ok () := by
  have hcoerce : heap.coerce .empty (.enum type ordinal) (.enum type) = .ok (.enum type ordinal) :=
    if_pos rfl
  rw [convertTo, hcoerce]
  rfl

theorem ofOthers_bool (h : (∃ b, left = .bool b) ∨ ∃ b, right = .bool b) :
    Demand.ofOthers left right = .truth := by
  rcases h with ⟨b, rfl⟩ | ⟨b, rfl⟩
  · rfl
  · cases left <;> rfl

variable {fails : EvalError → Prop}

/-- A constant has its own type, so only the other operand can fail to convert. -/
theorem asks_equalsOther_left {type : EnumType} {ordinal : Nat} (hfails : ∀ error, ¬ fails error)
    (hright : ∀ b, right ≠ .bool b) :
    heap.Asks (.ofOthers (.enum type ordinal) right) (.enum type ordinal) right fails
      (heap.equalsOther (.enum type ordinal) right) := by
  have hdemand : Demand.ofOthers (.enum type ordinal) right = .constant type := by
    cases right with
    | bool b => exact absurd rfl (hright b)
    | _ => rfl
  have hequals : heap.equalsOther (.enum type ordinal) right =
      (heap.coerce .empty right (.enum type)).map fun other =>
        heap.equal other (.enum type ordinal) := by
    cases right with
    | bool b => exact absurd rfl (hright b)
    | _ => rfl
  rw [hdemand, hequals]
  exact .of_right _ (convertTo_own type ordinal) rfl hfails

theorem asks_equalsOther_right {type : EnumType} {ordinal : Nat} (hfails : ∀ error, ¬ fails error)
    (hleft : left.isTruthOrConstant = false) :
    heap.Asks (.ofOthers left (.enum type ordinal)) left (.enum type ordinal) fails
      (heap.equalsOther left (.enum type ordinal)) := by
  have hdemand : Demand.ofOthers left (.enum type ordinal) = .constant type := by
    cases left with
    | bool | enum => cases hleft
    | _ => rfl
  have hequals : heap.equalsOther left (.enum type ordinal) =
      (heap.coerce .empty left (.enum type)).map fun other =>
        heap.equal other (.enum type ordinal) := by
    cases left with
    | bool | enum => cases hleft
    | _ => rfl
  rw [hdemand, hequals]
  exact .of_left _ rfl (convertTo_own type ordinal) hfails

theorem ofOthers_of_natural (hleft : left.isTruthOrConstant = false)
    (hright : right.isTruthOrConstant = false) : Demand.ofOthers left right = .nothing := by
  unfold Demand.ofOthers
  split
  · cases hleft
  · cases hright
  · cases hleft
  · cases hright
  · rfl

theorem asks_equalsOther (hfails : ∀ error, ¬ fails error) :
    heap.Asks (.ofOthers left right) left right fails (heap.equalsOther left right) := by
  by_cases hbool : (∃ b, left = .bool b) ∨ ∃ b, right = .bool b
  · rw [ofOthers_bool hbool, equalsOther_bool hbool]
    exact .of_total _ (fun _ => rfl) hfails
  · rw [not_or] at hbool
    by_cases hleft : left.isTruthOrConstant
    · cases left with
      | enum type ordinal => exact asks_equalsOther_left hfails fun b hb => hbool.2 ⟨b, hb⟩
      | bool b => exact absurd ⟨b, rfl⟩ hbool.1
      | _ => cases hleft
    · rw [Bool.not_eq_true] at hleft
      by_cases hright : right.isTruthOrConstant
      · cases right with
        | enum type ordinal => exact asks_equalsOther_right hfails hleft
        | bool b => exact absurd ⟨b, rfl⟩ hbool.2
        | _ => cases hright
      · rw [Bool.not_eq_true] at hright
        have hanswers : ∃ truth, heap.equalsOther left right = .ok truth := by
          by_cases htext : left.isText ∨ right.isText
          · exact ⟨_, equalsOther_of_text hleft hright htext⟩
          · exact ⟨_, equalsOther_of_natural hleft hright htext⟩
        obtain ⟨truth, htruth⟩ := hanswers
        rw [ofOthers_of_natural hleft hright, htruth]
        exact .converted rfl rfl fun error => iff_of_false nofun (hfails error)

theorem asks_equals (heap : Heap) (hop : op = .eq ∨ op = .notEq) (left right : Value) :
    heap.Asks (op.demand left right) left right (heap.FailsConverted op left right)
      (heap.equals left right) := by
  have hfails : ∀ error, ¬ heap.FailsConverted op left right error :=
    not_failsConverted_equality hop
  rw [demand_equality hop]
  unfold equals
  split
  · exact .converted rfl rfl fun error => iff_of_false nofun (hfails error)
  · cases Comparand.of left right with
    | bigDecimal => exact .of_total _ (fun _ => rfl) hfails
    | bigInteger => exact .of_total _ (fun _ => rfl) hfails
    | double => exact .of_total _ (fun _ => rfl) hfails
    | long => exact .of_total _ (fun _ => rfl) hfails
    | text | other => exact asks_equalsOther hfails

end Comparison

/-!
## All operators
-/

section Operators

variable {heap : Heap} {op : BinaryOp} {left right : Value} {error : EvalError}

theorem not_failsConverted_logical (hop : op.isLogical) (error : EvalError) :
    ¬ heap.FailsConverted op left right error := by
  rintro (⟨hdiv⟩ | ⟨hmod⟩ | ⟨hrelational⟩)
  · cases hdiv; cases hop
  · cases hmod; cases hop
  · cases op <;> first | cases hop; done | cases hrelational

theorem fails_iff : heap.Fails op left right error ↔
    heap.convertTo (op.demand left right) left = .error error ∨
      (heap.convertTo (op.demand left right) left = .ok () ∧
        ((¬ heap.Decides op left ∧
            heap.convertTo (op.demand left right) right = .error error) ∨
          (heap.convertTo (op.demand left right) right = .ok () ∧
            heap.FailsConverted op left right error))) := by
  constructor
  · intro h
    cases h with
    | left hleft => exact .inl hleft
    | right hleft hdecides hright => exact .inr ⟨hleft, .inl ⟨hdecides, hright⟩⟩
    | converted hleft hright hfails => exact .inr ⟨hleft, .inr ⟨hright, hfails⟩⟩
  · rintro (hleft | ⟨hleft, ⟨hdecides, hright⟩ | ⟨hright, hfails⟩⟩)
    · obtain ⟨target, rfl⟩ := blames_convertTo _ error hleft
      exact .left hleft
    · obtain ⟨target, rfl⟩ := blames_convertTo _ error hright
      exact .right hleft hdecides hright
    · exact .converted hleft hright hfails

theorem Asks.error_iff (hop : op.isLogical = false) {answer : Except EvalError Value}
    (h : heap.Asks (op.demand left right) left right (heap.FailsConverted op left right) answer) :
    answer = .error error ↔ heap.Fails op left right error := by
  have hdecides : ¬ heap.Decides op left := by
    rintro (⟨rfl, -⟩ | ⟨rfl, -⟩) <;> cases hop
  rw [fails_iff, and_iff_right hdecides]
  cases h with
  | left hleft => simp [hleft]
  | right hleft hright => simp [hleft, hright]
  | converted hleft hright hfails => simp [hleft, hright, hfails]

/-- A logical operator asks for the truth of the right operand if the left one does not decide. -/
theorem applyBinary_logical_error_iff (hop : op.isLogical) :
    heap.applyBinary op left right = .error error ↔ heap.Fails op left right error := by
  have hdemand : op.demand left right = .truth := by
    cases op <;> first | rfl | cases hop
  have hnone : ¬ heap.FailsConverted op left right error := not_failsConverted_logical hop error
  rw [fails_iff, hdemand]
  simp only [convertTo, Decides, hnone, and_false, or_false]
  cases op with
  | and | or =>
      unfold applyBinary
      cases heap.toBool left with
      | error first => simp [Except.map, bind, Except.bind]
      | ok truth =>
          cases truth <;> cases heap.toBool right <;>
            simp [Except.map, bind, Except.bind, pure, Except.pure]
  | _ => cases hop

theorem exists_applyBinary_relational (heap : Heap) (left right : Value) (hop : op.isRelational) :
    ∃ f : Option Ordering → Value,
      heap.applyBinary op left right = (heap.compare op left right).map f := by
  have hmap {op : BinaryOp} (f : Option Ordering → Value) :
      (do return f (← heap.compare op left right)) = (heap.compare op left right).map f := by
    cases heap.compare op left right <;> rfl
  cases op with
  | lt => exact ⟨_, hmap fun order => .bool (order == some .lt)⟩
  | ltEq => exact ⟨_, hmap fun order => .bool (order == some .lt || order == some .eq)⟩
  | gt => exact ⟨_, hmap fun order => .bool (order == some .gt)⟩
  | gtEq => exact ⟨_, hmap fun order => .bool (order == some .gt || order == some .eq)⟩
  | _ => cases hop

theorem applyBinary_relational_error_iff (hop : op.isRelational) :
    heap.applyBinary op left right = .error error ↔ heap.Fails op left right error := by
  have hlogical : op.isLogical = false := by
    cases op <;> first | rfl | cases hop
  obtain ⟨f, hf⟩ := exists_applyBinary_relational heap left right hop
  rw [hf]
  exact ((asks_compare heap hop left right).map f).error_iff hlogical

theorem applyBinary_error_iff :
    heap.applyBinary op left right = .error error ↔ heap.Fails op left right error := by
  cases op with
  | add => exact (asks_arithmetic heap .add left right).error_iff rfl
  | sub => exact (asks_arithmetic heap .sub left right).error_iff rfl
  | mul => exact (asks_arithmetic heap .mul left right).error_iff rfl
  | div => exact (asks_arithmetic heap .div left right).error_iff rfl
  | mod => exact (asks_arithmetic heap .mod left right).error_iff rfl
  | eq =>
      rw [applyBinary_eq]
      exact ((asks_equals heap (.inl rfl) left right).map _).error_iff rfl
  | notEq =>
      rw [applyBinary_notEq]
      exact ((asks_equals heap (.inr rfl) left right).map _).error_iff rfl
  | lt | ltEq | gt | gtEq => exact applyBinary_relational_error_iff rfl
  | and | or => exact applyBinary_logical_error_iff rfl

/-- An operator fails in the declared ways and no others, and of operands that both do not convert
the left one is named. -/
theorem applyBinary_fails_declared (heap : Heap) (op : BinaryOp) (left right : Value) :
    (∀ error, heap.applyBinary op left right = .error error ↔ heap.Fails op left right error) ∧
      ∀ first second, heap.convertTo (op.demand left right) left = .error first →
        heap.convertTo (op.demand left right) right = .error second →
        ∃ target, first = heap.cannotConvert left target ∧
          heap.applyBinary op left right = .error first := by
  constructor
  · exact fun error => applyBinary_error_iff
  · intro first second hleft _
    obtain ⟨target, rfl⟩ := blames_convertTo _ first hleft
    exact ⟨target, rfl, applyBinary_error_iff.mpr (.left hleft)⟩

/-- Neither operand of the difference is a number; the divisor of the remainder is empty text. -/
theorem difference_names_left_operand :
    let heap : Heap := .empty
    heap.applyBinary .sub (.string "x") (.bool true) =
        .error (.of (.cannotConvert "x" "String" "Long")) ∧
      heap.applyBinary .mod (.bigInteger 5) (.string "") = .error (.of .moduloByZero) := by
  intro heap
  have hleft : heap.convertTo (BinaryOp.sub.demand (.string "x") (.bool true)) (.string "x") =
      .error (heap.cannotConvert (.string "x") "Long") := by decide
  have hright : heap.convertTo (BinaryOp.sub.demand (.string "x") (.bool true)) (.bool true) =
      .error (heap.cannotConvert (.bool true) "Long") := rfl
  rcases (applyBinary_fails_declared heap .sub _ _).2 _ _ hleft hright with ⟨target, -, hfault⟩
  have hzero : heap.Fails .mod (.bigInteger 5) (.string "") (.of .moduloByZero) :=
    .converted rfl rfl (.moduloByZero rfl rfl)
  exact ⟨hfault, ((applyBinary_fails_declared heap .mod _ _).1 _).mpr hzero⟩

end Operators

end Heap
end ExprLang
