import Mathlib.Tactic.Common
import ExprLang.Coercion

/-!
# Conversions that fail

Without converters a conversion fails for one reason only: the value does not convert.
-/

namespace ExprLang

/-- If the answer is an error, it says that a value does not convert. -/
def FailsToConvert {α : Type} (answer : Except EvalError α) : Prop :=
  ∀ error, answer = .error error → error.category = .cannotConvert

namespace FailsToConvert

variable {α β : Type} {heap : Heap} {value : Value}

theorem ok (a : α) : FailsToConvert (.ok a) := by
  intro error h
  cases h

theorem cannotConvert (heap : Heap) (value : Value) (target : String) :
    FailsToConvert (.error (heap.cannotConvert value target) : Except EvalError α) := by
  intro error h
  cases h
  rfl

theorem orCannotConvert (heap : Heap) (value : Value) (target : String) (found : Option α) :
    FailsToConvert (heap.orCannotConvert value target found) := by
  cases found with
  | none => exact cannotConvert heap value target
  | some a => exact ok a

theorem bind {answer : Except EvalError α} {next : α → Except EvalError β}
    (h : FailsToConvert answer) (hnext : ∀ a, FailsToConvert (next a)) :
    FailsToConvert (answer >>= next) := by
  cases answer with
  | error error =>
      intro other hother
      cases hother
      exact h error rfl
  | ok a => exact hnext a

theorem map {answer : Except EvalError α} (h : FailsToConvert answer) (f : α → β) :
    FailsToConvert (f <$> answer) := by
  cases answer with
  | error error =>
      intro other hother
      cases hother
      exact h error rfl
  | ok a => exact ok (f a)

/-!
## Scalars
-/

theorem toBool : FailsToConvert (heap.toBool value) := by
  cases value with
  | null | bool | string => exact ok _
  | _ => exact cannotConvert heap _ _

theorem toChar : FailsToConvert (heap.toChar value) := by
  unfold Heap.toChar
  split
  · exact ok _
  · exact ok _
  · exact ok _
  · exact orCannotConvert heap _ _ _

theorem numeric (target : String) : FailsToConvert (heap.numeric value target) := by
  cases value with
  | bool => exact cannotConvert heap _ _
  | _ => exact ok _

theorem toNumeric (kind : Primitive) : FailsToConvert (heap.toNumeric value kind) := by
  apply bind (numeric _)
  intro number
  split
  · exact ok _
  · exact orCannotConvert heap _ _ _

theorem toInteger : FailsToConvert (heap.toInteger value) := by
  apply bind (numeric _)
  intro number
  split
  · exact ok _
  · exact orCannotConvert heap _ _ _
  · exact orCannotConvert heap _ _ _

theorem toDecimal : FailsToConvert (heap.toDecimal value) := by
  apply bind (numeric _)
  intro number
  split
  · exact ok _
  · exact orCannotConvert heap _ _ _
  · exact orCannotConvert heap _ _ _

theorem toPrimitive (kind : Primitive) : FailsToConvert (heap.toPrimitive value kind) := by
  cases kind with
  | boolean => exact map toBool _
  | char => exact map toChar _
  | byte | short | int | long | float | double => exact toNumeric _

/-!
## References
-/

theorem toEnum (type : EnumType) : FailsToConvert (heap.toEnum value type) := by
  unfold Heap.toEnum
  split
  · split
    · exact ok _
    · exact orCannotConvert heap _ _ _
  · split
    · exact ok _
    · exact orCannotConvert heap _ _ _
  · exact orCannotConvert heap _ _ _

theorem toInstance (className : String) :
    FailsToConvert (heap.toInstance .empty value className) := by
  unfold Heap.toInstance
  split
  · exact ok _
  · split
    · change FailsToConvert (if _ then _ else _)
      split
      · exact ok _
      · exact cannotConvert heap _ _
    · exact cannotConvert heap _ _

theorem coerce (type : ValueType) : FailsToConvert (heap.coerce .empty value type) := by
  have hnull {answer : Except EvalError Value} (h : FailsToConvert answer) (other : Value) :
      FailsToConvert (if value.isNull then .ok other else answer) := by
    split
    · exact ok other
    · exact h
  cases type with
  | void => exact cannotConvert heap _ _
  | any | string => exact ok _
  | primitive kind | boxed kind => exact hnull (toPrimitive kind) _
  | bigInteger => exact hnull (map toInteger _) _
  | bigDecimal => exact hnull (map toDecimal _) _
  | enum enumType => exact hnull (toEnum enumType) _
  | named className => exact hnull (toInstance className) _
  | list | set | map | array | lambda =>
      apply hnull
      split
      · exact ok _
      · exact cannotConvert heap _ _

end FailsToConvert
end ExprLang
