import Mathlib.Data.Set.Function
import ExprLang.Proofs.Conversion.ReadText

/-!
# Conversion of scalars to text and back

A scalar without rounding is converted to its text, and the text is converted back to the scalar.
For a decimal this includes the scale, so that decimals of different scale differ in their texts,
though they may be the same number.
-/

namespace ExprLang

/-- The scale, and so the exponent of any digit, is far from the ends of 64 bits. -/
def Decimal.IsModest (d : Decimal) : Prop := d.scale.natAbs < 2 ^ 62

instance (d : Decimal) : Decidable d.IsModest := inferInstanceAs (Decidable (_ < _))

theorem Decimal.IsModest.read?_text {d : Decimal} (h : d.IsModest) :
    Decimal.read? (Text.trim d.text.toList) = some d := by
  have hlow : Decimal.scaleLow = -2 ^ 63 := rfl
  have hhigh : Decimal.scaleHigh = 2 ^ 63 - 1 := rfl
  unfold IsModest at h
  exact Decimal.read?_text (by omega) (by omega)

/-- Decimals of modest scale have different texts. -/
theorem Decimal.injOn_text : Set.InjOn Decimal.text {d | d.IsModest} := by
  intro d hd d' hd' htext
  have hread := IsModest.read?_text hd
  rw [htext, IsModest.read?_text hd'] at hread
  exact (Option.some_inj.mp hread).symm

/-- The value is a scalar that arithmetic does not round, or a truth value or a character. -/
def Value.IsExactScalar : Value → Prop
  | .bool _ | .char _ | .byte _ | .short _ | .int _ | .long _ | .bigInteger _ => True
  | .bigDecimal d => d.IsModest
  | _ => False

namespace Heap

variable {heap : Heap} {converters : Converters} {s : String} {value : Value} {type : ValueType}
  {kind : Primitive} {bits : Nat} {n : Int}

theorem IsInteger.hasRoom (h : heap.IsInteger kind n value) (hbits : kind.bits? = some bits) :
    HasRoom bits n := by
  have hfits := (integerPart_of_typeOf h.typeOf hbits h.number).2
  rw [integerPart_intCast] at hfits
  exact (hasRoom_iff (Primitive.bits_pos hbits)).mpr hfits

/-- A kind of integers reads the text of each of its values. -/
theorem IsInteger.coerce_intText (converters : Converters) (kind : Primitive)
    (h : heap.IsInteger kind n value) (hbits : kind.bits? = some bits) :
    heap.coerce converters (.string (intText n)) (heap.typeOf value) = .ok value := by
  rw [h.typeOf]
  exact (coerce_string_eq_ok_iff rfl hbits).mpr
    ⟨n, .inr (integerText_intText n), h.hasRoom hbits, h⟩

theorem coerce_string_bigInteger (h : readBigInt? s.toList = some n) :
    heap.coerce converters (.string s) .bigInteger = .ok (.bigInteger n) := by
  have hempty : s.isEmpty = false := String.isEmpty_eq_false_iff.mpr (by rintro rfl; cases h)
  change Value.bigInteger <$> heap.toInteger (.string s) = _
  rw [toInteger_eq_toOperand, toOperand_string, hempty, h]
  rfl

theorem coerce_string_bigDecimal {d : Decimal} (h : Decimal.read? (Text.trim s.toList) = some d) :
    heap.coerce converters (.string s) .bigDecimal = .ok (.bigDecimal d) := by
  have hempty : s.isEmpty = false := String.isEmpty_eq_false_iff.mpr (by rintro rfl; cases h)
  change Value.bigDecimal <$> heap.toDecimal (.string s) = _
  rw [toDecimal_eq_toOperand, toOperand_string, hempty, h]
  rfl

theorem exists_coerce_text_back (heap : Heap) (converters : Converters)
    (hvalue : value.IsExactScalar) :
    ∃ s, heap.coerce converters value .string = .ok (.string s) ∧
      heap.coerce converters (.string s) (heap.typeOf value) = .ok value := by
  cases value with
  | bool b =>
      have hread : readsTrue (if b then "true" else "false") = b := by cases b <;> decide
      exact ⟨_, rfl, congrArg (fun b => Except.ok (Value.bool b)) hread⟩
  | char c =>
      have hread : (String.singleton c).toList.headD '\x00' = c := by
        rw [String.toList_singleton]
        rfl
      exact ⟨_, rfl, congrArg (fun c => Except.ok (Value.char c)) hread⟩
  | byte n => exact ⟨_, rfl, IsInteger.coerce_intText converters .byte ⟨rfl, rfl⟩ rfl⟩
  | short n => exact ⟨_, rfl, IsInteger.coerce_intText converters .short ⟨rfl, rfl⟩ rfl⟩
  | int n => exact ⟨_, rfl, IsInteger.coerce_intText converters .int ⟨rfl, rfl⟩ rfl⟩
  | long n => exact ⟨_, rfl, IsInteger.coerce_intText converters .long ⟨rfl, rfl⟩ rfl⟩
  | bigInteger n => exact ⟨_, rfl, coerce_string_bigInteger (integerText_intText n).readBigInt?⟩
  | bigDecimal d => exact ⟨_, rfl, coerce_string_bigDecimal hvalue.read?_text⟩
  | _ => cases hvalue

/-- A scalar without rounding is converted to text, and from the text back to each type of the
scalar.  Decimals have different texts unless both integer and scale are the same. -/
theorem coerce_text_back (heap : Heap) (converters : Converters) :
    (∀ value : Value, value.IsExactScalar →
      ∃ s, heap.coerce converters value .string = .ok (.string s) ∧
        heap.coerce converters (.string s) (heap.typeOf value) = .ok value ∧
        ∀ kind, heap.typeOf value = .boxed kind →
          heap.coerce converters (.string s) (.primitive kind) = .ok value) ∧
    ∀ d d' : Decimal, d.IsModest → d'.IsModest → d.text = d'.text →
      d.unscaled = d'.unscaled ∧ d.scale = d'.scale := by
  constructor
  · intro value hvalue
    obtain ⟨s, htext, hback⟩ := exists_coerce_text_back heap converters hvalue
    refine ⟨s, htext, hback, fun kind hkind => ?_⟩
    -- Text is not null, so it is converted alike to a primitive type and to the boxed one.
    rw [hkind] at hback
    exact hback
  · intro d d' hd hd' htext
    rw [Decimal.injOn_text hd hd' htext]
    exact ⟨rfl, rfl⟩

/-- A decimal of negative scale goes through its text in scientific notation, and zeros of
different scale have different texts. -/
theorem coerce_text_back_scientific :
    let heap : Heap := .empty
    let value : Value := .bigDecimal ⟨120, -3⟩
    heap.coerce .empty value .string = .ok (.string "1.20E+5") ∧
      heap.coerce .empty (.string "1.20E+5") .bigDecimal = .ok value ∧
      Decimal.text ⟨0, 3⟩ ≠ Decimal.text ⟨0, 2⟩ := by
  intro heap value
  obtain ⟨hback, hinjective⟩ := coerce_text_back heap .empty
  have hmodest : Decimal.IsModest ⟨120, -3⟩ := by decide
  obtain ⟨s, hs, hvalue, -⟩ := hback value hmodest
  have htext : heap.coerce .empty value .string = .ok (.string "1.20E+5") := by decide
  cases hs.symm.trans htext
  refine ⟨htext, hvalue, fun hsame => ?_⟩
  exact absurd (hinjective ⟨0, 3⟩ ⟨0, 2⟩ (by decide) (by decide) hsame).2 (by decide)

end Heap

end ExprLang
