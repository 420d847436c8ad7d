import Mathlib.Tactic.Common
import ExprLang.Coercion

/-!
# Conversion as a projection

A value conforms to a type if the type has nothing to change about it.  Values that conform
convert to themselves, and without converters whatever a conversion answers conforms.  So a
conversion is a projection onto the values that conform to its target.
-/

namespace ExprLang

/-- What null becomes in a type; no value is of type `void`. -/
def ValueType.ofNull? : ValueType → Option Value
  | .void => none
  | .primitive kind => some kind.zero
  | .string => some (.string "")
  | _ => some .null

/-- The type is named by the host: an enumeration or a class. -/
def ValueType.IsNamed : ValueType → Prop
  | .enum _ | .named _ => True
  | _ => False

/-- The value is a constant of an enumeration with the name. -/
def Value.IsConstantOf (name : String) : Value → Prop
  | .enum type _ => type.name = name
  | _ => False

/-- If the value is of an enumeration, it is one of its constants. -/
def Value.IsListed : Value → Prop
  | .enum type ordinal => ordinal < type.constants.length
  | _ => True

namespace Heap

/-- The value is of the type as it stands. -/
def Conforms (heap : Heap) (value : Value) : ValueType → Prop
  | .void => False
  | .any => True
  | .primitive kind => heap.typeOf value = .boxed kind
  | .string => heap.typeOf value = .string
  | .enum type => value = .null ∨ value.IsConstantOf type.name
  | .named className => value = .null ∨ heap.isInstance value className
  | type => value = .null ∨ heap.typeOf value = type

variable {heap : Heap} {converters : Converters} {value result : Value} {type : ValueType}
  {kind : Primitive}

/-!
## Values that conform are fixed
-/

theorem toNumeric_of_typeOf (hnumeric : kind.isNumeric) (htype : heap.typeOf value = .boxed kind) :
    heap.toNumeric value kind = .ok value := by
  have hkept : heap.numeric value kind.boxedName = .ok value := by
    cases value with
    | bool => cases htype; cases hnumeric
    | char => cases htype; cases hnumeric
    | string => cases htype
    | _ => rfl
  unfold toNumeric
  rw [hkept]
  change (if heap.typeOf value = .boxed kind then Except.ok value else _) = _
  rw [if_pos htype]

theorem toPrimitive_of_typeOf (htype : heap.typeOf value = .boxed kind) :
    heap.toPrimitive value kind = .ok value := by
  cases kind with
  | boolean => cases value <;> cases htype; rfl
  | char => cases value <;> cases htype; rfl
  | byte | short | int | long | float | double => exact toNumeric_of_typeOf rfl htype

/-- A value that conforms converts to itself, whatever converters there are. -/
theorem coerce_of_conforms (h : heap.Conforms value type) :
    heap.coerce converters value type = .ok value := by
  cases type with
  | void => cases h
  | any => rfl
  | primitive kind =>
      have htype : heap.typeOf value = .boxed kind := h
      cases value with
      | null => cases htype
      | _ => exact toPrimitive_of_typeOf htype
  | boxed kind =>
      rcases h with rfl | htype
      · rfl
      · cases value with
        | null => rfl
        | _ => exact toPrimitive_of_typeOf htype
  | string =>
      have htype : heap.typeOf value = .string := h
      cases value <;> cases htype
      rfl
  | enum enumType =>
      rcases h with rfl | hconstant
      · rfl
      · cases value with
        | enum other ordinal =>
            have hname : other.name = enumType.name := hconstant
            change (if other.name = enumType.name then Except.ok _ else _) = _
            rw [if_pos hname]
        | _ => cases hconstant
  | named className =>
      rcases h with rfl | hinstance
      · rfl
      · unfold coerce toInstance
        dsimp only
        rw [if_pos hinstance]
        split
        · cases value <;> first | rfl | contradiction
        · rfl
  | bigInteger | bigDecimal | list | set | map | array | lambda =>
      rcases h with rfl | htype
      · rfl
      · cases value <;> cases htype
        rfl

/-!
## What a conversion answers conforms
-/

theorem typeOf_zero (kind : Primitive) : heap.typeOf kind.zero = .boxed kind := by
  cases kind <;> rfl

theorem orCannotConvert_eq_ok {α : Type} {target : String} {found : Option α} {a : α} :
    heap.orCannotConvert value target found = .ok a ↔ found = some a := by
  cases found <;> simp [orCannotConvert]

theorem typeOf_readPrimitive {text : String} (h : readPrimitive? kind text = some result) :
    heap.typeOf result = .boxed kind := by
  cases kind with
  | boolean | char => cases h
  | _ =>
      obtain ⟨_, _, rfl⟩ := Option.map_eq_some_iff.mp h
      rfl

theorem typeOf_ofNumber {number : Number} (h : ofNumber? kind number = some result) :
    heap.typeOf result = .boxed kind := by
  cases kind <;> cases h <;> rfl

theorem typeOf_of_toNumeric (h : heap.toNumeric value kind = .ok result) :
    heap.typeOf result = .boxed kind := by
  unfold toNumeric at h
  cases hnumeric : heap.numeric value kind.boxedName with
  | error error => rw [hnumeric] at h; cases h
  | ok number =>
      rw [hnumeric] at h
      simp only [bind, Except.bind] at h
      split at h
      · rename_i htype
        cases h
        exact htype
      · have hfound := orCannotConvert_eq_ok.mp h
        split at hfound
        · exact typeOf_readPrimitive hfound
        · obtain ⟨number, _, hnumber⟩ := Option.bind_eq_some_iff.mp hfound
          exact typeOf_ofNumber hnumber

theorem map_eq_ok {α β : Type} {f : α → β} {answer : Except EvalError α} {b : β}
    (h : f <$> answer = .ok b) : ∃ a, answer = .ok a ∧ f a = b := by
  cases answer with
  | error error => cases h
  | ok a =>
      cases h
      exact ⟨a, rfl, rfl⟩

theorem typeOf_of_toPrimitive (h : heap.toPrimitive value kind = .ok result) :
    heap.typeOf result = .boxed kind := by
  cases kind with
  | boolean | char =>
      obtain ⟨_, _, rfl⟩ := map_eq_ok h
      rfl
  | byte | short | int | long | float | double => exact typeOf_of_toNumeric h

theorem constant_of_named {enumType : EnumType} {text : String}
    (h : heap.orCannotConvert value enumType.name (enumType.value? text) = .ok result) :
    result.IsConstantOf enumType.name ∧ result.IsListed := by
  obtain ⟨ordinal, hordinal, rfl⟩ := Option.map_eq_some_iff.mp (orCannotConvert_eq_ok.mp h)
  constructor
  · rfl
  · exact (List.findIdx?_eq_some_iff_findIdx_eq.mp hordinal).1

/-- An enumeration answers null for empty text only; else a constant of the same name, which
is the value itself or is among its own. -/
theorem toEnum_eq_ok {enumType : EnumType} (h : heap.toEnum value enumType = .ok result) :
    (value = .string "" ∧ result = .null) ∨
      (result.IsConstantOf enumType.name ∧ (result = value ∨ result.IsListed)) := by
  unfold toEnum at h
  split at h
  · split at h
    · rename_i hname
      cases h
      exact Or.inr ⟨hname, Or.inl rfl⟩
    · have hnamed := constant_of_named h
      exact Or.inr ⟨hnamed.1, Or.inr hnamed.2⟩
  · split at h
    · rename_i text hempty
      cases h
      rw [String.isEmpty_iff] at hempty
      exact Or.inl ⟨congrArg _ hempty, rfl⟩
    · have hnamed := constant_of_named h
      exact Or.inr ⟨hnamed.1, Or.inr hnamed.2⟩
  · have hnamed := constant_of_named h
    exact Or.inr ⟨hnamed.1, Or.inr hnamed.2⟩

theorem toInstance_eq_ok {className : String}
    (h : heap.toInstance .empty value className = .ok result) :
    (value = .string "" ∧ result = .null) ∨
      (result = value ∧ heap.isInstance value className) := by
  unfold toInstance at h
  split at h
  · rename_i hinstance
    cases h
    exact Or.inr ⟨rfl, hinstance⟩
  · split at h
    · rename_i text
      have hnone : Converters.converter? .empty className = none := rfl
      rw [hnone] at h
      dsimp only at h
      split at h
      · rename_i hempty
        cases h
        rw [String.isEmpty_iff] at hempty
        exact Or.inl ⟨congrArg _ hempty, rfl⟩
      · cases h
    · cases h

theorem coerce_null (type : ValueType) :
    heap.coerce converters .null type =
      match type.ofNull? with
      | some value => .ok value
      | none => .error (heap.cannotConvert .null "void") := by
  cases type <;> rfl

theorem conforms_ofNull (h : type.ofNull? = some result) : heap.Conforms result type := by
  cases type with
  | void => cases h
  | any => trivial
  | primitive kind =>
      cases h
      exact typeOf_zero kind
  | string =>
      cases h
      rfl
  | _ =>
      cases h
      exact Or.inl rfl

theorem isListed_ofNull (h : type.ofNull? = some result) : result.IsListed := by
  cases type with
  | primitive kind => cases h; cases kind <;> trivial
  | _ => cases h <;> trivial

theorem of_typeOf_boxed (htype : heap.typeOf result = .boxed kind) :
    result ≠ .null ∧ result.IsListed := by
  cases result <;> cases htype <;> exact ⟨Value.noConfusion, trivial⟩

/-- A value that is not null becomes null only if it is empty text and the type is named;
otherwise it becomes a value that conforms and is not null. -/
theorem coerce_of_ne_null (hvalue : value ≠ .null)
    (h : heap.coerce .empty value type = .ok result) :
    (value = .string "" ∧ result = .null ∧ type.IsNamed) ∨
      (result ≠ .null ∧ heap.Conforms result type ∧ (value.IsListed → result.IsListed)) := by
  have hnull : ¬ value.isNull := by
    intro hnull
    cases value <;> first | exact hvalue rfl | cases hnull
  cases type with
  | void => cases h
  | any =>
      cases h
      exact Or.inr ⟨hvalue, trivial, id⟩
  | primitive kind =>
      have htype := typeOf_of_toPrimitive (by simpa only [coerce, if_neg hnull] using h)
      have hresult := of_typeOf_boxed htype
      exact Or.inr ⟨hresult.1, htype, fun _ => hresult.2⟩
  | boxed kind =>
      have htype := typeOf_of_toPrimitive (by simpa only [coerce, if_neg hnull] using h)
      have hresult := of_typeOf_boxed htype
      exact Or.inr ⟨hresult.1, Or.inr htype, fun _ => hresult.2⟩
  | string =>
      cases h
      exact Or.inr ⟨Value.noConfusion, rfl, fun _ => trivial⟩
  | enum enumType =>
      rcases toEnum_eq_ok (by simpa only [coerce, if_neg hnull] using h) with
        ⟨hempty, hresult⟩ | ⟨hconstant, hlisted⟩
      · exact Or.inl ⟨hempty, hresult, trivial⟩
      · refine Or.inr ⟨?_, Or.inr hconstant, ?_⟩
        · intro hresult
          rw [hresult] at hconstant
          exact hconstant
        · intro hvalue
          rcases hlisted with hsame | hlisted
          · exact hsame ▸ hvalue
          · exact hlisted
  | named className =>
      rcases toInstance_eq_ok (by simpa only [coerce, if_neg hnull] using h) with
        ⟨hempty, hresult⟩ | ⟨hsame, hinstance⟩
      · exact Or.inl ⟨hempty, hresult, trivial⟩
      · subst hsame
        exact Or.inr ⟨hvalue, Or.inr hinstance, id⟩
  | bigInteger | bigDecimal =>
      simp only [coerce, if_neg hnull] at h
      obtain ⟨_, _, rfl⟩ := map_eq_ok h
      exact Or.inr ⟨Value.noConfusion, Or.inr rfl, fun _ => trivial⟩
  | list | set | map | array | lambda =>
      simp only [coerce, if_neg hnull] at h
      split at h
      · cases h
        refine Or.inr ⟨hvalue, Or.inr ?_, id⟩
        cases value <;> first | rfl | contradiction
      · cases h

/-- Without converters, what a conversion answers conforms to its target. -/
theorem conforms_of_coerce (h : heap.coerce .empty value type = .ok result) :
    heap.Conforms result type := by
  by_cases hvalue : value = .null
  · rw [hvalue, coerce_null] at h
    split at h
    · rename_i answer hanswer
      cases h
      exact conforms_ofNull hanswer
    · cases h
  · rcases coerce_of_ne_null hvalue h with ⟨-, rfl, hnamed⟩ | ⟨-, hconforms, -⟩
    · cases type <;> first | exact Or.inl rfl | cases hnamed
    · exact hconforms

/-- Without converters conversion is a projection: null has one answer for each type, an error
for `void` alone, and whatever is answered conforms to the type and converts to itself.  It is
the value itself for `Object`, a constant that its enumeration lists if the value was not one
already, and null for a value that is not null only where empty text meets a named type. -/
theorem coerce_projects (heap : Heap) (value : Value) (type : ValueType) :
    (heap.coerce .empty .null type =
      match type.ofNull? with
      | some answer => .ok answer
      | none => .error (heap.cannotConvert .null "void")) ∧
    ∀ result, heap.coerce .empty value type = .ok result →
      heap.Conforms result type ∧
      heap.coerce .empty result type = .ok result ∧
      (type = .any → result = value) ∧
      (value.IsListed → result.IsListed) ∧
      (value ≠ .null → result = .null → value = .string "" ∧ type.IsNamed) := by
  constructor
  · exact coerce_null type
  · intro result hresult
    have hany : type = .any → result = value := by
      rintro rfl
      cases hresult
      rfl
    by_cases hvalue : value = .null
    · subst hvalue
      have hnull : type.ofNull? = some result := by
        rw [coerce_null] at hresult
        split at hresult
        · rename_i answer hanswer
          cases hresult
          exact hanswer
        · cases hresult
      have hconforms : heap.Conforms result type := conforms_ofNull hnull
      exact ⟨hconforms, coerce_of_conforms hconforms, hany, fun _ => isListed_ofNull hnull,
        fun hne => absurd rfl hne⟩
    · rcases coerce_of_ne_null hvalue hresult with
        ⟨hempty, hnull, hnamed⟩ | ⟨hne, hconforms, hlisted⟩
      · have hconforms : heap.Conforms result type := by
          subst hnull
          cases type <;> first | exact Or.inl rfl | cases hnamed
        refine ⟨hconforms, coerce_of_conforms hconforms, hany, ?_, fun _ _ => ⟨hempty, hnamed⟩⟩
        intro _
        rw [hnull]
        trivial
      · exact ⟨hconforms, coerce_of_conforms hconforms, hany, hlisted,
          fun _ hnull => absurd hnull hne⟩

theorem constant_name_projects :
    let heap : Heap := .empty
    let colour : EnumType := ⟨"Colour", ["GREEN", "RED"]⟩
    heap.coerce .empty (.string "RED") (.enum colour) = .ok (.enum colour 1) ∧
      heap.Conforms (.enum colour 1) (.enum colour) ∧
      heap.coerce .empty (.enum colour 1) (.enum colour) = .ok (.enum colour 1) := by
  intro heap colour
  have hred : heap.coerce .empty (.string "RED") (.enum colour) = .ok (.enum colour 1) := rfl
  have hprojects := (coerce_projects heap (.string "RED") (.enum colour)).2 _ hred
  exact ⟨hred, hprojects.1, hprojects.2.1⟩

end Heap
end ExprLang
