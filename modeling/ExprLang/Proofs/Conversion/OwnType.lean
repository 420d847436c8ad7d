import ExprLang.Proofs.Conversion.Projection

/-!
# Conversion to the type of the value itself

A value conforms to its own type, so conversion to that type leaves it as it is, with one
exception.  Two simple names stand for groups of values instead of one class.  A bean whose class
goes by such a name, in whatever package, is asked whether it belongs to the group, and no bean
does.
-/

namespace ExprLang

/-- The simple names that stand for a group of values: the numbers, and the values in order. -/
def Text.groupNames : List String := ["Number", "Comparable"]

theorem Text.mem_groupNames_iff {name : String} :
    name ∈ groupNames ↔ name = "Number" ∨ name = "Comparable" := by
  simp [groupNames]

namespace Heap

/-- The value is a bean of a class with the simple name of a group. -/
def IsGroupNamesake (heap : Heap) : Value → Prop
  | .bean r => Text.simpleName (heap.object r).className ∈ Text.groupNames
  | _ => False

variable {heap : Heap} {converters : Converters} {value : Value} {className : String}

/-- Outside the groups a value is an instance of the class that its type names. -/
theorem isInstance_of_typeName (hname : heap.typeName value = className)
    (hgroup : Text.simpleName className ∉ Text.groupNames) :
    heap.isInstance value className := by
  rw [Text.mem_groupNames_iff, not_or] at hgroup
  unfold isInstance
  dsimp only
  rw [if_neg hgroup.1, if_neg hgroup.2, hname, decide_eq_true rfl, Bool.or_true]

theorem isInstance_of_isGroupNamesake (h : heap.IsGroupNamesake value) :
    heap.isInstance value (heap.typeName value) = false := by
  cases value with
  | bean r =>
      have hgroup : Text.simpleName (heap.object r).className ∈ Text.groupNames := h
      rw [Text.mem_groupNames_iff] at hgroup
      unfold isInstance typeName
      rcases hgroup with hnumber | hcomparable
      · rw [hnumber]
        rfl
      · rw [hcomparable]
        rfl
  | _ => cases h

theorem conforms_typeOf (h : ¬ heap.IsGroupNamesake value) :
    heap.Conforms value (heap.typeOf value) := by
  cases value with
  | null => trivial
  | string => rfl
  | enum type ordinal => exact Or.inr rfl
  | classRef name number => exact Or.inr (isInstance_of_typeName rfl (by decide))
  | bean r => exact Or.inr (isInstance_of_typeName rfl h)
  | _ => exact Or.inr rfl

theorem coerce_typeOf_of_isGroupNamesake (h : heap.IsGroupNamesake value) :
    heap.coerce converters value (heap.typeOf value) =
      .error (heap.cannotConvert value (heap.typeName value)) := by
  have hinstance := isInstance_of_isGroupNamesake h
  cases value with
  | bean r =>
      change heap.toInstance converters (.bean r) (heap.typeName (.bean r)) = _
      unfold toInstance
      rw [hinstance]
      rfl
  | _ => cases h

/-- Conversion to its own type leaves a value as it is unless the value is a bean of a class with
the simple name of a group; such a bean is said not to convert.  Converters are not asked. -/
theorem coerce_typeOf (heap : Heap) (converters : Converters) (value : Value) :
    (heap.coerce converters value (heap.typeOf value) = .ok value ↔
        ¬ heap.IsGroupNamesake value) ∧
      (heap.IsGroupNamesake value →
        heap.coerce converters value (heap.typeOf value) =
          .error (heap.cannotConvert value (heap.typeName value))) := by
  constructor
  · constructor
    · intro hok hgroup
      rw [coerce_typeOf_of_isGroupNamesake hgroup] at hok
      cases hok
    · intro hgroup
      exact coerce_of_conforms (conforms_typeOf hgroup)
  · exact coerce_typeOf_of_isGroupNamesake

/-- A heap with one bean, which has no properties. -/
def oneBean (className : String) : Heap where
  sequences := #[]
  maps := #[]
  objects := #[⟨className, [], .empty⟩]
  closures := #[]

/-- A class in a package, with a converter that refuses every text. -/
theorem coerce_typeOf_order :
    let heap := oneBean "shop.Order"
    let converters : Converters := .ofList [("Order", fun _ => .error (.of (.custom "unread")))]
    heap.coerce converters (.bean 0) (heap.typeOf (.bean 0)) = .ok (.bean 0) := by
  intro heap converters
  refine (coerce_typeOf heap converters (.bean 0)).1.mpr ?_
  change Text.simpleName "shop.Order" ∉ Text.groupNames
  decide

/-- A bean of a class `Number` in a package of its own does not convert to its own class. -/
theorem coerce_typeOf_number :
    let heap := oneBean "shop.Number"
    heap.typeOf (.bean 0) = .named "shop.Number" ∧
      heap.coerce .empty (.bean 0) (heap.typeOf (.bean 0)) =
        .error (.of (.cannotConvert "shop.Number{}" "shop.Number" "shop.Number")) := by
  intro heap
  have hgroup : heap.IsGroupNamesake (.bean 0) := by
    change Text.simpleName "shop.Number" ∈ Text.groupNames
    decide
  exact ⟨rfl, coerce_typeOf_of_isGroupNamesake hgroup⟩

end Heap
end ExprLang
