import ExprLang.Proofs.Equality.Equivalence
import ExprLang.Proofs.Operator.Agreement

/-!
# Equality of exchanged operands

Equality converts both operands to one kind, or one operand to the type of the other.  The first
does not depend on the order of the operands.  The second does where both are constants of
enumerations: the right one is looked up by its name among the constants of the left one's
enumeration, so that exchanged constants are looked up in another enumeration.
-/

namespace ExprLang

/-- Both answers are the same value, or both are errors. -/
inductive SameOutcome {α : Type} : Except EvalError α → Except EvalError α → Prop
  | ok (a : α) : SameOutcome (.ok a) (.ok a)
  | error (first second : EvalError) : SameOutcome (.error first) (.error second)

namespace SameOutcome

variable {α β : Type} {x y : Except EvalError α}

theorem refl (x : Except EvalError α) : SameOutcome x x := by
  cases x with
  | error error => exact .error error error
  | ok a => exact .ok a

theorem map_iff {f : α → β} (hf : Function.Injective f) :
    SameOutcome (x.map f) (y.map f) ↔ SameOutcome x y := by
  constructor
  · intro h
    cases x with
    | error first =>
        cases y with
        | error second => exact .error first second
        | ok b => cases h
    | ok a =>
        cases y with
        | error second => cases h
        | ok b =>
            have hab : SameOutcome (.ok (f a)) (.ok (f b)) := h
            generalize hb : f b = c at hab
            cases hab
            rw [hf hb]
            exact .ok a
  · intro h
    cases h with
    | ok a => exact .ok (f a)
    | error first second => exact .error first second

/-- Operands that are converted first, and compared by a relation without direction. -/
theorem of_convert {convert : Value → Except EvalError α} {same : α → α → Bool}
    (hsame : ∀ a b, same b a = same a b) (left right : Value) :
    SameOutcome (do return same (← convert left) (← convert right))
      (do return same (← convert right) (← convert left)) := by
  cases convert left with
  | error first =>
      cases convert right with
      | error second => exact .error first second
      | ok b => exact .error first first
  | ok a =>
      cases convert right with
      | error second => exact .error second second
      | ok b =>
          change SameOutcome (.ok (same a b)) (.ok (same b a))
          rw [hsame]
          exact .ok _

end SameOutcome

theorem Binary.equals_comm {f : BinaryFormat} (x y : Binary f) : y.equals x = x.equals y := by
  unfold equals compare?
  rw [Bool.or_comm]
  split
  · rfl
  · rw [Bool.eq_iff_iff, beq_iff_eq, beq_iff_eq, Option.some_inj, Option.some_inj,
      Std.compare_eq_iff_eq, Std.compare_eq_iff_eq]
    exact eq_comm

/-!
## Constants of enumerations
-/

/-- Whether the constant with a name is the one at a position; there may be none with the name. -/
def EnumType.hasAt? (type : EnumType) (ordinal : Nat) (constant : String) : Option Bool :=
  (type.ordinal? constant).map (· == ordinal)

/-- Constants of enumerations with different names, where the look-up of one in the enumeration of
the other does not come to the same as the look-up the other way round. -/
def Value.Discordant : Value → Value → Prop
  | .enum s i, .enum t j =>
    s.name ≠ t.name ∧ s.hasAt? i (t.constant j) ≠ t.hasAt? j (s.constant i)
  | _, _ => False

theorem Value.Discordant.exists_enum {left right : Value} (h : left.Discordant right) :
    (∃ s i, left = .enum s i) ∧ ∃ t j, right = .enum t j := by
  unfold Discordant at h
  split at h
  · exact ⟨⟨_, _, rfl⟩, ⟨_, _, rfl⟩⟩
  · cases h

theorem Value.matches_comm (a b : Value) : a.matches b = b.matches a :=
  Bool.eq_iff_iff.mpr ⟨matches_symm, matches_symm⟩

namespace Heap

variable {heap : Heap} {left right : Value}

/-- Values that are not both collections are equal without a look at parts. -/
theorem equal_eq_matches (h : left.place? = none ∨ right.place? = none) :
    heap.equal left right = left.matches right := by
  unfold equal
  rw [equalUpTo_succ]
  unfold equalWith
  split
  · rcases h with h | h <;> cases h
  · rcases h with h | h <;> cases h
  · rcases h with h | h <;> cases h
  · rfl

/-- Two collections have to be proper to be equal in both directions. -/
theorem equal_comm (h : left.place?.isSome → right.place?.isSome →
      heap.Proper left ∧ heap.Proper right) : heap.equal left right = heap.equal right left := by
  by_cases hleft : left.place?.isSome
  · by_cases hright : right.place?.isSome
    · have hproper := h hleft hright
      have hequal := heap.equal_isEquivalenceOn
      exact Bool.eq_iff_iff.mpr
        ⟨hequal.symm _ _ hproper.1 hproper.2, hequal.symm _ _ hproper.2 hproper.1⟩
    · rw [Option.not_isSome_iff_eq_none] at hright
      rw [equal_eq_matches (Or.inr hright), equal_eq_matches (Or.inl hright), Value.matches_comm]
  · rw [Option.not_isSome_iff_eq_none] at hleft
    rw [equal_eq_matches (Or.inl hleft), equal_eq_matches (Or.inr hleft), Value.matches_comm]

/-!
## Constants of enumerations
-/

theorem sameOutcome_orCannotConvert_iff {α : Type} {value other : Value} {target target' : String}
    {found found' : Option α} :
    SameOutcome (heap.orCannotConvert value target found)
      (heap.orCannotConvert other target' found') ↔ found = found' := by
  constructor
  · intro h
    cases found with
    | none =>
        cases found' with
        | none => rfl
        | some b => cases h
    | some a =>
        cases found' with
        | none => cases h
        | some b =>
            cases h
            rfl
  · rintro rfl
    cases found with
    | none => exact .error _ _
    | some a => exact .ok a

section Constants

variable {s t : EnumType} {i j : Nat}

theorem equalsOther_enum : heap.equalsOther (.enum s i) (.enum t j) =
    do return heap.equal (← heap.coerce .empty (.enum t j) (.enum s)) (.enum s i) := rfl

/-- The right constant is looked up in the enumeration of the left one. -/
theorem equalsOther_enum_of_name_ne (h : t.name ≠ s.name) :
    heap.equalsOther (.enum s i) (.enum t j) =
      heap.orCannotConvert (.enum t j) s.name (s.hasAt? i (t.constant j)) := by
  have hcoerce : heap.coerce .empty (.enum t j) (.enum s) =
      heap.orCannotConvert (.enum t j) s.name (s.value? (t.constant j)) := if_neg h
  rw [equalsOther_enum, hcoerce, EnumType.value?, EnumType.hasAt?]
  cases s.ordinal? (t.constant j) with
  | none => rfl
  | some k =>
      have hequal : heap.equal (.enum s k) (.enum s i) = (k == i) := by
        change decide (Value.enum s k = .enum s i) = (k == i)
        rw [beq_eq_decide]
        exact decide_eq_decide.mpr (by rw [Value.enum.injEq, and_iff_right rfl])
      exact congrArg Except.ok hequal

theorem equalsOther_enum_of_name_eq (h : t.name = s.name) :
    heap.equalsOther (.enum s i) (.enum t j) = .ok (heap.equal (.enum t j) (.enum s i)) := by
  have hcoerce : heap.coerce .empty (.enum t j) (.enum s) = .ok (.enum t j) := if_pos h
  rw [equalsOther_enum, hcoerce]
  rfl

theorem sameOutcome_enum_iff :
    SameOutcome (heap.equalsOther (.enum s i) (.enum t j))
        (heap.equalsOther (.enum t j) (.enum s i)) ↔
      ¬ Value.Discordant (.enum s i) (.enum t j) := by
  unfold Value.Discordant
  by_cases h : s.name = t.name
  · have hequal : heap.equal (.enum s i) (.enum t j) = heap.equal (.enum t j) (.enum s i) :=
      equal_comm fun hplace => Bool.noConfusion hplace
    rw [equalsOther_enum_of_name_eq h, equalsOther_enum_of_name_eq h.symm, hequal]
    exact iff_of_true (.refl _) fun hdiscordant => hdiscordant.1 h
  · rw [equalsOther_enum_of_name_ne h, equalsOther_enum_of_name_ne (Ne.symm h),
      sameOutcome_orCannotConvert_iff, not_and_not_right, imp_iff_right h]

end Constants

/-!
## All operands
-/

theorem equalsOther_bool (h : (∃ b, left = .bool b) ∨ ∃ b, right = .bool b) :
    heap.equalsOther left right = do return (← heap.toBool left) == (← heap.toBool right) := by
  rcases h with ⟨b, rfl⟩ | ⟨b, rfl⟩
  · rfl
  · cases left <;> rfl

/-- A constant has its own enumeration for the type to convert to on either side. -/
theorem equalsOther_enum_comm {type : EnumType} {ordinal : Nat}
    (h : right.isTruthOrConstant = false) :
    heap.equalsOther (.enum type ordinal) right = heap.equalsOther right (.enum type ordinal) := by
  cases right with
  | bool | enum => cases h
  | _ => rfl

theorem equalsOther_of_natural (hleft : left.isTruthOrConstant = false)
    (hright : right.isTruthOrConstant = false) (h : ¬ (left.isText ∨ right.isText)) :
    heap.equalsOther left right = .ok (heap.equal left right) := by
  rw [not_or] at h
  unfold equalsOther
  split
  · cases hleft
  · cases hright
  · cases hleft
  · cases hright
  · exact absurd rfl h.1
  · exact absurd rfl h.2
  · rfl

theorem equalsOther_comm (hproper : left.place?.isSome → right.place?.isSome →
      heap.Proper left ∧ heap.Proper right)
    (hleft : left.isTruthOrConstant = false) (hright : right.isTruthOrConstant = false) :
    heap.equalsOther left right = heap.equalsOther right left := by
  by_cases h : left.isText ∨ right.isText
  · rw [equalsOther_of_text hleft hright h, equalsOther_of_text hright hleft h.symm, BEq.comm]
  · rw [equalsOther_of_natural hleft hright h,
      equalsOther_of_natural hright hleft (mt Or.symm h), equal_comm hproper]

theorem sameOutcome_equalsOther_iff (hproper : left.place?.isSome → right.place?.isSome →
      heap.Proper left ∧ heap.Proper right) :
    SameOutcome (heap.equalsOther left right) (heap.equalsOther right left) ↔
      ¬ left.Discordant right := by
  have hsort (value : Value) : value.isTruthOrConstant = false ∨ (∃ b, value = .bool b) ∨
      ∃ type ordinal, value = .enum type ordinal := by
    cases value <;> simp [Value.isTruthOrConstant]
  by_cases hconstants : (∃ s i, left = .enum s i) ∧ ∃ t j, right = .enum t j
  · rcases hconstants with ⟨⟨s, i, rfl⟩, t, j, rfl⟩
    exact sameOutcome_enum_iff
  · refine iff_of_true ?_ (mt Value.Discordant.exists_enum hconstants)
    by_cases hbool : (∃ b, left = .bool b) ∨ ∃ b, right = .bool b
    · rw [equalsOther_bool hbool, equalsOther_bool hbool.symm]
      exact .of_convert (fun _ _ => BEq.comm) left right
    · rw [not_or] at hbool
      rcases hsort left with hleft | hleft | ⟨s, i, rfl⟩
      · rcases hsort right with hright | hright | ⟨t, j, rfl⟩
        · rw [equalsOther_comm hproper hleft hright]
          exact .refl _
        · exact absurd hright hbool.2
        · rw [equalsOther_enum_comm hleft]
          exact .refl _
      · exact absurd hleft hbool.1
      · rcases hsort right with hright | hright | hright
        · rw [equalsOther_enum_comm hright]
          exact .refl _
        · exact absurd hright hbool.2
        · exact absurd ⟨⟨s, i, rfl⟩, hright⟩ hconstants

/-- Operands that are compared as numbers of one kind. -/
theorem sameOutcome_equals_of_number (hleft : left.isNull = false) (hright : right.isNull = false)
    (htext : Comparand.of left right ≠ .text) (hother : Comparand.of left right ≠ .other) :
    SameOutcome (heap.equals left right) (heap.equals right left) := by
  unfold equals
  rw [hleft, hright, Comparand.of_comm right left]
  cases hkind : Comparand.of left right with
  | bigDecimal => exact .of_convert Decimal.equals_comm left right
  | bigInteger => exact .of_convert (fun _ _ => BEq.comm) left right
  | double => exact .of_convert Binary.equals_comm left right
  | long => exact .of_convert (fun _ _ => BEq.comm) left right
  | text => exact absurd hkind htext
  | other => exact absurd hkind hother

/-- Operands that are not compared as numbers. -/
theorem equals_eq_equalsOther (hleft : left.isNull = false) (hright : right.isNull = false)
    (hkind : Comparand.of left right = .text ∨ Comparand.of left right = .other) :
    heap.equals left right = heap.equalsOther left right := by
  unfold equals
  rw [hleft, hright]
  rcases hkind with hkind | hkind
  · rw [hkind]
    rfl
  · rw [hkind]
    rfl

theorem equals_of_isNull (h : left.isNull || right.isNull) :
    heap.equals left right = .ok (left.isNull && right.isNull) := if_pos h

theorem sameOutcome_equals_iff (hproper : left.place?.isSome → right.place?.isSome →
      heap.Proper left ∧ heap.Proper right) :
    SameOutcome (heap.equals left right) (heap.equals right left) ↔ ¬ left.Discordant right := by
  have hconstants (h : left.Discordant right) :
      (left.isNull || right.isNull) = false ∧ Comparand.of left right = .other := by
    rcases h.exists_enum with ⟨⟨s, i, rfl⟩, t, j, rfl⟩
    exact ⟨rfl, rfl⟩
  by_cases hnull : left.isNull || right.isNull
  · rw [equals_of_isNull hnull, equals_of_isNull (Bool.or_comm .. ▸ hnull), Bool.and_comm]
    refine iff_of_true (.refl _) fun h => ?_
    rw [(hconstants h).1] at hnull
    cases hnull
  · rw [Bool.or_eq_true, not_or, Bool.not_eq_true, Bool.not_eq_true] at hnull
    by_cases hkind : Comparand.of left right = .text ∨ Comparand.of left right = .other
    · rw [equals_eq_equalsOther hnull.1 hnull.2 hkind,
        equals_eq_equalsOther hnull.2 hnull.1 (Comparand.of_comm left right ▸ hkind)]
      exact sameOutcome_equalsOther_iff hproper
    · rw [not_or] at hkind
      exact iff_of_true (sameOutcome_equals_of_number hnull.1 hnull.2 hkind.1 hkind.2)
        fun h => hkind.2 (hconstants h).2

/-!
## Operators
-/

theorem applyBinary_eq : heap.applyBinary .eq left right =
    (heap.equals left right).map .bool := by
  rw [applyBinary]
  cases heap.equals left right <;> rfl

theorem applyBinary_notEq : heap.applyBinary .notEq left right =
    (heap.equals left right).map fun truth => .bool !truth := by
  rw [applyBinary]
  cases heap.equals left right <;> rfl

/-- `==` answers with a truth value and `!=` with the opposite one, or both fail alike. -/
def NegatesEq (heap : Heap) (left right : Value) : Prop :=
  (∃ truth, heap.applyBinary .eq left right = .ok (.bool truth) ∧
      heap.applyBinary .notEq left right = .ok (.bool !truth)) ∨
    ∃ error, heap.applyBinary .eq left right = .error error ∧
      heap.applyBinary .notEq left right = .error error

theorem negatesEq (heap : Heap) (left right : Value) : heap.NegatesEq left right := by
  unfold NegatesEq
  rw [applyBinary_eq, applyBinary_notEq]
  cases heap.equals left right with
  | error error => exact Or.inr ⟨error, rfl, rfl⟩
  | ok truth => exact Or.inl ⟨truth, rfl, rfl⟩

/-- Two lists are keys of one map and have become equal; a second map has one of them and a list
that is different from both as its keys. -/
def repeatedKey : Heap where
  sequences := #[[.int 1], [.int 1], [.int 2]]
  maps := #[[(.list 0, .long 1), (.list 1, .long 1)], [(.list 0, .long 1), (.list 2, .long 1)]]
  objects := #[]
  closures := #[]

end Heap
end ExprLang
