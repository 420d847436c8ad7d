import ExprLang.Proofs.Assoc.Occurrences
import ExprLang.Proofs.Equality.Growth
import ExprLang.Proofs.Operator.Symmetry

/-!
# Equality of sets

A set keeps the first occurrences of the values that it was made of, and two sets are compared as
lists are.  So sets of the same elements are equal if these first came in the same order, and only
then.
-/

namespace ExprLang
namespace Heap

open Assoc (SameElements SameOrder)

/-- The set at the reference keeps the first occurrences among some items. -/
def MadeOf (heap : Heap) (r : Ref) (items : List Value) : Prop :=
  heap.sequence r = heap.distinct items

instance (heap : Heap) (r : Ref) (items : List Value) : Decidable (heap.MadeOf r items) :=
  inferInstanceAs (Decidable (heap.sequence r = heap.distinct items))

section Sets

variable {heap : Heap} {r s : Ref} {xs ys : List Value}

theorem MadeOf.proper (h : heap.MadeOf r xs) (hxs : ∀ x ∈ xs, heap.Proper x) :
    heap.Proper (.set r) := by
  apply Proper.of_parts
  · intro part hpart
    change part ∈ heap.sequence r at hpart
    rw [h] at hpart
    exact Assoc.domain_distinct hxs part hpart
  · rintro r' ⟨⟩

theorem equal_set_iff (hr : heap.MadeOf r xs) (hs : heap.MadeOf s ys)
    (hxs : ∀ x ∈ xs, heap.Proper x) (hys : ∀ y ∈ ys, heap.Proper y)
    (hsame : SameElements heap.equal xs ys) :
    heap.equal (.set r) (.set s) = true ↔ SameOrder heap.equal xs ys := by
  have h := heap.equal_isEquivalenceOn
  have hproper := hr.proper hxs
  have hparts : heap.PartsOn heap.Proper heap.equal (.set r) :=
    ⟨fun part hpart => hproper.of_mem_parts hpart, nofun⟩
  rw [← Assoc.isEqv_distinct_iff h hxs hys hsame,
    equal_eq_equalWith hproper.finite (hs.proper hys).finite, equalWith_iff_alike h hparts]
  change _ ↔ (heap.distinct xs).isEqv (heap.distinct ys) heap.equal = true
  rw [← hr, ← hs]
  constructor
  · intro halike
    cases halike with
    | set heqv => exact heqv
    | flat hplace => cases hplace
  · exact Alike.set

/-- What two sets have in common whatever the order of their elements, and what tells them apart
if their elements first came in different orders. -/
structure ApartByOrder (heap : Heap) (r s : Ref) (xs ys : List Value) : Prop where
  length : (heap.sequence r).length = (heap.sequence s).length
  elements : ∀ value, heap.Proper value →
    (heap.sequence r).any (heap.equal · value) = (heap.sequence s).any (heap.equal · value)
  equal : heap.equal (.set r) (.set s) = decide (SameOrder heap.equal xs ys)
  operator : heap.applyBinary .eq (.set r) (.set s) =
    .ok (.bool (decide (SameOrder heap.equal xs ys)))
  distinct : heap.distinct [.set r, .set s] =
    if SameOrder heap.equal xs ys then [.set r] else [.set r, .set s]
  contains : SameOrder heap.equal xs ys ↔ ∀ items : List Value, (∀ item ∈ items, heap.Proper item) →
    items.any (heap.equal · (.set r)) = items.any (heap.equal · (.set s))
  lookup : SameOrder heap.equal xs ys ↔ ∀ entries : List (Value × Value),
    (∀ entry ∈ entries, heap.Proper entry.1) →
      Assoc.find? heap.equal (.set r) entries = Assoc.find? heap.equal (.set s) entries

theorem apartByOrder (hr : heap.MadeOf r xs) (hs : heap.MadeOf s ys)
    (hxs : ∀ x ∈ xs, heap.Proper x) (hys : ∀ y ∈ ys, heap.Proper y)
    (hsame : SameElements heap.equal xs ys) : heap.ApartByOrder r s xs ys := by
  have h := heap.equal_isEquivalenceOn
  have hproper := hr.proper hxs
  have hproper' := hs.proper hys
  have hiff := equal_set_iff hr hs hxs hys hsame
  have hequal : heap.equal (.set r) (.set s) = decide (SameOrder heap.equal xs ys) := by
    rw [Bool.eq_iff_iff, hiff, decide_eq_true_eq]
  have hself := heap.equal_self (.set r)
  constructor
  case length =>
    rw [hr, hs]
    exact le_antisymm (Assoc.length_distinct_le h hxs hys hsame.1)
      (Assoc.length_distinct_le h hys hxs hsame.2)
  case elements =>
    intro value hvalue
    rw [hr, hs]
    calc (heap.distinct xs).any (heap.equal · value)
        = xs.any (heap.equal · value) := Assoc.any_distinct h hxs hvalue
      _ = ys.any (heap.equal · value) := Assoc.any_eq_of_sameElements h hxs hys hsame hvalue
      _ = (heap.distinct ys).any (heap.equal · value) := (Assoc.any_distinct h hys hvalue).symm
  case equal => exact hequal
  case operator =>
    rw [applyBinary_eq, ← hequal]
    rfl
  case distinct =>
    by_cases horder : SameOrder heap.equal xs ys
    · rw [if_pos horder]
      simp [Heap.distinct, Assoc.distinct, Assoc.distinctFrom, hiff.mpr horder]
    · rw [if_neg horder]
      rw [← hiff] at horder
      simp [Heap.distinct, Assoc.distinct, Assoc.distinctFrom, horder]
  case contains =>
    rw [← hiff]
    constructor
    · intro hrs items hitems
      apply Assoc.any_congr
      intro item hitem
      exact h.same_right_eq (hitems item hitem) hproper hproper' hrs
    · intro hcontains
      have hone := hcontains [.set r] (List.forall_mem_singleton.mpr hproper)
      simpa [hself] using hone
  case lookup =>
    rw [← hiff]
    constructor
    · intro hrs entries hentries
      apply Assoc.find?_congr
      intro entry hentry
      exact h.same_right_eq (hentries entry hentry) hproper hproper' hrs
    · intro hlookup
      have hone := hlookup [(.set r, .null)] (List.forall_mem_singleton.mpr hproper)
      by_contra hne
      simp [Assoc.find?, hself, hne] at hone

/-- A new set is made of its items, also when the heap has grown further. -/
theorem newSet_madeOf {heap : Heap} {items : List Value} (world : World)
    (hsettled : ∀ item ∈ items, world.heap.Settled item)
    (hfinite : ∀ item ∈ items, heap.Finite item) :
    ∃ r after, World.newSet items world = .ok (.set r) after ∧
      (after.heap.Extends heap → heap.MadeOf r items) := by
  refine ⟨_, _, rfl, ?_⟩
  intro hgrown
  have hextends := (extends_addSequence world.heap (world.heap.distinct items)).trans hgrown
  refine (sequence_size_of_extends hgrown).trans ?_
  apply Assoc.distinct_congr
  intro x hx y hy
  exact (equal_eq_of_extends hextends (hsettled x hx) (hsettled y hy) (hfinite x hx)
    (hfinite y hy)).symm

end Sets

/-- A new set is made of the first occurrences among its items for good.  Two sets of the same
elements, up to order and repetition, have as many of them and the same ones; but they are equal,
and stand for each other where values are compared, if and only if the elements first came in the
same order. -/
theorem sets_apart_by_order (heap : Heap) (xs ys : List Value) (hxs : ∀ x ∈ xs, heap.Proper x)
    (hys : ∀ y ∈ ys, heap.Proper y) (hsame : SameElements heap.equal xs ys) :
    (∀ world : World, (∀ x ∈ xs, world.heap.Settled x) →
      ∃ r after, World.newSet xs world = .ok (.set r) after ∧
        (after.heap.Extends heap → heap.MadeOf r xs)) ∧
      ∀ r s, heap.MadeOf r xs → heap.MadeOf s ys → heap.ApartByOrder r s xs ys := by
  constructor
  · intro world hsettled
    exact newSet_madeOf world hsettled fun x hx => (hxs x hx).finite
  · intro r s hr hs
    exact apartByOrder hr hs hxs hys hsame

/-- Three sets of the same two elements, the second of them in the other order. -/
def threeSets : Heap where
  sequences := #[[.long 1, .long 2], [.long 2, .long 1], [.long 1, .long 2]]
  maps := #[]
  objects := #[]
  closures := #[]

theorem sets_apart_by_order_threeSets :
    (∃ r after, World.newSet [.long 1, .long 2, .long 1] default = .ok (.set r) after ∧
        (after.heap.Extends threeSets →
          threeSets.MadeOf r [.long 1, .long 2, .long 1])) ∧
      threeSets.ApartByOrder 0 2 [.long 1, .long 2, .long 1] [.long 1, .long 2, .long 2] ∧
      SameOrder threeSets.equal [.long 1, .long 2, .long 1] [.long 1, .long 2, .long 2] := by
  have hflat : ∀ item ∈ [Value.long 1, .long 2, .long 1], item.place? = none := by decide
  have hflat' : ∀ item ∈ [Value.long 1, .long 2, .long 2], item.place? = none := by decide
  rcases threeSets.sets_apart_by_order _ _
      (fun item hitem => .of_place?_eq_none (hflat item hitem))
      (fun item hitem => .of_place?_eq_none (hflat' item hitem)) (by decide) with ⟨hnew, hsets⟩
  refine ⟨?_, ?_, by decide⟩
  · exact hnew default fun item hitem => .of_place?_eq_none (hflat item hitem)
  · exact hsets 0 2 (by decide) (by decide)

/-- Sets of the same elements in different orders are not equal. -/
theorem sets_unequal_threeSets :
    threeSets.MadeOf 0 [.long 1, .long 2] ∧ threeSets.MadeOf 1 [.long 2, .long 1] ∧
      SameElements threeSets.equal [.long 1, .long 2] [.long 2, .long 1] ∧
      threeSets.equal (.set 0) (.set 1) = false ∧
      threeSets.applyBinary .eq (.set 0) (.set 1) = .ok (.bool false) := by
  refine ⟨?_, ?_, ?_, ?_, ?_⟩
  · decide
  · decide
  · decide
  · decide
  · rfl

end Heap
end ExprLang
