import ExprLang.Proofs.Equality.Depth
import ExprLang.Proofs.Store.Frozen

/-!
# Equality while the heap grows

New objects change nothing about the old ones.  So values that reach only objects that are there
are compared in a larger heap as they were before, although equality may look deeper there.
-/

namespace ExprLang

theorem Kept.size_le {α : Type} {before after : Array α} (h : Kept before after) :
    before.size ≤ after.size := by
  by_contra hlt
  have hi : after.size < before.size := by omega
  have hfound := h after.size before[after.size] (Array.getElem?_eq_getElem hi)
  rw [Array.getElem?_eq_none le_rfl] at hfound
  cases hfound

theorem Kept.getD_eq {α : Type} {before after : Array α} (h : Kept before after) {i : Nat}
    (hi : i < before.size) (default : α) : after.getD i default = before.getD i default := by
  rw [Array.getD_eq_getD_getElem?, Array.getD_eq_getD_getElem?,
    h i before[i] (Array.getElem?_eq_getElem hi), Array.getElem?_eq_getElem hi]

namespace Heap

/-- The places of the value and of its parts at any depth are all in use. -/
def Settled (heap : Heap) (value : Value) : Prop :=
  ∀ part, heap.Reaches value part → ∀ place, part.place? = some place → place ∈ heap.places

section Growth

variable {before after : Heap} {a b value part : Value}

theorem Settled.of_mem_parts (h : before.Settled value) (hpart : part ∈ before.parts value) :
    before.Settled part :=
  fun inner hinner => h inner (.head hpart hinner)

theorem Settled.of_reaches (h : before.Settled value) (hpart : before.Reaches value part) :
    before.Settled part :=
  fun inner hinner => h inner (hpart.trans hinner)

theorem Settled.of_place?_eq_none (h : value.place? = none) : before.Settled value := by
  intro part hpart place hplace
  rcases Relation.ReflTransGen.cases_head hpart with rfl | ⟨inner, hinner, -⟩
  · rw [h] at hplace
    cases hplace
  · rw [parts, h] at hinner
    cases hinner

theorem sequence_eq_of_extends (h : before.Extends after) {r : Ref}
    (hplace : .inl r ∈ before.places) : after.sequence r = before.sequence r := by
  have hr : r < before.sequences.size := by simpa [places] using hplace
  exact h.sequences.getD_eq hr []

theorem entries_eq_of_extends (h : before.Extends after) {r : Ref}
    (hplace : .inr r ∈ before.places) : after.entries r = before.entries r := by
  have hr : r < before.maps.size := by simpa [places] using hplace
  exact h.maps.getD_eq hr []

theorem parts_eq_of_extends (h : before.Extends after) (hvalue : before.Settled value) :
    after.parts value = before.parts value := by
  unfold parts
  cases hplace : value.place? with
  | none => rfl
  | some place =>
      have hused := hvalue value .refl place hplace
      cases place with
      | inl r => exact sequence_eq_of_extends h hused
      | inr r => simp only [Option.elim, kept, entries_eq_of_extends h hused]

theorem reaches_of_extends (h : before.Extends after) (hvalue : before.Settled value)
    (hpart : before.Reaches value part) : after.Reaches value part := by
  induction hpart with
  | refl => exact .refl
  | tail hinner hpart ih =>
      rw [← parts_eq_of_extends h (hvalue.of_reaches hinner)] at hpart
      exact ih.tail hpart

/-- A value that contains itself does so for good. -/
theorem Finite.of_extends (h : before.Extends after) (hvalue : before.Settled value)
    (hfinite : after.Finite value) : before.Finite value := by
  intro part hpart hself
  have hsettled := hvalue.of_reaches hpart
  rcases Relation.TransGen.head'_iff.mp hself with ⟨inner, hinner, hback⟩
  have hinner' := hinner
  rw [← parts_eq_of_extends h hsettled] at hinner'
  exact hfinite part (reaches_of_extends h hvalue hpart)
    (.head' hinner' (reaches_of_extends h (hsettled.of_mem_parts hinner) hback))

theorem reaches_back_of_extends (h : before.Extends after) (hvalue : before.Settled value)
    (hpart : after.Reaches value part) : before.Reaches value part := by
  induction hpart with
  | refl => exact .refl
  | tail _ hpart ih =>
      rw [parts_eq_of_extends h (hvalue.of_reaches ih)] at hpart
      exact ih.tail hpart

/-- A value that does not contain itself never comes to contain itself through new objects. -/
theorem Finite.extend (h : before.Extends after) (hvalue : before.Settled value)
    (hfinite : before.Finite value) : after.Finite value := by
  intro part hpart hself
  have hpart := reaches_back_of_extends h hvalue hpart
  have hsettled := hvalue.of_reaches hpart
  rcases Relation.TransGen.head'_iff.mp hself with ⟨inner, hinner, hback⟩
  rw [parts_eq_of_extends h hsettled] at hinner
  exact hfinite part hpart
    (.head' hinner (reaches_back_of_extends h (hsettled.of_mem_parts hinner) hback))

theorem extends_addSequence (heap : Heap) (items : List Value) :
    heap.Extends (heap.addSequence items).2 :=
  { Extends.refl heap with sequences := .push _ _ }

theorem sequence_size_of_extends {items : List Value}
    (h : (before.addSequence items).2.Extends after) :
    after.sequence before.sequences.size = items := by
  have hlast : before.sequences.size < (before.sequences.push items).size := by
    rw [Array.size_push]
    exact Nat.lt_succ_self _
  refine (h.sequences.getD_eq hlast []).trans ?_
  rw [addSequence, Array.getD_eq_getD_getElem?, Array.getElem?_push_size]
  rfl

theorem equalWith_eq_of_extends (h : before.Extends after) (ha : before.Settled a)
    (hb : before.Settled b) (same : Value → Value → Bool) :
    after.equalWith same a b = before.equalWith same a b := by
  have ha' := ha a .refl
  have hb' := hb b .refl
  unfold equalWith
  split
  · rw [sequence_eq_of_extends h (ha' _ rfl), sequence_eq_of_extends h (hb' _ rfl)]
  · rw [sequence_eq_of_extends h (ha' _ rfl), sequence_eq_of_extends h (hb' _ rfl)]
  · rw [entries_eq_of_extends h (ha' _ rfl), entries_eq_of_extends h (hb' _ rfl)]
  · rfl

theorem equalUpTo_zero (heap : Heap) : heap.equalUpTo 0 a b = a.matches b := by
  rw [equalUpTo] <;> exact fun _ _ _ h => absurd h.symm (Nat.succ_ne_zero _)

theorem equalUpTo_eq_of_extends (h : before.Extends after) (ha : before.Settled a)
    (hb : before.Settled b) (n : Nat) : after.equalUpTo n a b = before.equalUpTo n a b := by
  induction n generalizing a b with
  | zero => rw [equalUpTo_zero, equalUpTo_zero]
  | succ n ih =>
      rw [equalUpTo_succ, equalUpTo_succ, equalWith_eq_of_extends h ha hb]
      apply equalWith_congr
      intro x hx y hy
      exact ⟨ih (ha.of_mem_parts hx) (hb.of_mem_parts hy),
        ih (hb.of_mem_parts hy) (ha.of_mem_parts hx)⟩

theorem equalUpTo_eq_of_le {n m : Nat} (ha : before.Within n a) (hb : before.Within n b)
    (hle : n ≤ m) : before.equalUpTo m a b = before.equalUpTo n a b := by
  induction hle with
  | refl => rfl
  | step hle ih => rw [equalUpTo_stable (ha.mono hle) (hb.mono hle), ih]

theorem equal_eq_of_extends (h : before.Extends after) (ha : before.Settled a)
    (hb : before.Settled b) (ha' : after.Finite a) (hb' : after.Finite b) :
    after.equal a b = before.equal a b := by
  have hle : before.size + 1 ≤ after.size + 1 := by
    have hsequences := h.sequences.size_le
    have hmaps := h.maps.size_le
    have hobjects := h.objects.size_le
    have hclosures := h.closures.size_le
    unfold size
    omega
  have hwithin := (ha'.of_extends h ha).within
  have hwithin' := (hb'.of_extends h hb).within
  unfold equal
  rw [equalUpTo_eq_of_extends h ha hb, equalUpTo_eq_of_le hwithin hwithin' hle]

end Growth
end Heap
end ExprLang
