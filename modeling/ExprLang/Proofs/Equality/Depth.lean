import Mathlib.Data.Finset.Sum
import Mathlib.Logic.Relation
import ExprLang.Heap.Equality

/-!
# The depth of natural equality

Natural equality looks into lists, sets and maps, one level of nesting after the other, down to a
bound.  A value that nowhere contains itself is nested no deeper than the heap has sequences and
maps, so the bound is never reached: equality of such values is one look at their parts, with
equality itself for the parts.
-/

namespace ExprLang

/-- Where the parts of a collection are kept: in a sequence, or in the entries of a map. -/
def Value.place? : Value → Option (Ref ⊕ Ref)
  | .list r | .set r => some (.inl r)
  | .map r => some (.inr r)
  | _ => none

namespace Heap

/-- The values that are kept in a place.  Those of a map are its keys and the values under them. -/
def kept (heap : Heap) : Ref ⊕ Ref → List Value
  | .inl r => heap.sequence r
  | .inr r => (heap.entries r).map Prod.fst ++ (heap.entries r).map Prod.snd

/-- The values that equality looks at inside a value. -/
def parts (heap : Heap) (value : Value) : List Value := value.place?.elim [] heap.kept

theorem key_mem_parts {heap : Heap} {r : Ref} {entry : Value × Value}
    (h : entry ∈ heap.entries r) : entry.1 ∈ heap.parts (.map r) :=
  List.mem_append_left _ (List.mem_map_of_mem h)

theorem value_mem_parts {heap : Heap} {r : Ref} {entry : Value × Value}
    (h : entry ∈ heap.entries r) : entry.2 ∈ heap.parts (.map r) :=
  List.mem_append_right _ (List.mem_map_of_mem h)

section Containment

variable (heap : Heap)

/-- The second value is a part of the first, or of a part of it at any depth. -/
def Contains : Value → Value → Prop :=
  Relation.TransGen fun whole part => part ∈ heap.parts whole

/-- The second value is the first or a part of it at any depth. -/
def Reaches : Value → Value → Prop :=
  Relation.ReflTransGen fun whole part => part ∈ heap.parts whole

/-- Neither the value nor a part of it at any depth contains itself. -/
def Finite (value : Value) : Prop := ∀ part, heap.Reaches value part → ¬ heap.Contains part part

variable {heap} {value whole part : Value}

theorem Finite.of_mem_parts (h : heap.Finite whole) (hpart : part ∈ heap.parts whole) :
    heap.Finite part :=
  fun inner hinner => h inner (.head hpart hinner)

/-- A value of finite parts is finite. -/
theorem Finite.of_parts (h : ∀ part ∈ heap.parts whole, heap.Finite part) :
    heap.Finite whole := by
  intro inner hinner hself
  rcases Relation.ReflTransGen.cases_head hinner with rfl | ⟨part, hpart, hrest⟩
  · rcases Relation.TransGen.head'_iff.mp hself with ⟨part, hpart, hback⟩
    exact h part hpart part .refl (.tail' hback hpart)
  · exact h part hpart inner hrest hself

end Containment

/-!
## The places inside a value
-/

section Places

variable (heap : Heap)

/-- The places that are in use. -/
def places : Finset (Ref ⊕ Ref) :=
  (Finset.range heap.sequences.size).disjSum (Finset.range heap.maps.size)

theorem card_places_le : heap.places.card ≤ heap.size := by
  unfold places size
  rw [Finset.card_disjSum, Finset.card_range, Finset.card_range]
  omega

open Classical in
/-- The places of a value and of its parts at any depth. -/
noncomputable def placesIn (value : Value) : Finset (Ref ⊕ Ref) :=
  heap.places.filter fun place => ∃ part, heap.Reaches value part ∧ part.place? = some place

theorem card_placesIn_le (value : Value) : (heap.placesIn value).card ≤ heap.size := by
  classical exact (Finset.card_filter_le _ _).trans heap.card_places_le

variable {heap} {place : Ref ⊕ Ref} {value whole part : Value}

theorem mem_placesIn : place ∈ heap.placesIn value ↔
    place ∈ heap.places ∧ ∃ part, heap.Reaches value part ∧ part.place? = some place := by
  classical exact Finset.mem_filter

theorem mem_places_of_mem_kept (h : value ∈ heap.kept place) : place ∈ heap.places := by
  cases place with
  | inl r =>
      by_contra hplace
      have hsize : heap.sequences.size ≤ r := by simpa [places] using hplace
      rw [kept, sequence, Array.getD_eq_getD_getElem?, Array.getElem?_eq_none hsize] at h
      cases h
  | inr r =>
      by_contra hplace
      have hsize : heap.maps.size ≤ r := by simpa [places] using hplace
      rw [kept, entries, Array.getD_eq_getD_getElem?, Array.getElem?_eq_none hsize] at h
      cases h

theorem exists_place_of_mem_parts (h : part ∈ heap.parts whole) :
    ∃ place, whole.place? = some place ∧ part ∈ heap.kept place := by
  unfold parts at h
  cases hplace : whole.place? with
  | none =>
      rw [hplace] at h
      cases h
  | some place =>
      rw [hplace] at h
      exact ⟨place, rfl, h⟩

/-- No part of a finite value is kept in the place of that value. -/
theorem card_placesIn_lt (h : heap.Finite whole) (hpart : part ∈ heap.parts whole) :
    (heap.placesIn part).card < (heap.placesIn whole).card := by
  rcases exists_place_of_mem_parts hpart with ⟨place, hplace, hkept⟩
  apply Finset.card_lt_card
  apply Finset.ssubset_iff_subset_ne.mpr
  constructor
  · intro inner hinner
    rw [mem_placesIn] at hinner ⊢
    rcases hinner with ⟨hused, deep, hdeep, hat⟩
    exact ⟨hused, deep, .head hpart hdeep, hat⟩
  · intro heq
    have hwhole : place ∈ heap.placesIn whole := by
      rw [mem_placesIn]
      exact ⟨mem_places_of_mem_kept hkept, whole, .refl, hplace⟩
    rw [← heq, mem_placesIn] at hwhole
    rcases hwhole with ⟨-, deep, hdeep, hat⟩
    -- A part at that place has the parts of the whole, so `part` would contain itself.
    have hagain : part ∈ heap.parts deep := by
      rw [parts, hat]
      exact hkept
    exact h part (.single hpart) (.tail' hdeep hagain)

end Places

/-!
## Depth
-/

/-- The value is nested in less than the given number of levels. -/
def Within (heap : Heap) : Nat → Value → Prop
  | 0, _ => False
  | n + 1, value => ∀ part ∈ heap.parts value, heap.Within n part

section Depth

variable {heap : Heap} {value whole part : Value}

theorem Within.succ {n : Nat} (h : heap.Within n value) : heap.Within (n + 1) value := by
  induction n generalizing value with
  | zero => exact h.elim
  | succ n ih => exact fun part hpart => ih (h part hpart)

theorem Within.mono {n m : Nat} (h : heap.Within n value) (hle : n ≤ m) :
    heap.Within m value := by
  induction hle with
  | refl => exact h
  | step _ ih => exact ih.succ

theorem Finite.within_of_card {n : Nat} (h : heap.Finite value)
    (hcard : (heap.placesIn value).card ≤ n) : heap.Within (n + 1) value := by
  induction n generalizing value with
  | zero =>
      intro part hpart
      have hlt := card_placesIn_lt h hpart
      omega
  | succ n ih =>
      intro part hpart
      have hlt := card_placesIn_lt h hpart
      exact ih (h.of_mem_parts hpart) (by omega)

theorem Finite.within (h : heap.Finite value) : heap.Within (heap.size + 1) value :=
  h.within_of_card (heap.card_placesIn_le value)

theorem Finite.part_within (h : heap.Finite whole) (hpart : part ∈ heap.parts whole) :
    heap.Within heap.size part :=
  h.within part hpart

end Depth

/-!
## One level of equality
-/

/-- Equality of values whose parts are compared by a given relation. -/
def equalWith (heap : Heap) (same : Value → Value → Bool) : Value → Value → Bool
  | .list r, .list s | .set r, .set s => r = s || (heap.sequence r).isEqv (heap.sequence s) same
  | .map r, .map s => r = s || Assoc.equal same same (heap.entries r) (heap.entries s)
  | a, b => a.matches b

end Heap

namespace Assoc

variable {α β : Type} {same same' : α → α → Bool}

theorem isEqv_congr {xs ys : List α} (h : ∀ x ∈ xs, ∀ y ∈ ys, same x y = same' x y) :
    xs.isEqv ys same = xs.isEqv ys same' := by
  induction xs generalizing ys with
  | nil => cases ys <;> rfl
  | cons x xs ih =>
      cases ys with
      | nil => rfl
      | cons y ys =>
          have hrest := ih fun x' hx' y' hy' =>
            h x' (List.mem_cons_of_mem x hx') y' (List.mem_cons_of_mem y hy')
          rw [List.isEqv_cons_cons, List.isEqv_cons_cons, hrest,
            h x List.mem_cons_self y List.mem_cons_self]

theorem find?_congr {key key' : α} {entries : List (α × β)}
    (h : ∀ entry ∈ entries, same entry.1 key = same' entry.1 key') :
    find? same key entries = find? same' key' entries := by
  induction entries with
  | nil => rfl
  | cons entry rest ih =>
      rw [find?, find?, h entry List.mem_cons_self,
        ih fun e he => h e (List.mem_cons_of_mem entry he)]

theorem exists_same_of_find? {key : α} {value : β} {entries : List (α × β)}
    (h : find? same key entries = some value) :
    ∃ k, (k, value) ∈ entries ∧ same k key = true := by
  induction entries with
  | nil => cases h
  | cons entry rest ih =>
      rcases entry with ⟨k, v⟩
      rw [find?] at h
      split at h
      · rename_i hsame
        cases h
        exact ⟨k, List.mem_cons_self, hsame⟩
      · rcases ih h with ⟨k', hmem, hsame⟩
        exact ⟨k', List.mem_cons_of_mem _ hmem, hsame⟩

theorem equal_congr {sameValue sameValue' : β → β → Bool} {xs ys : List (α × β)}
    (hkey : ∀ x ∈ xs, ∀ y ∈ ys, same y.1 x.1 = same' y.1 x.1)
    (hvalue : ∀ x ∈ xs, ∀ y ∈ ys, sameValue y.2 x.2 = sameValue' y.2 x.2) :
    equal same sameValue xs ys = equal same' sameValue' xs ys := by
  unfold equal
  congr 1
  rw [Bool.eq_iff_iff, List.all_eq_true, List.all_eq_true]
  apply forall₂_congr
  rintro ⟨k, v⟩ hx
  dsimp only
  rw [find?_congr (hkey _ hx)]
  cases hfind : find? same' k ys with
  | none => rfl
  | some w =>
      rcases exists_same_of_find? hfind with ⟨k', hmem, -⟩
      dsimp only
      rw [hvalue _ hx _ hmem]

end Assoc

namespace Heap

section Levels

variable {heap : Heap} {a b : Value}

theorem equalUpTo_succ (n : Nat) :
    heap.equalUpTo (n + 1) a b = heap.equalWith (heap.equalUpTo n) a b := by
  unfold equalWith
  split
  · rw [equalUpTo]
  · rw [equalUpTo]
  · rw [equalUpTo]
  · rename_i hlist hset hmap
    rw [equalUpTo]
    · exact fun _ r s _ => hlist r s
    · exact fun _ r s _ => hset r s
    · exact fun _ r s _ => hmap r s

theorem equalWith_congr {same same' : Value → Value → Bool}
    (h : ∀ x ∈ heap.parts a, ∀ y ∈ heap.parts b, same x y = same' x y ∧ same y x = same' y x) :
    heap.equalWith same a b = heap.equalWith same' a b := by
  have hsequence {r s : Ref} (h : ∀ x ∈ heap.sequence r, ∀ y ∈ heap.sequence s,
      same x y = same' x y ∧ same y x = same' y x) :
      (heap.sequence r).isEqv (heap.sequence s) same =
        (heap.sequence r).isEqv (heap.sequence s) same' :=
    Assoc.isEqv_congr fun x hx y hy => (h x hx y hy).1
  unfold equalWith
  split
  · rw [hsequence h]
  · rw [hsequence h]
  · rw [Assoc.equal_congr]
    · intro x hx y hy
      exact (h _ (key_mem_parts hx) _ (key_mem_parts hy)).2
    · intro x hx y hy
      exact (h _ (value_mem_parts hx) _ (value_mem_parts hy)).2
  · rfl

/-- Below the bound, one level more makes no difference. -/
theorem equalUpTo_stable {n : Nat} (ha : heap.Within n a) (hb : heap.Within n b) :
    heap.equalUpTo (n + 1) a b = heap.equalUpTo n a b := by
  induction n generalizing a b with
  | zero => exact ha.elim
  | succ n ih =>
      rw [equalUpTo_succ, equalUpTo_succ]
      apply equalWith_congr
      intro x hx y hy
      exact ⟨ih (ha x hx) (hb y hy), ih (hb y hy) (ha x hx)⟩

/-- Equality of finite values is one look at their parts. -/
theorem equal_eq_equalWith (ha : heap.Finite a) (hb : heap.Finite b) :
    heap.equal a b = heap.equalWith heap.equal a b := by
  unfold equal
  rw [equalUpTo_succ]
  apply equalWith_congr
  intro x hx y hy
  have hx' := ha.part_within hx
  have hy' := hb.part_within hy
  exact ⟨(equalUpTo_stable hx' hy').symm, (equalUpTo_stable hy' hx').symm⟩

end Levels

end Heap
end ExprLang
