import Mathlib.Data.List.Nodup
import ExprLang.Proofs.Conversion.Projection
import ExprLang.Proofs.Evaluation.Answers
import ExprLang.Proofs.Store.Frozen
import ExprLang.Proofs.Store.Slot

/-!
# Layouts of heaps

An array carries the type of its elements with the reference, and a bean names its class.  A
layout says for every sequence of a heap what it belongs to and for every bean what its class is,
and never changes but by growing.  A heap that is laid out this way is well typed if the elements
of arrays and the properties of beans are accepted by the types that they are declared with.
-/

namespace ExprLang

/-- The component type of the array that a sequence belongs to, or none if it belongs to a list
or a set; and the classes of the beans. -/
structure Layout where
  components : Array (Option ValueType)
  classes : Array String

/-- The second layout has all of the first one in its place. -/
structure Layout.Grows (layout later : Layout) : Prop where
  components : Kept layout.components later.components
  classes : Kept layout.classes later.classes

namespace Layout.Grows

theorem refl (layout : Layout) : layout.Grows layout := ⟨.refl _, .refl _⟩

theorem trans {first mid last : Layout} (hfirst : first.Grows mid) (hsecond : mid.Grows last) :
    first.Grows last :=
  ⟨hfirst.components.trans hsecond.components, hfirst.classes.trans hsecond.classes⟩

end Layout.Grows

/-- What the value refers to is there and belongs to a value of its kind. -/
def Value.Fits (layout : Layout) : Value → Prop
  | .list r | .set r => layout.components[r]? = some none
  | .array component r => layout.components[r]? = some (some component)
  | .bean r => ∃ className, layout.classes[r]? = some className
  | _ => True

namespace Value

theorem Fits.later {layout later : Layout} {value : Value} (h : value.Fits layout)
    (hgrows : layout.Grows later) : value.Fits later := by
  cases value with
  | list r | set r | array component r => exact hgrows.components r _ h
  | bean r =>
      obtain ⟨className, hclass⟩ := h
      exact ⟨className, hgrows.classes r _ hclass⟩
  | _ => trivial

theorem fits_of_isScalar {layout : Layout} {value : Value} (h : value.isScalar) :
    value.Fits layout := by
  cases value with
  | list | set | array | bean => cases h
  | _ => trivial

end Value

namespace Heap

/-!
## Accepted values
-/

/-- The value may stand where values of the type belong: it conforms, or it is null and the type
allows that. -/
def Accepts (heap : Heap) (value : Value) (type : ValueType) : Prop :=
  heap.Conforms value type ∨ value = .null ∧ type.isNullable

/-- A value without a bean, or with a bean of the same class, is accepted alike in two heaps. -/
theorem Accepts.congr {before after : Heap} {value : Value} {type : ValueType}
    (hclass : ∀ r, value = .bean r → (after.object r).className = (before.object r).className)
    (h : before.Accepts value type) : after.Accepts value type := by
  have htype : after.typeOf value = before.typeOf value := by
    cases value with
    | bean r => rw [typeOf, typeOf, hclass r rfl]
    | _ => rfl
  have hname : after.typeName value = before.typeName value := by
    cases value with
    | bean r => rw [typeName, typeName, hclass r rfl]
    | _ => rfl
  rcases h with hconforms | hnull
  · left
    cases type <;> simp only [Conforms, isInstance, htype, hname] at hconforms ⊢ <;>
      exact hconforms
  · exact Or.inr hnull

/-!
## Heaps with a layout
-/

/-- The heap is laid out as the layout says, and every reference in it finds what it is for. -/
structure Laid (layout : Layout) (heap : Heap) : Prop where
  sequences : heap.sequences.size = layout.components.size
  classes : ∀ r : Ref, heap.objects[r]?.map Bean.className = layout.classes[r]?
  elements : ∀ r, ∀ value ∈ heap.sequence r, value.Fits layout
  entries : ∀ r, ∀ entry ∈ heap.entries r, entry.1.Fits layout ∧ entry.2.Fits layout
  captured : ∀ r name value, (heap.closure r).captured.find? name = some value →
    value.Fits layout
  properties : ∀ r, ∀ p ∈ (heap.object r).properties, p.value.Fits layout
  /-- No bean has two properties of one name. -/
  distinct : ∀ r, ((heap.object r).properties.map Property.name).Nodup

/-- Every element of an array is accepted by the component type, and every property of a bean by
its declared type. -/
structure WellTyped (layout : Layout) (heap : Heap) : Prop where
  elements : ∀ (r : Ref) component, layout.components[r]? = some (some component) →
    ∀ value ∈ heap.sequence r, heap.Accepts value component
  properties : ∀ r, ∀ p ∈ (heap.object r).properties, heap.Accepts p.value p.type

variable {layout later : Layout} {before after : Heap}

theorem Laid.className (h : before.Laid layout) {r : Ref} {className : String}
    (hclass : layout.classes[r]? = some className) : (before.object r).className = className := by
  rw [← h.classes, Option.map_eq_some_iff] at hclass
  obtain ⟨bean, hbean, rfl⟩ := hclass
  rw [object, Array.getD_eq_getD_getElem?, hbean, Option.getD_some]

/-- A value that fits stays accepted as the heap grows. -/
theorem Laid.accepts_later (h : before.Laid layout) (hafter : after.Laid later)
    (hgrows : layout.Grows later) {value : Value} {type : ValueType} (hfits : value.Fits layout)
    (haccepts : before.Accepts value type) : after.Accepts value type := by
  apply haccepts.congr
  rintro r rfl
  obtain ⟨className, hclass⟩ := hfits
  rw [hafter.className (hgrows.classes r _ hclass), h.className hclass]

theorem Laid.component_of_mem (h : before.Laid layout) (hgrows : layout.Grows later) {r : Ref}
    {value : Value} (hvalue : value ∈ before.sequence r) {component : Option ValueType}
    (hcomponent : later.components[r]? = some component) :
    layout.components[r]? = some component := by
  have hr : r < layout.components.size := by
    rw [← h.sequences]
    by_contra hr
    rw [sequence, Array.getD_eq_getD_getElem?,
      Array.getElem?_eq_none (Nat.le_of_not_lt hr)] at hvalue
    cases hvalue
  have hfound := Array.getElem?_eq_getElem hr
  rw [hfound, ← hcomponent]
  exact (hgrows.components r _ hfound).symm

/-- A heap whose contents come from another one, or fit and are accepted where they stand. -/
structure Changed (layout later : Layout) (before after : Heap) : Prop where
  grows : layout.Grows later
  sequences : after.sequences.size = later.components.size
  classes : ∀ r : Ref, after.objects[r]?.map Bean.className = later.classes[r]?
  elements : ∀ (r : Ref), ∀ value ∈ after.sequence r, value ∈ before.sequence r ∨
    (value.Fits later ∧ ∀ component, later.components[r]? = some (some component) →
      after.Accepts value component)
  entries : ∀ r, ∀ entry ∈ after.entries r, entry ∈ before.entries r ∨
    (entry.1.Fits later ∧ entry.2.Fits later)
  captured : ∀ r name value, (after.closure r).captured.find? name = some value →
    (before.closure r).captured.find? name = some value ∨ value.Fits later
  properties : ∀ r, ∀ p ∈ (after.object r).properties, p ∈ (before.object r).properties ∨
    (p.value.Fits later ∧ after.Accepts p.value p.type)
  distinct : ∀ r, ((after.object r).properties.map Property.name).Nodup

theorem Changed.laid (h : Changed layout later before after) (hbefore : before.Laid layout) :
    after.Laid later where
  sequences := h.sequences
  classes := h.classes
  elements := by
    intro r value hvalue
    rcases h.elements r value hvalue with hold | ⟨hfits, _⟩
    · exact (hbefore.elements r value hold).later h.grows
    · exact hfits
  entries := by
    intro r entry hentry
    rcases h.entries r entry hentry with hold | hfits
    · obtain ⟨hkey, hvalue⟩ := hbefore.entries r entry hold
      exact ⟨hkey.later h.grows, hvalue.later h.grows⟩
    · exact hfits
  captured := by
    intro r name value hvalue
    rcases h.captured r name value hvalue with hold | hfits
    · exact (hbefore.captured r name value hold).later h.grows
    · exact hfits
  properties := by
    intro r p hp
    rcases h.properties r p hp with hold | ⟨hfits, _⟩
    · exact (hbefore.properties r p hold).later h.grows
    · exact hfits
  distinct := h.distinct

theorem Changed.wellTyped (h : Changed layout later before after) (hbefore : before.Laid layout)
    (htyped : before.WellTyped layout) : after.WellTyped later where
  elements := by
    intro r component hcomponent value hvalue
    rcases h.elements r value hvalue with hold | ⟨_, haccepts⟩
    · have hcomponent := hbefore.component_of_mem h.grows hold hcomponent
      exact hbefore.accepts_later (h.laid hbefore) h.grows (hbefore.elements r value hold)
        (htyped.elements r component hcomponent value hold)
    · exact haccepts component hcomponent
  properties := by
    intro r p hp
    rcases h.properties r p hp with hold | ⟨_, haccepts⟩
    · exact hbefore.accepts_later (h.laid hbefore) h.grows (hbefore.properties r p hold)
        (htyped.properties r p hold)
    · exact haccepts

/-!
## Changes
-/

theorem getD_push {α : Type} (before : Array α) (added default : α) (r : Nat) :
    (before.push added).getD r default = before.getD r default ∨
      r = before.size ∧ (before.push added).getD r default = added := by
  simp only [Array.getD_eq_getD_getElem?, Array.getElem?_push]
  split
  · rename_i hr
    exact Or.inr ⟨hr, rfl⟩
  · exact Or.inl rfl

theorem getD_setIfInBounds {α : Type} (before : Array α) (i r : Nat) (stored default : α) :
    (before.setIfInBounds i stored).getD r default = before.getD r default ∨
      r = i ∧ i < before.size ∧ (before.setIfInBounds i stored).getD r default = stored := by
  simp only [Array.getD_eq_getD_getElem?, Array.getElem?_setIfInBounds]
  split
  · rename_i hr
    subst hr
    split
    · rename_i hi
      exact Or.inr ⟨rfl, hi, rfl⟩
    · rename_i hi
      rw [Array.getElem?_eq_none (Nat.le_of_not_lt hi)]
      exact Or.inl rfl
  · exact Or.inl rfl

section Contents

variable (heap : Heap) (r s : Ref)

theorem sequence_addSequence (items : List Value) :
    (heap.addSequence items).2.sequence r = heap.sequence r ∨
      r = heap.sequences.size ∧ (heap.addSequence items).2.sequence r = items :=
  getD_push heap.sequences items [] r

theorem entries_addMap (entries : List (Value × Value)) :
    (heap.addMap entries).2.entries r = heap.entries r ∨
      r = heap.maps.size ∧ (heap.addMap entries).2.entries r = entries :=
  getD_push heap.maps entries [] r

theorem closure_addClosure (closure : Closure) :
    (heap.addClosure closure).2.closure r = heap.closure r ∨
      r = heap.closures.size ∧ (heap.addClosure closure).2.closure r = closure :=
  getD_push heap.closures closure default r

theorem sequence_setSequence (items : List Value) :
    (heap.setSequence r items).sequence s = heap.sequence s ∨
      s = r ∧ r < heap.sequences.size ∧ (heap.setSequence r items).sequence s = items :=
  getD_setIfInBounds heap.sequences r s items []

theorem entries_setEntries (entries : List (Value × Value)) :
    (heap.setEntries r entries).entries s = heap.entries s ∨
      s = r ∧ r < heap.maps.size ∧ (heap.setEntries r entries).entries s = entries :=
  getD_setIfInBounds heap.maps r s entries []

theorem object_setObject (bean : Bean) :
    (heap.setObject r bean).object s = heap.object s ∨
      s = r ∧ r < heap.objects.size ∧ (heap.setObject r bean).object s = bean :=
  getD_setIfInBounds heap.objects r s bean default

end Contents

variable (h : before.Laid layout)

include h

/-- Nothing has changed. -/
theorem Laid.unchanged : Changed layout layout before before where
  grows := .refl layout
  sequences := h.sequences
  classes := h.classes
  elements _ _ hvalue := Or.inl hvalue
  entries _ _ hentry := Or.inl hentry
  captured _ _ _ hvalue := Or.inl hvalue
  properties _ _ hp := Or.inl hp
  distinct := h.distinct

theorem Laid.addSequence {items : List Value} (hitems : ∀ value ∈ items, value.Fits layout) :
    Changed layout { layout with components := layout.components.push none } before
      (before.addSequence items).2 :=
  have hgrows : layout.Grows { layout with components := layout.components.push none } :=
    ⟨.push _ _, .refl _⟩
  { h.unchanged with
    grows := hgrows
    sequences := by simp [Heap.addSequence, h.sequences]
    elements := by
      intro r value hvalue
      rcases before.sequence_addSequence r items with hsame | ⟨hr, hadded⟩
      · exact Or.inl (hsame ▸ hvalue)
      · refine Or.inr ⟨(hitems value (hadded ▸ hvalue)).later hgrows, ?_⟩
        intro component hcomponent
        rw [hr, h.sequences, Array.getElem?_push_size] at hcomponent
        cases hcomponent
    entries := fun _ _ hentry => Or.inl hentry
    properties := fun _ _ hp => Or.inl hp
    captured := fun _ _ _ hvalue => Or.inl hvalue }

theorem Laid.addMap {entries : List (Value × Value)}
    (hentries : ∀ entry ∈ entries, entry.1.Fits layout ∧ entry.2.Fits layout) :
    Changed layout layout before (before.addMap entries).2 :=
  { h.unchanged with
    elements := fun _ _ hvalue => Or.inl hvalue
    entries := by
      intro r entry hentry
      rcases before.entries_addMap r entries with hsame | ⟨_, hadded⟩
      · exact Or.inl (hsame ▸ hentry)
      · exact Or.inr (hentries entry (hadded ▸ hentry))
    properties := fun _ _ hp => Or.inl hp }

theorem Laid.addClosure {closure : Closure}
    (hcaptured : ∀ name value, closure.captured.find? name = some value → value.Fits layout) :
    Changed layout layout before (before.addClosure closure).2 :=
  { h.unchanged with
    elements := fun _ _ hvalue => Or.inl hvalue
    captured := by
      intro r name value hvalue
      rcases before.closure_addClosure r closure with hsame | ⟨_, hadded⟩
      · exact Or.inl (hsame ▸ hvalue)
      · exact Or.inr (hcaptured name value (hadded ▸ hvalue))
    properties := fun _ _ hp => Or.inl hp }

theorem Laid.setEntries (r : Ref) {entries : List (Value × Value)}
    (hentries : ∀ entry ∈ entries, entry.1.Fits layout ∧ entry.2.Fits layout) :
    Changed layout layout before (before.setEntries r entries) :=
  { h.unchanged with
    elements := fun _ _ hvalue => Or.inl hvalue
    entries := by
      intro s entry hentry
      rcases before.entries_setEntries r s entries with hsame | ⟨_, _, hstored⟩
      · exact Or.inl (hsame ▸ hentry)
      · exact Or.inr (hentries entry (hstored ▸ hentry))
    properties := fun _ _ hp => Or.inl hp }

theorem Laid.setElement {r : Ref} (i : Nat) {stored : Value} (hfits : stored.Fits layout)
    (haccepts : ∀ component, layout.components[r]? = some (some component) →
      before.Accepts stored component) :
    Changed layout layout before (before.setSequence r ((before.sequence r).set i stored)) :=
  { h.unchanged with
    sequences := by simp [Heap.setSequence, h.sequences]
    elements := by
      intro s value hvalue
      rcases before.sequence_setSequence r s ((before.sequence r).set i stored) with
        hsame | ⟨hs, _, hstored⟩
      · exact Or.inl (hsame ▸ hvalue)
      · subst hs
        rw [hstored] at hvalue
        rcases List.mem_or_eq_of_mem_set hvalue with hold | rfl
        · exact Or.inl hold
        · exact Or.inr ⟨hfits, haccepts⟩
    properties := fun _ _ hp => Or.inl hp }

/-- Since names are distinct, a store under the name of a property changes that property only. -/
theorem Laid.setProperty {r : Ref} {name : String} {p : Property} {stored : Value}
    (hp : (before.object r).property? name = some p) (hfits : stored.Fits layout)
    (haccepts : before.Accepts stored p.type) :
    Changed layout layout before (before.setObject r ((before.object r).store name stored)) := by
  have hname : p.name = name := by simpa using List.find?_some hp
  have hmem : p ∈ (before.object r).properties := List.mem_of_find?_eq_some hp
  have hobject := fun s => before.object_setObject r s ((before.object r).store name stored)
  have hclass : ∀ s : Ref,
      ((before.setObject r ((before.object r).store name stored)).object s).className =
        (before.object s).className := by
    intro s
    rcases hobject s with hsame | ⟨rfl, _, hstored⟩
    · rw [hsame]
    · rw [hstored]
      rfl
  exact
    { h.unchanged with
      classes := by
        intro s
        rw [← h.classes s]
        by_cases hs : r = s
        · subst hs
          by_cases hr : r < before.objects.size
          · have hbean : before.objects[r]? = some (before.object r) := by
              rw [object, Array.getD_eq_getD_getElem?, Array.getElem?_eq_getElem hr]
              rfl
            rw [setObject, Array.getElem?_setIfInBounds_self_of_lt hr, hbean]
            rfl
          · rw [setObject, Array.setIfInBounds_eq_of_size_le (Nat.le_of_not_lt hr)]
        · rw [setObject, Array.getElem?_setIfInBounds_ne hs]
      elements := fun _ _ hvalue => Or.inl hvalue
      properties := by
        intro s q hq
        rcases hobject s with hsame | ⟨rfl, _, hstored⟩
        · exact Or.inl (hsame ▸ hq)
        · rw [hstored] at hq
          obtain ⟨old, hold, rfl⟩ := List.mem_map.mp hq
          split
          · rename_i hold'
            have hsame : old = p :=
              List.inj_on_of_nodup_map (h.distinct s) hold hmem (hold'.trans hname.symm)
            subst hsame
            exact Or.inr ⟨hfits, haccepts.congr fun s _ => hclass s⟩
          · exact Or.inl hold
      distinct := by
        intro s
        rcases hobject s with hsame | ⟨rfl, _, hstored⟩
        · rw [hsame]
          exact h.distinct s
        · rw [hstored, Bean.map_name_store]
          exact h.distinct s }

end Heap
end ExprLang
