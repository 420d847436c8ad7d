import ExprLang.Proofs.Store.BeanText
import ExprLang.Proofs.Store.Dispatch
import ExprLang.Proofs.Store.LockedMap

/-!
# Slots

A slot is a place that holds one value: a top-level name, an entry of a map, an element of a
list or an array, or a property of a bean.  A store in a property of a base either changes
nothing or changes one slot, and then the property reads back as what the slot holds.
-/

namespace ExprLang

/-- A place that holds one value. -/
inductive Slot
  | name (name : String)
  | entry (r : Ref) (i : Nat)
  | element (r : Ref) (i : Nat)
  | property (r : Ref) (name : String)

namespace Slot

/-- The worlds agree on everything that is not in the slot. -/
structure Frame (slot : Slot) (before after : World) : Prop where
  scopes : after.scopes = before.scopes
  closures : after.heap.closures = before.heap.closures
  size : after.heap.size = before.heap.size
  beans : ∀ x, slot ≠ .name x → after.beans.find? x = before.beans.find? x
  entries : ∀ r i, slot ≠ .entry r i → (after.heap.entries r)[i]? = (before.heap.entries r)[i]?
  elements : ∀ r i, slot ≠ .element r i →
    (after.heap.sequence r)[i]? = (before.heap.sequence r)[i]?
  className : ∀ r, (after.heap.object r).className = (before.heap.object r).className
  methods : ∀ r, (after.heap.object r).methods = (before.heap.object r).methods
  propertyNames : ∀ r, (after.heap.object r).properties.map Property.name =
    (before.heap.object r).properties.map Property.name
  properties : ∀ (r : Ref) (i : Nat) (p : Property),
    (before.heap.object r).properties[i]? = some p →
    slot ≠ .property r p.name → (after.heap.object r).properties[i]? = some p

/-- What the slot holds after a store: the value in its place.  A map keeps the key of an entry
that was there, a bean everything but the value, and no name holds null. -/
def Holds (slot : Slot) (before after : World) (value : Value) : Prop :=
  match slot with
  | .name x => after.beans.find? x = if value.isNull then none else some value
  | .entry r i => ∃ k, (after.heap.entries r)[i]? = some (k, value) ∧
      ∀ k' v', (before.heap.entries r)[i]? = some (k', v') → k' = k
  | .element r i => i < (before.heap.sequence r).length ∧
      (after.heap.sequence r)[i]? = some value
  | .property r x => ∃ p, (before.heap.object r).property? x = some p ∧
      (after.heap.object r).property? x = some { p with value }

/-- What a slot with a value answers when it is read. -/
def answer : Slot → Value → Resolution Value
  | .name _, .null => .unresolved
  | _, value => .resolved value

end Slot

/-- The slot that a property of a base denotes, and what a value becomes when it is stored
there: an array converts it to the type of its elements, a bean to the type of the property. -/
inductive StoresTo (services : Services) (before : World) (property value : Value) :
    Value → Slot → Value → Prop
  | name {x : String} : property = .string x →
      StoresTo services before property value .null (.name x) value
  | entry {r : Ref} {i : Nat} :
      (∃ k v, (before.heap.entries r)[i]? = some (k, v) ∧ before.heap.equal k property = true) ∨
        i = (before.heap.entries r).length →
      StoresTo services before property value (.map r) (.entry r i) value
  | listElement {r : Ref} {i : Nat} {position : Int64} :
      before.heap.position property = .ok position →
      Resolver.within? position (before.heap.sequence r).length = some i →
      StoresTo services before property value (.list r) (.element r i) value
  | arrayElement {component : ValueType} {r : Ref} {i : Nat} {position : Int64} {w : Value} :
      before.heap.position property = .ok position →
      Resolver.within? position (before.heap.sequence r).length = some i →
      before.heap.coerce services.converters value component = .ok w →
      StoresTo services before property value (.array component r) (.element r i) w
  | property {r : Ref} {p : Property} {w : Value} :
      (before.heap.object r).property? (before.heap.text property) = some p →
      p.readOnly = false →
      before.heap.coerce services.converters value p.type = .ok w →
      StoresTo services before property value (.bean r) (.property r p.name) w

/-- The store is atomic, local and readable back. -/
def Resolver.StoresOneSlot (r : Resolver) (services : Services) (base property value : Value)
    (before : World) : Prop :=
  match r.set services base property value before with
  | .error _ after => after = before
  | .ok .unresolved after => after = before
  | .ok (.resolved ()) after => ∃ slot w,
      StoresTo services before property value base slot w ∧ slot.Frame before after ∧
      slot.Holds before after w ∧
      r.get services base property after = .ok (slot.answer w) after

namespace Heap

/-!
## Changed sequences and beans
-/

theorem sequence_setSequence_self {heap : Heap} {r : Ref} (hr : r < heap.sequences.size)
    (items : List Value) : (heap.setSequence r items).sequence r = items := by
  simp [setSequence, sequence, hr]

theorem sequence_setSequence_of_ne (heap : Heap) {r s : Ref} (h : s ≠ r) (items : List Value) :
    (heap.setSequence r items).sequence s = heap.sequence s := by
  simp [setSequence, sequence, h.symm]

/-- A sequence with elements is in the heap. -/
theorem lt_of_sequence {heap : Heap} {r : Ref} {i : Nat} (h : i < (heap.sequence r).length) :
    r < heap.sequences.size := by
  by_contra hr
  simp [sequence, hr] at h

theorem object_setObject_self {heap : Heap} {r : Ref} (hr : r < heap.objects.size)
    (bean : Bean) : (heap.setObject r bean).object r = bean := by
  simp [setObject, object, hr]

theorem object_setObject_of_ne (heap : Heap) {r s : Ref} (h : s ≠ r) (bean : Bean) :
    (heap.setObject r bean).object s = heap.object s := by
  simp [setObject, object, h.symm]

/-- A bean with a property is in the heap. -/
theorem lt_of_property? {heap : Heap} {r : Ref} {name : String} {p : Property}
    (h : (heap.object r).property? name = some p) : r < heap.objects.size := by
  by_contra hr
  simp [object, hr, Bean.property?] at h
  cases h

end Heap

namespace Bean

theorem map_name_store (bean : Bean) (x : String) (w : Value) :
    (bean.store x w).properties.map Property.name = bean.properties.map Property.name := by
  unfold store
  rw [List.map_map]
  refine List.map_congr_left fun p _ => ?_
  dsimp only [Function.comp]
  split <;> rfl

theorem getElem?_store_of_ne {bean : Bean} {x : String} {i : Nat} {p : Property}
    (hi : bean.properties[i]? = some p) (hne : p.name ≠ x) (w : Value) :
    (bean.store x w).properties[i]? = some p := by
  unfold store
  rw [List.getElem?_map, hi, Option.map_some, if_neg hne]

theorem property?_store {bean : Bean} {x : String} {p : Property}
    (h : bean.property? x = some p) (w : Value) :
    (bean.store x w).property? x = some { p with value := w } := by
  have hname : p.name = x := by simpa using List.find?_some h
  unfold property? store
  have hsame : ((fun q : Property => decide (q.name = x)) ∘ fun q =>
      if q.name = x then { q with value := w } else q) = fun q => decide (q.name = x) := by
    funext q
    dsimp only [Function.comp]
    split <;> rfl
  rw [List.find?_map, hsame]
  unfold property? at h
  rw [h, Option.map_some, if_pos hname]

end Bean

namespace Slot

/-!
## Frames of single changes
-/

theorem frame_define (before : World) (x : String) (value : Value) :
    (Slot.name x).Frame before (before.define x value) where
  scopes := rfl
  closures := rfl
  size := rfl
  beans := by
    intro y hy
    have hne : y ≠ x := by
      intro heq
      subst heq
      exact hy rfl
    unfold World.define
    split <;> simp [hne]
  entries _ _ _ := rfl
  elements _ _ _ := rfl
  className _ := rfl
  methods _ := rfl
  propertyNames _ := rfl
  properties _ _ _ h _ := h

theorem holds_define (before : World) (x : String) (value : Value) :
    (Slot.name x).Holds before (before.define x value) value := by
  unfold Holds World.define
  dsimp only
  split
  · rw [Table.find?_erase, if_pos rfl]
  · rw [Table.find?_insert, if_pos rfl]

/-- A map holds the stored value in an entry that was there or in a new one at the end. -/
theorem entry_stored (services : Services) {before : World} {r : Ref}
    (hr : r < before.heap.maps.size) {property value : Value} {entries : List (Value × Value)}
    (h : Assoc.insert? (before.heap.equalBeside? r) property value (before.heap.entries r) =
      some entries) :
    ∃ i, StoresTo services before property value (.map r) (.entry r i) value ∧
      (Slot.entry r i).Frame before { before with heap := before.heap.setEntries r entries } ∧
      (Slot.entry r i).Holds before { before with heap := before.heap.setEntries r entries }
        value := by
  have frame (i : Nat) (hi : ∀ j, j ≠ i → entries[j]? = (before.heap.entries r)[j]?) :
      (Slot.entry r i).Frame before { before with heap := before.heap.setEntries r entries } :=
    { scopes := rfl
      closures := rfl
      size := Heap.size_setEntries before.heap r entries
      beans := fun _ _ => rfl
      entries := by
        intro s j hslot
        rcases eq_or_ne s r with rfl | hs
        · have hj : j ≠ i := by
            intro heq
            subst heq
            exact hslot rfl
          rw [Heap.entries_setEntries_self hr]
          exact hi j hj
        · rw [Heap.entries_setEntries_of_ne before.heap hs]
      elements := fun _ _ _ => rfl
      className := fun _ => rfl
      methods := fun _ => rfl
      propertyNames := fun _ => rfl
      properties := fun _ _ _ h _ => h }
  rcases Assoc.insert?_changes h with ⟨i, k, v, hi, hkey, rfl⟩ | rfl
  · have hlength : i < (before.heap.entries r).length := (List.getElem?_eq_some_iff.mp hi).1
    have hequal : before.heap.equal k property = true :=
      Heap.equalBeside?_extends ⟨fun _ => rfl, fun _ _ => rfl⟩ rfl _ _ _ hkey
    refine ⟨i, .entry (Or.inl ⟨k, v, hi, hequal⟩), frame i ?_, k, ?_, ?_⟩
    · intro j hj
      rw [List.getElem?_set_ne hj.symm]
    · rw [Heap.entries_setEntries_self hr, List.getElem?_set_self hlength]
    · intro k' v' hi'
      rw [hi] at hi'
      cases hi'
      rfl
  · refine ⟨_, .entry (Or.inr rfl), frame _ ?_, property, ?_, ?_⟩
    · intro j hj
      rcases Nat.lt_or_gt_of_ne hj with hlt | hgt
      · exact List.getElem?_append_left hlt
      · rw [List.getElem?_eq_none (by simp; lia), List.getElem?_eq_none (by lia)]
    · rw [Heap.entries_setEntries_self hr, List.getElem?_concat_length]
    · intro k' v' hi'
      simp at hi'

theorem element_stored {before : World} {r : Ref} {i : Nat} {w : Value}
    (hi : i < (before.heap.sequence r).length) :
    (Slot.element r i).Frame before
        { before with heap := before.heap.setSequence r ((before.heap.sequence r).set i w) } ∧
      (Slot.element r i).Holds before
        { before with heap := before.heap.setSequence r ((before.heap.sequence r).set i w) } w := by
  have hr := Heap.lt_of_sequence hi
  constructor
  · exact
      { scopes := rfl
        closures := rfl
        size := by simp [Heap.size, Heap.setSequence]
        beans := fun _ _ => rfl
        entries := fun _ _ _ => rfl
        elements := by
          intro s j hslot
          rcases eq_or_ne s r with rfl | hs
          · have hj : i ≠ j := by
              intro heq
              subst heq
              exact hslot rfl
            rw [Heap.sequence_setSequence_self hr, List.getElem?_set_ne hj]
          · rw [Heap.sequence_setSequence_of_ne before.heap hs]
        className := fun _ => rfl
        methods := fun _ => rfl
        propertyNames := fun _ => rfl
        properties := fun _ _ _ h _ => h }
  · refine ⟨hi, ?_⟩
    rw [Heap.sequence_setSequence_self hr, List.getElem?_set_self hi]

theorem property_stored {before : World} {r : Ref} {x : String} {p : Property} {w : Value}
    (hp : (before.heap.object r).property? x = some p) :
    (Slot.property r x).Frame before
        { before with heap := before.heap.setObject r ((before.heap.object r).store x w) } ∧
      (Slot.property r x).Holds before
        { before with heap := before.heap.setObject r ((before.heap.object r).store x w) } w := by
  have hr := Heap.lt_of_property? hp
  have hself := Heap.object_setObject_self hr ((before.heap.object r).store x w)
  have hother {s : Ref} (hs : s ≠ r) :=
    Heap.object_setObject_of_ne before.heap hs ((before.heap.object r).store x w)
  constructor
  · exact
      { scopes := rfl
        closures := rfl
        size := by simp [Heap.size, Heap.setObject]
        beans := fun _ _ => rfl
        entries := fun _ _ _ => rfl
        elements := fun _ _ _ => rfl
        className := by
          intro s
          rcases eq_or_ne s r with rfl | hs
          · rw [hself]
            rfl
          · rw [hother hs]
        methods := by
          intro s
          rcases eq_or_ne s r with rfl | hs
          · rw [hself]
            rfl
          · rw [hother hs]
        propertyNames := by
          intro s
          rcases eq_or_ne s r with rfl | hs
          · rw [hself, Bean.map_name_store]
          · rw [hother hs]
        properties := by
          intro s i q hq hslot
          rcases eq_or_ne s r with rfl | hs
          · have hne : q.name ≠ x := by
              intro heq
              subst heq
              exact hslot rfl
            rw [hself]
            exact Bean.getElem?_store_of_ne hq hne w
          · rw [hother hs]
            exact hq }
  · refine ⟨p, hp, ?_⟩
    rw [hself]
    exact Bean.property?_store hp w

end Slot
end ExprLang
