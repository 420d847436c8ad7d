import ExprLang.Proofs.Conversion.Projection
import ExprLang.Proofs.Store.Slot

/-!
# Stores through the standard resolvers

Each standard resolver stores in one slot of its bases or changes nothing, and reads back what
it stored; so does the chain of them.
-/

namespace ExprLang
namespace Resolver

variable {options : ResolverOptions} {services : Services} {property value : Value}
  {before : World}

theorem bind_of_ok {α β : Type} {action : Action α} {next : α → Action β} {a : α}
    {world world' : World} (h : action world = .ok a world') :
    (action >>= next) world = next a world' := by
  simp only [bind, EStateM.bind, h]

theorem bind_of_error {α β : Type} {action : Action α} {next : α → Action β} {failure : Failure}
    {world world' : World} (h : action world = .error failure world') :
    (action >>= next) world = .error failure world' := by
  simp only [bind, EStateM.bind, h]

/-!
## Top-level names
-/

theorem names_get_string (x : String) (world : World) :
    (names options).get services .null (.string x) world =
      .ok (match world.beans.find? x with
        | some bean => .resolved bean
        | none => .unresolved) world := by
  have hget : (names options).get services .null (.string x) world =
      (match world.beans.find? x with
        | some bean => return .resolved bean
        | none => return .unresolved : Action (Resolution Value)) world := rfl
  rw [hget]
  cases world.beans.find? x <;> rfl

theorem names_store : (names options).StoresOneSlot services .null property value before := by
  unfold StoresOneSlot
  cases property with
  | string x =>
      rw [names_set_string]
      cases mayDefine options before x with
      | false => rfl
      | true =>
          cases options.readOnly with
          | true => rfl
          | false =>
              have hholds := Slot.holds_define before x value
              refine ⟨.name x, value, .name rfl, Slot.frame_define before x value, hholds, ?_⟩
              unfold Slot.Holds at hholds
              rw [names_get_string, hholds]
              cases value <;> rfl
  | _ =>
      rw [names_set_other (by simp)]

/-!
## Map entries
-/

theorem mapEntries_set {readOnly : Bool} (r : Ref) :
    (mapEntries readOnly).set services (.map r) property value before =
      if readOnly then
        .error (.error (.of (.propertyNotWritable (before.heap.text property)))) before
      else
        match Assoc.insert? (before.heap.equalBeside? r) property value
            (before.heap.entries r) with
        | some entries =>
          .ok (.resolved ()) { before with heap := before.heap.setEntries r entries }
        | none => .error .tooDeep before := by
  cases readOnly with
  | true => rfl
  | false =>
      have hset : (mapEntries false).set services (.map r) property value before =
          (match Assoc.insert? (before.heap.equalBeside? r) property value
              (before.heap.entries r) with
            | some entries => do
              World.changeHeap (·.setEntries r entries)
              return .resolved ()
            | none => throw .tooDeep : Action (Resolution Unit)) before := rfl
      rw [hset]
      cases Assoc.insert? (before.heap.equalBeside? r) property value (before.heap.entries r) <;>
        rfl

theorem mapEntries_store {readOnly : Bool} {r : Ref} (hr : r < before.heap.maps.size) :
    (mapEntries readOnly).StoresOneSlot services (.map r) property value before := by
  unfold StoresOneSlot
  rw [mapEntries_set]
  cases readOnly with
  | true => rfl
  | false =>
      cases hinsert : Assoc.insert? (before.heap.equalBeside? r) property value
          (before.heap.entries r) with
      | none => rfl
      | some entries =>
          rcases Slot.entry_stored services hr hinsert with ⟨i, hstores, hframe, hholds⟩
          refine ⟨.entry r i, value, hstores, hframe, hholds, ?_⟩
          have hget : (mapEntries false).get services (.map r) property
              { before with heap := before.heap.setEntries r entries } =
              .ok (.resolved ((Assoc.find? (before.heap.setEntries r entries).equal property
                ((before.heap.setEntries r entries).entries r)).getD .null))
                { before with heap := before.heap.setEntries r entries } := rfl
          rw [hget, Heap.find?_setEntries hr hinsert]
          rfl

/-!
## Elements of lists and arrays
-/

/-- A successful conversion to an integer does not depend on what the heap holds. -/
theorem toInt64_eq_ok {heap : Heap} (heap' : Heap) {n : Int64}
    (h : heap.toInt64 value = .ok n) : heap'.toInt64 value = .ok n := by
  unfold Heap.toInt64 at h ⊢
  cases value with
  | string s =>
      simp only [Heap.numeric, bind, Except.bind] at h ⊢
      split at h <;> simp_all [Heap.orCannotConvert_eq_ok]
  | bool b => cases h
  | _ => simpa [Heap.numeric, bind, Except.bind, Heap.orCannotConvert_eq_ok] using h

theorem position_eq_ok {heap : Heap} (heap' : Heap) {position : Int64}
    (h : heap.position property = .ok position) : heap'.position property = .ok position := by
  unfold Heap.position at h ⊢
  split at h
  · exact h
  · exact toInt64_eq_ok heap' h
  · exact toInt64_eq_ok heap' h
  · split at h
    · rename_i hnumber
      simp only [hnumber, if_true]
      exact toInt64_eq_ok heap' h
    · cases h

theorem within?_lt {position : Int64} {count i : Nat} (h : within? position count = some i) :
    i < count := by
  unfold within? at h
  split at h
  · rename_i hrange
    simp only [Bool.and_eq_true, decide_eq_true_eq] at hrange
    cases h
    lia
  · cases h

theorem positionIn_eq (typeName : String) (property : Value) (world : World) :
    positionIn typeName property world =
      match world.heap.position property with
      | .ok position => .ok position world
      | .error _ => .error (.error (.of (.propertyNotFound (world.heap.display property)
          (some typeName)))) world := by
  have hrun : positionIn typeName property world =
      (match world.heap.position property with
        | .ok position => return position
        | .error _ => .fail (.propertyNotFound (world.heap.display property) (some typeName)) :
          Action Int64) world := rfl
  rw [hrun]
  cases world.heap.position property <;> rfl

theorem storeAt_eq (typeName : String) (r : Ref) (position : Int64) (value : Value)
    (world : World) :
    storeAt typeName r position value world =
      match within? position (world.heap.sequence r).length with
      | some i => .ok () { world with
          heap := world.heap.setSequence r ((world.heap.sequence r).set i value) }
      | none => .error (.error (.of (outside typeName position))) world := by
  have hrun : storeAt typeName r position value world =
      (match within? position (world.heap.sequence r).length with
        | some i => World.changeHeap fun heap => heap.setSequence r ((heap.sequence r).set i value)
        | none => .fail (outside typeName position) : Action Unit) world := rfl
  rw [hrun]
  cases within? position (world.heap.sequence r).length <;> rfl

/-- What was stored at a position is found there. -/
theorem elementAt_stored (typeName : String) {r : Ref} {position : Int64} {i : Nat}
    (hposition : before.heap.position property = .ok position)
    (hwithin : within? position (before.heap.sequence r).length = some i) (w : Value) :
    elementAt typeName r property
        { before with heap := before.heap.setSequence r ((before.heap.sequence r).set i w) } =
      .ok w
        { before with heap := before.heap.setSequence r ((before.heap.sequence r).set i w) } := by
  have hi := within?_lt hwithin
  have hsequence := Heap.sequence_setSequence_self (Heap.lt_of_sequence hi)
    ((before.heap.sequence r).set i w)
  generalize hheap : before.heap.setSequence r ((before.heap.sequence r).set i w) = heap
  rw [hheap] at hsequence
  have hrun : positionIn typeName property { before with heap } =
      .ok position { before with heap } := by
    rw [positionIn_eq, position_eq_ok heap hposition]
  unfold elementAt
  rw [bind_of_ok hrun]
  change (match within? position (heap.sequence r).length with
    | some i => return (heap.sequence r).getD i .null
    | none => return .null : Action Value) { before with heap } = _
  rw [hsequence, List.length_set, hwithin]
  have hread : ((before.heap.sequence r).set i w).getD i .null = w := by
    rw [List.getD_eq_getElem?_getD, List.getElem?_set_self hi]
    rfl
  change EStateM.Result.ok (((before.heap.sequence r).set i w).getD i .null) _ = _
  rw [hread]

theorem listElements_store {readOnly : Bool} {r : Ref} :
    (listElements readOnly).StoresOneSlot services (.list r) property value before := by
  unfold StoresOneSlot
  cases readOnly with
  | true => rfl
  | false =>
      have hset : (listElements false).set services (.list r) property value =
          (do
            let position ← positionIn "List" property
            return .resolved (← storeAt "List" r position value)) := rfl
      rw [hset]
      simp only [bind, EStateM.bind, positionIn_eq]
      cases hposition : before.heap.position property with
      | error error => rfl
      | ok position =>
          simp only [storeAt_eq]
          cases hwithin : within? position (before.heap.sequence r).length with
          | none => rfl
          | some i =>
              obtain ⟨hframe, hholds⟩ := Slot.element_stored (w := value) (within?_lt hwithin)
              refine ⟨.element r i, value, .listElement hposition hwithin, hframe, hholds, ?_⟩
              exact bind_of_ok (elementAt_stored "List" hposition hwithin value)

/-- A conversion changes nothing. -/
theorem coerce_eq (services : Services) (value : Value) (type : ValueType) (world : World) :
    services.coerce value type world =
      match world.heap.coerce services.converters value type with
      | .ok w => .ok w world
      | .error error => .error (.error error) world := by
  have hrun : services.coerce value type world =
      (Action.ofExcept (world.heap.coerce services.converters value type) : Action Value)
        world := rfl
  rw [hrun]
  cases world.heap.coerce services.converters value type <;> rfl

theorem arrayElements_set {readOnly : Bool} {component : ValueType} {r : Ref} :
    (arrayElements readOnly).set services (.array component r) property value before =
      if readOnly || isLength property then
        .error (.error (.of (.propertyNotWritable (before.heap.display property)))) before
      else
        (do
          let position ← positionIn "Array" property
          let value ← services.coerce value component
          return .resolved (← storeAt "Array" r position value) :
            Action (Resolution Unit)) before := by
  change (if readOnly || isLength property then _ else _ : Action (Resolution Unit)) before = _
  cases readOnly || isLength property <;> rfl

theorem arrayElements_store {readOnly : Bool} {component : ValueType} {r : Ref} :
    (arrayElements readOnly).StoresOneSlot services (.array component r) property value
      before := by
  unfold StoresOneSlot
  rw [arrayElements_set]
  cases hrefused : readOnly || isLength property with
  | true => rfl
  | false =>
      rw [if_neg Bool.false_ne_true]
      simp only [bind, EStateM.bind, positionIn_eq]
      cases hposition : before.heap.position property with
      | error error => rfl
      | ok position =>
          simp only [coerce_eq]
          cases hcoerce : before.heap.coerce services.converters value component with
          | error error => rfl
          | ok w =>
              simp only [storeAt_eq]
              cases hwithin : within? position (before.heap.sequence r).length with
              | none => rfl
              | some i =>
                  have hlength : isLength property = false := (Bool.or_eq_false_iff.mp hrefused).2
                  obtain ⟨hframe, hholds⟩ := Slot.element_stored (w := w) (within?_lt hwithin)
                  refine ⟨.element r i, w, .arrayElement hposition hwithin hcoerce, hframe,
                    hholds, ?_⟩
                  change (if isLength property then _ else _ : Action (Resolution Value)) _ = _
                  rw [hlength, if_neg Bool.false_ne_true]
                  exact bind_of_ok (elementAt_stored "Array" hposition hwithin w)

/-!
## Properties of beans
-/

theorem beanProperty_eq (r : Ref) (property : Value) (world : World) :
    beanProperty r property world =
      match (world.heap.object r).property? (world.heap.text property) with
      | some p => .ok p world
      | none => .error (.error (.of (.propertyNotFound (world.heap.text property)
          (some (world.heap.object r).className)))) world := by
  have hrun : beanProperty r property world =
      (match (world.heap.object r).property? (world.heap.text property) with
        | some p => return p
        | none => .fail (.propertyNotFound (world.heap.text property)
            (some (world.heap.object r).className)) : Action Property) world := rfl
  rw [hrun]
  cases (world.heap.object r).property? (world.heap.text property) <;> rfl

theorem storeProperty_eq {heap : Heap} {r : Ref} {x : String} {p : Property}
    (hp : (heap.object r).property? x = some p) (hwritable : p.readOnly = false) (w : Value) :
    heap.storeProperty r x w = .ok (heap.setObject r ((heap.object r).store x w)) := by
  unfold Heap.storeProperty
  simp only [hp, hwritable, if_neg Bool.false_ne_true]

/-- What was stored in a property is found there. -/
theorem beanProperty_stored {r : Ref} {p : Property}
    (hp : (before.heap.object r).property? (before.heap.text property) = some p) (w : Value) :
    beanProperty r property { before with
        heap := before.heap.setObject r ((before.heap.object r).store p.name w) } =
      .ok { p with value := w } { before with
        heap := before.heap.setObject r ((before.heap.object r).store p.name w) } := by
  have hname : p.name = before.heap.text property := by simpa using List.find?_some hp
  have hr := Heap.lt_of_property? hp
  have hself := Heap.object_setObject_self hr ((before.heap.object r).store p.name w)
  generalize hheap : before.heap.setObject r ((before.heap.object r).store p.name w) = heap
  rw [hheap] at hself
  have hshows : Heap.ShowsBeside r before.heap heap := by
    subst hheap
    exact ⟨fun _ => rfl, fun _ => rfl, fun _ => rfl,
      fun s hs => Heap.object_setObject_of_ne before.heap hs _⟩
  have hsize : heap.size = before.heap.size := by
    subst hheap
    simp [Heap.size, Heap.setObject]
  have htext : heap.text property = before.heap.text property :=
    Heap.text_eq_of_names hshows hsize hp
  have hfound := Bean.property?_store (hname ▸ hp) w
  rw [beanProperty_eq]
  simp only [htext, hself, ← hname, hfound]

theorem beanProperties_set {readOnly : Bool} {r : Ref} {p : Property}
    (hp : (before.heap.object r).property? (before.heap.text property) = some p) :
    (beanProperties readOnly).set services (.bean r) property value before =
      if readOnly || p.readOnly then
        .error (.error (.of (.propertyNotWritable p.name))) before
      else
        match before.heap.coerce services.converters value p.type with
        | .ok w => .ok (.resolved ()) { before with
            heap := before.heap.setObject r ((before.heap.object r).store p.name w) }
        | .error error => .error (.error error) before := by
  have hplace : beanProperty r property before = .ok p before := by
    rw [beanProperty_eq, hp]
  change (beanProperty r property >>= _) before = _
  rw [bind_of_ok hplace]
  cases hrefused : readOnly || p.readOnly with
  | true => rfl
  | false =>
      rw [if_neg Bool.false_ne_true, if_neg Bool.false_ne_true]
      have hcoerce := coerce_eq services value p.type before
      cases hconverted : before.heap.coerce services.converters value p.type with
      | error error =>
          rw [hconverted] at hcoerce
          exact bind_of_error hcoerce
      | ok w =>
          rw [hconverted] at hcoerce
          have hwritable : p.readOnly = false := (Bool.or_eq_false_iff.mp hrefused).2
          have hname : p.name = before.heap.text property := by simpa using List.find?_some hp
          have hstore := storeProperty_eq (hname ▸ hp) hwritable w
          rw [bind_of_ok hcoerce]
          change (Action.ofExcept (before.heap.storeProperty r p.name w) >>= _) before = _
          rw [hstore]
          rfl

theorem beanProperties_store {readOnly : Bool} {r : Ref} :
    (beanProperties readOnly).StoresOneSlot services (.bean r) property value before := by
  unfold StoresOneSlot
  cases hp : (before.heap.object r).property? (before.heap.text property) with
  | none =>
      have hplace := beanProperty_eq r property before
      rw [hp] at hplace
      have hset : (beanProperties readOnly).set services (.bean r) property value before =
          .error (.error (.of (.propertyNotFound (before.heap.text property)
            (some (before.heap.object r).className)))) before := bind_of_error hplace
      rw [hset]
  | some p =>
      rw [beanProperties_set hp]
      cases hrefused : readOnly || p.readOnly with
      | true => rfl
      | false =>
          rw [if_neg Bool.false_ne_true]
          cases hcoerce : before.heap.coerce services.converters value p.type with
          | error error => rfl
          | ok w =>
              have hwritable : p.readOnly = false := (Bool.or_eq_false_iff.mp hrefused).2
              have hname : p.name = before.heap.text property := by
                simpa using List.find?_some hp
              obtain ⟨hframe, hholds⟩ := Slot.property_stored (w := w) (hname ▸ hp)
              refine ⟨.property r p.name, w, .property hp hwritable hcoerce, hframe, hholds, ?_⟩
              exact bind_of_ok (beanProperty_stored hp w)

/-!
## The chain
-/

theorem classMembers_store {name : String} {number : Nat} :
    classMembers.StoresOneSlot services (.classRef name number) property value before := by
  unfold StoresOneSlot
  rfl

theorem leaves_store {r : Resolver} {base : Value} (h : r.Leaves base) :
    r.StoresOneSlot services base property value before := by
  unfold StoresOneSlot
  rw [h.set]
  rfl

theorem handler_store {base : Value}
    (hbase : ∀ r, base = .map r → r < before.heap.maps.size) :
    (handler options base).StoresOneSlot services base property value before := by
  cases base with
  | null => exact names_store
  | classRef name number => exact classMembers_store
  | map r => exact mapEntries_store (hbase r rfl)
  | list r => exact listElements_store
  | array component r => exact arrayElements_store
  | bean r => exact beanProperties_store
  | _ => exact leaves_store (textMethods_leaves _)

/-- A store through the standard resolvers, under any options, fails or is declined and then
changes nothing, or it changes one slot, and the property then reads back as what the slot
holds.  A map on which something is stored is one of the maps of the heap. -/
theorem standard_storesOneSlot (options : ResolverOptions) (services : Services)
    (base property value : Value) (before : World)
    (hbase : ∀ r, base = .map r → r < before.heap.maps.size) :
    (chain (standard options)).StoresOneSlot services base property value before := by
  have hhandler : (handler options base).StoresOneSlot services base property value before :=
    handler_store hbase
  unfold StoresOneSlot at hhandler ⊢
  rw [standard_set, standard_get]
  exact hhandler

/-- A first entry of an empty map is stored and read back. -/
theorem standard_stores_first_entry :
    let services : Services := ⟨.empty, #[], .empty, fun _ _ => pure .null⟩
    let resolver := chain (standard ⟨false, true⟩)
    let before : World := { (default : World) with heap := (Heap.empty.addMap []).2 }
    ∃ after, resolver.set services (.map 0) (.string "k") (.long 1) before =
        .ok (.resolved ()) after ∧
      resolver.get services (.map 0) (.string "k") after = .ok (.resolved (.long 1)) after := by
  intro services resolver before
  have hstores := standard_storesOneSlot ⟨false, true⟩ services (.map 0) (.string "k") (.long 1)
    before (by
      intro r hr
      cases hr
      decide)
  unfold StoresOneSlot at hstores
  have hset : resolver.set services (.map 0) (.string "k") (.long 1) before =
      .ok (.resolved ()) { before with
        heap := before.heap.setEntries 0 [(.string "k", .long 1)] } := by
    rw [standard_set]
    exact mapEntries_set 0
  refine ⟨_, hset, ?_⟩
  rw [hset] at hstores
  rcases hstores with ⟨slot, w, hslot, _, _, hget⟩
  cases hslot
  exact hget

end Resolver
end ExprLang
