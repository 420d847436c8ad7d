import ExprLang.Proofs.Evaluation.Discipline

/-!
# Disciplines of the standard resolvers

The standard resolvers look at the heap and at the beans, allocate, store in one place, convert
and call what they are given to call.  They keep every discipline that such steps keep, and
those that refuse all stores need no rule for stores.
-/

namespace ExprLang

open Discipline (Any)

/-!
## Collections

The lambdas that are passed to a method keep the discipline; so does each walk over the
elements, by induction on the elements.
-/

namespace Collection

variable {d : Discipline} (h : d.Compositional) {stage : d.Stage}

/-- Every application of the lambda keeps the discipline. -/
def Lambda.Keeps (lambda : Lambda) (d : Discipline) : Prop :=
  ∀ stage args world, d.AdmitsAll stage args → d.Run stage d.Admits (lambda args) world

section Walks

variable {lambda : Lambda} (hlambda : lambda.Keeps d)

include hlambda in
theorem Lambda.Keeps.one {item : Value} (hitem : d.Admits stage item) (world : World) :
    d.Run stage d.Admits (lambda [item]) world :=
  hlambda stage [item] world (List.forall_mem_singleton.mpr hitem)

include hlambda in
theorem Lambda.Keeps.two {a b : Value} (ha : d.Admits stage a) (hb : d.Admits stage b)
    (world : World) : d.Run stage d.Admits (lambda [a, b]) world :=
  hlambda stage [a, b] world
    (List.forall_mem_cons.mpr ⟨ha, List.forall_mem_singleton.mpr hb⟩)

include h hlambda

theorem filtered_keeps {items : List Value} (hitems : d.AdmitsAll stage items) (world : World) :
    d.Run stage d.AdmitsAll (filtered lambda items) world := by
  induction items generalizing stage world with
  | nil => exact h.pure (List.forall_mem_nil _)
  | cons item rest ih =>
      obtain ⟨hitem, hrest⟩ := List.forall_mem_cons.mp hitems
      apply h.bind (hlambda.one hitem world)
      intro s₁ value w₁ hs₁ _ _
      apply h.bind (h.truth value)
      intro s₂ keep w₂ hs₂ _ _
      have hs := h.trans hs₁ hs₂
      refine h.bindPure (ih (h.laterAll hs hrest) w₂) ?_
      intro s₃ kept hs₃ hkept
      split
      · exact List.forall_mem_cons.mpr ⟨h.later (h.trans hs hs₃) hitem, hkept⟩
      · exact hkept

theorem mapped_keeps {items : List Value} (hitems : d.AdmitsAll stage items) (world : World) :
    d.Run stage d.AdmitsAll (mapped lambda items) world := by
  induction items generalizing stage world with
  | nil => exact h.pure (List.forall_mem_nil _)
  | cons item rest ih =>
      obtain ⟨hitem, hrest⟩ := List.forall_mem_cons.mp hitems
      apply h.bind (hlambda.one hitem world)
      intro s₁ image w₁ hs₁ himage _
      refine h.bindPure (ih (h.laterAll hs₁ hrest) w₁) ?_
      intro s₂ images hs₂ himages
      exact List.forall_mem_cons.mpr ⟨h.later hs₂ himage, himages⟩

theorem folded_keeps {acc : Value} (hacc : d.Admits stage acc) {items : List Value}
    (hitems : d.AdmitsAll stage items) (world : World) :
    d.Run stage d.Admits (folded lambda acc items) world := by
  induction items generalizing stage acc world with
  | nil => exact h.pure hacc
  | cons item rest ih =>
      obtain ⟨hitem, hrest⟩ := List.forall_mem_cons.mp hitems
      apply h.bind (hlambda.two hacc hitem world)
      intro s₁ acc w₁ hs₁ hacc _
      exact ih hacc (h.laterAll hs₁ hrest) w₁

theorem someIs_keeps (wanted : Bool) {items : List Value} (hitems : d.AdmitsAll stage items)
    (world : World) : d.Run stage Any (someIs wanted lambda items) world := by
  induction items generalizing stage world with
  | nil => exact h.pure trivial
  | cons item rest ih =>
      obtain ⟨hitem, hrest⟩ := List.forall_mem_cons.mp hitems
      apply h.bind (hlambda.one hitem world)
      intro s₁ value w₁ hs₁ _ _
      apply h.bind (h.truth value)
      intro s₂ b w₂ hs₂ _ _
      split
      · exact h.pure trivial
      · exact ih (h.laterAll (h.trans hs₁ hs₂) hrest) w₂

theorem someIsOfAll_keeps (wanted : Bool) {items : List Value}
    (hitems : d.AdmitsAll stage items) (world : World) :
    d.Run stage Any (someIsOfAll wanted lambda items) world := by
  induction items generalizing stage world with
  | nil => exact h.pure trivial
  | cons item rest ih =>
      obtain ⟨hitem, hrest⟩ := List.forall_mem_cons.mp hitems
      apply h.bind (hlambda.one hitem world)
      intro s₁ value w₁ hs₁ _ _
      apply h.bind (h.truth value)
      intro s₂ b w₂ hs₂ _ _
      exact h.bindPure (ih (h.laterAll (h.trans hs₁ hs₂) hrest) w₂) fun _ _ _ _ => trivial

end Walks

section Order

variable {comparator : Option Lambda}
  (hcomparator : ∀ lambda, comparator = some lambda → lambda.Keeps d)

include h hcomparator

theorem order_keeps {a b : Value} (ha : d.Admits stage a) (hb : d.Admits stage b)
    (world : World) : d.Run stage Any (order comparator a b) world := by
  cases comparator with
  | none =>
      apply h.heapNow
      intro _
      exact h.bindPure (h.ofExcept fun _ _ => trivial) fun _ _ _ (_ : True) => trivial
  | some lambda =>
      apply h.bind ((hcomparator lambda rfl).two ha hb world)
      intro s₁ sign w₁ _ _ _
      apply h.heapNow
      intro _
      exact h.bindPure (h.ofExcept fun _ _ => trivial) fun _ _ _ (_ : True) => trivial

theorem extreme_keeps (wanted : Ordering) {best : Value} (hbest : d.Admits stage best)
    {items : List Value} (hitems : d.AdmitsAll stage items) (world : World) :
    d.Run stage d.Admits (extreme comparator wanted best items) world := by
  induction items generalizing stage best world with
  | nil => exact h.pure hbest
  | cons item rest ih =>
      obtain ⟨hitem, hrest⟩ := List.forall_mem_cons.mp hitems
      apply h.bind (order_keeps h hcomparator hitem hbest world)
      intro s₁ ordering w₁ hs₁ _ _
      split
      · exact ih (h.later hs₁ hitem) (h.laterAll hs₁ hrest) w₁
      · exact ih (h.later hs₁ hbest) (h.laterAll hs₁ hrest) w₁

theorem place_keeps {item : Value} (hitem : d.Admits stage item) (failure : Option EvalError)
    {items : List Value} (hitems : d.AdmitsAll stage items) (world : World) :
    d.Run stage (fun stage' sorting => d.AdmitsAll stage' sorting.reversed)
      (place comparator item failure items) world := by
  induction items generalizing stage world with
  | nil => exact h.pure (List.forall_mem_singleton.mpr hitem)
  | cons greatest rest ih =>
      obtain ⟨hgreatest, hrest⟩ := List.forall_mem_cons.mp hitems
      apply h.bind (h.attempt (order_keeps h hcomparator hitem hgreatest world))
      intro s₁ ordering w₁ hs₁ _ _
      have hplaced : d.AdmitsAll s₁ (item :: greatest :: rest) :=
        List.forall_mem_cons.mpr ⟨h.later hs₁ hitem, h.laterAll hs₁ hitems⟩
      split
      · refine h.bindPure (ih (h.later hs₁ hitem) (h.laterAll hs₁ hrest) w₁) ?_
        intro s₂ sorting hs₂ hsorting
        exact List.forall_mem_cons.mpr ⟨h.later (h.trans hs₁ hs₂) hgreatest, hsorting⟩
      · exact h.pure hplaced
      · exact h.pure hplaced

theorem sorted_keeps {items : List Value} (hitems : d.AdmitsAll stage items) (world : World) :
    d.Run stage d.AdmitsAll (sorted comparator items) world := by
  have hplaced (stage : d.Stage) (hitems : d.AdmitsAll stage items) (sorting : Sorting)
      (hsorting : d.AdmitsAll stage sorting.reversed) (world : World) :
      d.Run stage (fun stage' sorting => d.AdmitsAll stage' sorting.reversed)
        (items.foldlM (fun sorting item =>
          place comparator item sorting.failure sorting.reversed) sorting) world := by
    clear * - h hcomparator hitems hsorting
    induction items generalizing stage sorting world with
    | nil => exact h.pure hsorting
    | cons item rest ih =>
        obtain ⟨hitem, hrest⟩ := List.forall_mem_cons.mp hitems
        rw [List.foldlM_cons]
        apply h.bind (place_keeps h hcomparator hitem _ hsorting world)
        intro s₁ sorting w₁ hs₁ hsorting _
        exact ih s₁ (h.laterAll hs₁ hrest) sorting hsorting w₁
  apply h.bind (hplaced stage hitems ⟨[], none⟩ (List.forall_mem_nil _) world)
  intro s₁ sorting w₁ _ hsorting _
  split
  · exact h.throw _ w₁
  · exact h.pure fun value hvalue => hsorting value (List.mem_reverse.mp hvalue)

end Order

include h

theorem countArg_keeps (arg : Value) (world : World) :
    d.Run stage Any (countArg arg) world := by
  apply h.heapNow
  intro _
  exact h.bindPure (h.ofExcept fun _ _ => trivial) fun _ _ _ (_ : True) => trivial

theorem query_keeps {items : List Value} (hitems : d.AdmitsAll stage items) (heap : Heap)
    (method : CollectionMethod) (world : World) :
    d.Run stage d.Admits (query items heap method) world := by
  unfold query
  split
  · exact h.pure (h.scalar rfl)
  · exact h.ofScalar (total_scalar heap items)
  · split
    · exact h.pure (h.scalar rfl)
    · exact h.bindPure (h.ofExcept fun _ _ => trivial) fun _ _ _ (_ : True) => h.scalar rfl
  · exact h.newList fun value hvalue => hitems value (Assoc.mem_of_mem_distinct hvalue)
  · exact h.pure (h.headD hitems)
  · exact h.pure (h.scalar rfl)
  · exact h.pure (h.scalar rfl)
  · exact h.newList hitems

variable {services : Services} (hservices : services.Keep d)

include hservices

/-- What is done with a lambda that was passed keeps the discipline if it does with every lambda
that does. -/
theorem withLambda_keeps {α : Type} {post : d.Stage → α → Prop} {next : Lambda → Action α}
    {name : String} {arg : Value} {world : World}
    (hnext : ∀ stage' lambda, d.Later stage stage' → Lambda.Keeps lambda d →
      d.Run stage' post (next lambda) world) :
    d.Run stage post (lambdaArg services name arg >>= next) world := by
  have hlambda : d.Run stage (fun _ (lambda : Lambda) => lambda.Keeps d)
      (lambdaArg services name arg) world := by
    cases arg with
    | lambda r => exact h.pure fun stage args world => hservices.invoke stage r args world
    | _ => exact h.throw _ world
  apply h.bind hlambda
  intro stage' lambda after hlater hkeeps hrun
  have hworld : after = world := by
    cases arg <;> cases hrun
    rfl
  rw [hworld]
  exact hnext stage' lambda hlater hkeeps

theorem withComparator_keeps {α : Type} {post : d.Stage → α → Prop}
    {next : Option Lambda → Action α} {name : String} {args : List Value} {world : World}
    (hnext : ∀ stage' comparator, d.Later stage stage' →
      (∀ lambda, comparator = some lambda → Lambda.Keeps lambda d) →
      d.Run stage' post (next comparator) world) :
    d.Run stage post (lambdaArg? services name args >>= next) world := by
  cases args with
  | nil =>
      have hnone := hnext stage none (h.refl stage) (fun _ hlambda => by cases hlambda)
      rw [lambdaArg?, pure_bind]
      exact hnone
  | cons arg rest =>
      unfold lambdaArg?
      rw [bind_map_left]
      apply withLambda_keeps h hservices
      intro stage' lambda hlater hlambda
      apply hnext stage' _ hlater
      intro other hother
      cases hother
      exact hlambda

theorem run_keeps (method : CollectionMethod) (name : String) {items args : List Value}
    (hitems : d.AdmitsAll stage items) (hargs : d.AdmitsAll stage args) (world : World) :
    d.Run stage d.Admits (run services method name items args) world := by
  unfold run
  dsimp only
  split
  · apply withLambda_keeps h hservices
    intro s₁ lambda hs₁ hlambda
    apply h.bind (filtered_keeps h hlambda (h.laterAll hs₁ hitems) world)
    intro s₂ kept w₂ _ hkept _
    exact h.newList hkept
  · apply withLambda_keeps h hservices
    intro s₁ lambda hs₁ hlambda
    apply h.bind (mapped_keeps h hlambda (h.laterAll hs₁ hitems) world)
    intro s₂ images w₂ _ himages _
    exact h.newList himages
  · apply withLambda_keeps h hservices
    intro s₁ lambda hs₁ hlambda
    exact h.bindPure (mapped_keeps h hlambda (h.laterAll hs₁ hitems) world)
      fun _ _ _ _ => h.scalar rfl
  · split
    · exact h.pure (h.scalar rfl)
    · apply withLambda_keeps h hservices
      intro s₁ lambda hs₁ hlambda
      obtain ⟨hhead, hrest⟩ := List.forall_mem_cons.mp (h.laterAll hs₁ hitems)
      exact folded_keeps h hlambda hhead hrest world
  · apply withLambda_keeps h hservices
    intro s₁ lambda hs₁ hlambda
    have hidentity := (List.forall_mem_cons.mp (h.laterAll hs₁ hargs)).1
    exact folded_keeps h hlambda hidentity (h.laterAll hs₁ hitems) world
  · apply withLambda_keeps h hservices
    intro s₁ lambda hs₁ hlambda
    exact h.bindPure (someIs_keeps h hlambda true (h.laterAll hs₁ hitems) world)
      fun _ _ _ _ => h.scalar rfl
  · apply withLambda_keeps h hservices
    intro s₁ lambda hs₁ hlambda
    exact h.bindPure (someIs_keeps h hlambda false (h.laterAll hs₁ hitems) world)
      fun _ _ _ _ => h.scalar rfl
  · apply withLambda_keeps h hservices
    intro s₁ lambda hs₁ hlambda
    exact h.bindPure (someIsOfAll_keeps h hlambda true (h.laterAll hs₁ hitems) world)
      fun _ _ _ _ => h.scalar rfl
  · apply h.bind (countArg_keeps h _ world)
    intro s₁ n w₁ hs₁ _ _
    exact h.newList fun value hvalue => h.later hs₁ (hitems value (List.mem_of_mem_take hvalue))
  · apply h.bind (countArg_keeps h _ world)
    intro s₁ n w₁ hs₁ _ _
    exact h.newList fun value hvalue => h.later hs₁ (hitems value (List.mem_of_mem_drop hvalue))
  · exact h.heapNow fun _ => h.pure (h.scalar rfl)
  · apply withComparator_keeps h hservices
    intro s₁ comparator hs₁ hcomparator
    split
    · exact h.pure (h.scalar rfl)
    · obtain ⟨hhead, hrest⟩ := List.forall_mem_cons.mp (h.laterAll hs₁ hitems)
      exact extreme_keeps h hcomparator .lt hhead hrest world
  · apply withComparator_keeps h hservices
    intro s₁ comparator hs₁ hcomparator
    split
    · exact h.pure (h.scalar rfl)
    · obtain ⟨hhead, hrest⟩ := List.forall_mem_cons.mp (h.laterAll hs₁ hitems)
      exact extreme_keeps h hcomparator .gt hhead hrest world
  · apply withComparator_keeps h hservices
    intro s₁ comparator hs₁ hcomparator
    apply h.bind (sorted_keeps h hcomparator (h.laterAll hs₁ hitems) world)
    intro s₂ items w₂ _ hitems _
    exact h.newList hitems
  · exact h.heapNow fun _ => query_keeps h hitems _ _ world

end Collection

/-!
## Steps that leave the world alone
-/

theorem Action.ofExcept_eq_ok {α : Type} {answer : Except EvalError α} {a : α}
    {world after : World} (h : Action.ofExcept answer world = .ok a after) :
    answer = .ok a ∧ after = world := by
  cases answer with
  | ok b =>
      cases h
      exact ⟨rfl, rfl⟩
  | error error => cases h

theorem Services.coerce_eq_ok {services : Services} {value result : Value} {type : ValueType}
    {world after : World} (h : services.coerce value type world = .ok result after) :
    world.heap.coerce services.converters value type = .ok result ∧ after = world :=
  Action.ofExcept_eq_ok h

theorem Heap.storeProperty_eq_ok {heap heap' : Heap} {r : Ref} {name : String} {value : Value}
    (h : heap.storeProperty r name value = .ok heap') :
    heap' = heap.setObject r ((heap.object r).store name value) := by
  unfold Heap.storeProperty at h
  dsimp only at h
  split at h
  · cases h
  · split at h
    · cases h
    · cases h
      rfl

namespace Resolver

theorem beanProperty_eq_ok {r : Ref} {name : Value} {place : Property} {world after : World}
    (h : beanProperty r name world = .ok place after) :
    (world.heap.object r).property? place.name = some place ∧ after = world := by
  rw [beanProperty, World.text_bind, World.heapNow_bind] at h
  cases hproperty : (world.heap.object r).property? (world.heap.text name) with
  | none =>
      rw [hproperty] at h
      cases h
  | some property =>
      rw [hproperty] at h
      cases h
      have hname : place.name = world.heap.text name := by
        simpa using List.find?_some hproperty
      exact ⟨hname ▸ hproperty, rfl⟩

/-!
## Single resolvers
-/

section Single

variable {d : Discipline} (h : d.Compositional) {services : Services}
  (hservices : services.Keep d) {stage : d.Stage}

include h

theorem positionIn_keeps (typeName : String) (property : Value) (world : World) :
    d.Run stage Any (positionIn typeName property) world := by
  apply h.heapNow
  intro _
  split
  · exact h.pure trivial
  · exact h.fail _

theorem elementAt_keeps (typeName : String) (r : Ref) (property : Value) (world : World) :
    d.Run stage d.Admits (elementAt typeName r property) world := by
  apply h.bind (positionIn_keeps h typeName property world)
  intro s₁ position w₁ _ _ _
  apply h.heapNow
  intro hsound
  dsimp only
  split
  · exact h.pure (h.getD (h.sequence r hsound) _)
  · exact h.pure (h.scalar rfl)

theorem elementType_keeps (typeName : String) (r : Ref) (property : Value) (type : ValueType)
    (world : World) : d.Run stage Any (elementType typeName r property type) world := by
  apply h.bind (positionIn_keeps h typeName property world)
  intro s₁ position w₁ _ _ _
  apply h.heapNow
  intro _
  split
  · exact h.pure trivial
  · exact h.fail _

omit h in
theorem storeAt_keeps (hstoring : d.Storing) (typeName : String) {r : Ref} (position : Int64)
    {value : Value} {world : World}
    (hstored : ∀ i, d.Stored stage world.heap
      (world.heap.setSequence r ((world.heap.sequence r).set i value))) :
    d.Run stage Any (storeAt typeName r position value) world := by
  apply hstoring.heapNow
  intro _
  dsimp only
  split
  · rename_i i _
    exact hstoring.changeHeap (hstored i)
  · exact hstoring.fail _

theorem beanProperty_keeps (r : Ref) (name : Value) (world : World) :
    d.Run stage (fun stage' place => d.Admits stage' place.value) (beanProperty r name)
      world := by
  apply h.bind (h.text name)
  intro s₁ name w₁ _ _ _
  apply h.heapNow
  intro hsound
  dsimp only
  split
  · rename_i place hplace
    exact h.pure (h.property hsound (List.mem_of_find?_eq_some hplace))
  · exact h.fail _

theorem silent_keeps (name : String) : (silent name).Keeps d where
  get _ _ _ _ _ _ _ _ := h.pure trivial
  type _ _ _ _ _ _ _ _ := h.pure trivial
  set _ _ _ _ _ _ _ _ _ _ := h.pure trivial
  readOnly _ _ _ _ _ _ _ _ := h.pure trivial
  invoke _ _ _ _ _ _ _ _ _ := h.pure trivial

theorem collectionMethods_keeps : collectionMethods.Keeps d :=
  { silent_keeps h "stream" with
    invoke := by
      intro services hservices stage base method args world _ hargs
      apply h.heapNow
      intro hsound
      split
      · rename_i items _ hitems _
        split
        split
        · exact h.fail _
        · have hadmitted : d.AdmitsAll stage items := by
            cases base <;> cases hitems <;> exact h.sequence _ hsound
          exact h.bindPure (Collection.run_keeps h hservices _ method hadmitted hargs world)
            fun _ _ _ hvalue => hvalue
      · exact h.pure trivial }

theorem textMethods_keeps : textMethods.Keeps d :=
  { silent_keeps h "string" with
    invoke := by
      intro services _ stage base method args world _ _
      unfold textMethods
      dsimp only
      split
      · apply h.heapNow
        intro _
        exact h.bindPure (h.ofScalar (TextMethod.run_scalar _ _ _ _ _)) fun _ _ _ hvalue => hvalue
      · exact h.pure trivial }

include hservices in
theorem staticField_keeps (number : Nat) (property : Value) (world : World) :
    d.Run stage d.Admits (staticField services number property) world := by
  apply h.bind (h.text property)
  intro s₁ field w₁ _ _ _
  dsimp only
  split
  · rename_i value hvalue
    exact h.pure ((hservices.classAt number).field field value hvalue s₁)
  · exact h.fail _

include hservices in
/-- What is done with a converted value keeps the discipline if it does with every value that is
admitted and accepted. -/
theorem withCoerced_keeps {α : Type} {post : d.Stage → α → Prop} {next : Value → Action α}
    {value : Value} {type : ValueType} {world : World} (hvalue : d.Admits stage value)
    (hnext : ∀ stage' stored, d.Later stage stage' → d.Admits stage' stored →
      d.Accepts world.heap stored type → d.Run stage' post (next stored) world) :
    d.Run stage post (services.coerce value type >>= next) world := by
  have hcoerce : d.Run stage d.Admits (services.coerce value type) world := by
    apply h.heapNow
    intro _
    exact h.ofExcept fun result hresult =>
      (hservices.converters stage world.heap value type result hvalue hresult).1
  apply h.bind hcoerce
  intro stage' stored after hlater hadmitted hrun
  obtain ⟨hresult, rfl⟩ := Services.coerce_eq_ok hrun
  exact hnext stage' stored hlater hadmitted
    (hservices.converters stage after.heap value type stored hvalue hresult).2

theorem classMembers_keeps : classMembers.Keeps d where
  get := by
    intro services hservices stage base property world _ _
    cases base with
    | classRef _ number =>
        exact h.bindPure (staticField_keeps h hservices number property world)
          fun _ _ _ hvalue => hvalue
    | _ => exact h.pure trivial
  type := by
    intro services hservices stage base property world _ _
    cases base with
    | classRef _ number =>
        apply h.bind (staticField_keeps h hservices number property world)
        exact fun _ _ _ _ _ _ => h.heapNow fun _ => h.pure trivial
    | _ => exact h.pure trivial
  set := by
    intro services _ stage base property value world _ _ _
    cases base with
    | classRef => exact h.bind (h.text property) fun _ _ _ _ _ _ => h.fail _
    | _ => exact h.pure trivial
  readOnly := by
    intro services _ stage base property world _ _
    cases base <;> exact h.pure trivial
  invoke := by
    intro services hservices stage base method args world _ hargs
    cases base with
    | classRef _ number =>
        dsimp only [classMembers]
        split
        · rename_i function hfunction
          have hmethod := (hservices.classAt number).method method function hfunction
          exact h.bindPure (hmethod.call h hservices.converters hargs) fun _ _ _ hvalue => hvalue
        · exact h.fail _
    | _ => exact h.pure trivial

theorem mapMethod_keeps {entries : List (Value × Value)}
    (hentries : d.AdmitsEntries stage entries) (method : String) (args : List Value)
    (world : World) : d.Run stage d.Admits (mapMethod entries method args) world := by
  unfold mapMethod
  split
  · rename_i query _
    cases query with
    | size => exact h.pure (h.scalar rfl)
    | isEmpty => exact h.pure (h.scalar rfl)
    | keySet =>
        exact h.newSet (List.forall_mem_map.mpr fun entry hentry => (hentries entry hentry).1)
    | values =>
        exact h.newList (List.forall_mem_map.mpr fun entry hentry => (hentries entry hentry).2)
  · exact h.fail _
  · rename_i lookup arg _ _
    apply h.heapNow
    intro _
    cases lookup with
    | containsKey => exact h.pure (h.scalar rfl)
    | containsValue => exact h.pure (h.scalar rfl)
    | get => exact h.pure (h.found hentries _)
  · exact h.fail _
  · exact h.fail _

theorem mapEntries_keeps {readOnly : Bool} (hstores : readOnly = false → d.Storing) :
    (mapEntries readOnly).Keeps d where
  get := by
    intro services _ stage base property world _ _
    cases base with
    | map r => exact h.heapNow fun hsound => h.pure (h.found (h.entries r hsound) property)
    | _ => exact h.pure trivial
  type := by
    intro services _ stage base property world _ _
    cases base <;> exact h.pure trivial
  set := by
    intro services _ stage base property value world _ hproperty hvalue
    cases base with
    | map r =>
        dsimp only [mapEntries]
        split
        · exact h.bind (h.text property) fun _ _ _ _ _ _ => h.fail _
        · rename_i hwritable
          apply h.heapNow
          intro hsound
          split
          · rename_i entries hinsert
            have hentries := Assoc.forall_insert? hproperty hvalue (h.entries r hsound) hinsert
            exact h.bindPure ((hstores (by simpa using hwritable)).changeHeap (.entries r hentries))
              fun _ _ _ _ => trivial
          · exact h.throw _ world
    | _ => exact h.pure trivial
  readOnly := by
    intro services _ stage base property world _ _
    cases base <;> exact h.pure trivial
  invoke := by
    intro services _ stage base method args world _ _
    cases base with
    | map r =>
        apply h.heapNow
        intro hsound
        exact h.bindPure (mapMethod_keeps h (h.entries r hsound) method args world)
          fun _ _ _ hvalue => hvalue
    | _ => exact h.pure trivial

theorem names_keeps {options : ResolverOptions} (hstores : options.readOnly = false → d.Storing) :
    (names options).Keeps d where
  get := by
    intro services _ stage base property world _ _
    apply h.view (fun _ _ => rfl)
    intro hsound
    split
    · rename_i bean hbean
      obtain ⟨name, _, hname⟩ := Option.bind_eq_some_iff.mp hbean
      exact h.pure (h.beans hsound name bean hname)
    · exact h.pure trivial
  type := by
    intro services _ stage base property world _ _
    apply h.view (fun _ _ => rfl)
    intro _
    split
    · exact h.heapNow fun _ => h.pure trivial
    · exact h.pure trivial
  set := by
    intro services _ stage base property value world _ _ hvalue
    dsimp only [names]
    split
    · exact h.pure trivial
    · rename_i name _
      apply h.view (fun _ _ => rfl)
      intro _
      split
      · exact h.pure trivial
      · split
        · exact h.fail _
        · rename_i hwritable
          have hstoring := hstores (by simpa using hwritable)
          exact h.bindPure (hstoring.define name value world hvalue) fun _ _ _ _ => trivial
  readOnly := by
    intro services _ stage base property world _ _
    apply h.view (fun _ _ => rfl)
    intro _
    split
    · exact h.pure trivial
    · exact h.pure trivial
  invoke _ _ _ _ _ _ _ _ _ := h.pure trivial

theorem listElements_keeps {readOnly : Bool} (hstores : readOnly = false → d.Storing) :
    (listElements readOnly).Keeps d where
  get := by
    intro services _ stage base property world _ _
    cases base with
    | list r =>
        exact h.bindPure (elementAt_keeps h "List" r property world) fun _ _ _ hvalue => hvalue
    | _ => exact h.pure trivial
  type := by
    intro services _ stage base property world _ _
    cases base with
    | list r =>
        exact h.bindPure (elementType_keeps h "List" r property .any world) fun _ _ _ _ => trivial
    | _ => exact h.pure trivial
  set := by
    intro services _ stage base property value world hbase _ hvalue
    cases base with
    | list r =>
        dsimp only [listElements]
        split
        · exact h.heapNow fun _ => h.fail _
        · rename_i hwritable
          apply h.bind (positionIn_keeps h "List" property world)
          intro s₁ position w₁ hs₁ _ _
          have hstored (i : Nat) : d.Stored s₁ w₁.heap
              (w₁.heap.setSequence r ((w₁.heap.sequence r).set i value)) :=
            .element i (h.later hs₁ hbase) (h.later hs₁ hvalue)
          exact h.bindPure
            (storeAt_keeps (hstores (by simpa using hwritable)) "List" position hstored)
            fun _ _ _ _ => trivial
    | _ => exact h.pure trivial
  readOnly := by
    intro services _ stage base property world _ _
    cases base <;> exact h.pure trivial
  invoke _ _ _ _ _ _ _ _ _ := h.pure trivial

theorem arrayElements_keeps {readOnly : Bool} (hstores : readOnly = false → d.Storing) :
    (arrayElements readOnly).Keeps d where
  get := by
    intro services _ stage base property world _ _
    cases base with
    | array component r =>
        dsimp only [arrayElements]
        split
        · exact h.heapNow fun _ => h.pure (h.scalar rfl)
        · exact h.bindPure (elementAt_keeps h "Array" r property world) fun _ _ _ hvalue => hvalue
    | _ => exact h.pure trivial
  type := by
    intro services _ stage base property world _ _
    cases base with
    | array component r =>
        dsimp only [arrayElements]
        split
        · exact h.pure trivial
        · exact h.bindPure (elementType_keeps h "Array" r property component world)
            fun _ _ _ _ => trivial
    | _ => exact h.pure trivial
  set := by
    intro services hservices stage base property value world hbase _ hvalue
    cases base with
    | array component r =>
        dsimp only [arrayElements]
        split
        · exact h.heapNow fun _ => h.fail _
        · rename_i hwritable
          have hwritable : readOnly = false := by
            rw [Bool.or_eq_true, not_or] at hwritable
            simpa using hwritable.1
          apply h.bind (positionIn_keeps h "Array" property world)
          intro s₁ position w₁ hs₁ _ _
          apply withCoerced_keeps h hservices (h.later hs₁ hvalue)
          intro s₂ stored hs₂ hadmitted haccepted
          have hstored (i : Nat) : d.Stored s₂ w₁.heap
              (w₁.heap.setSequence r ((w₁.heap.sequence r).set i stored)) :=
            .arrayElement i (h.later (h.trans hs₁ hs₂) hbase) hadmitted haccepted
          exact h.bindPure (storeAt_keeps (hstores hwritable) "Array" position hstored)
            fun _ _ _ _ => trivial
    | _ => exact h.pure trivial
  readOnly := by
    intro services _ stage base property world _ _
    cases base <;> exact h.pure trivial
  invoke _ _ _ _ _ _ _ _ _ := h.pure trivial

theorem beanProperties_keeps {readOnly : Bool} (hstores : readOnly = false → d.Storing) :
    (beanProperties readOnly).Keeps d where
  get := by
    intro services _ stage base property world _ _
    cases base with
    | bean r => exact h.bindPure (beanProperty_keeps h r property world) fun _ _ _ hvalue => hvalue
    | _ => exact h.pure trivial
  type := by
    intro services _ stage base property world _ _
    cases base with
    | bean r => exact h.bindPure (beanProperty_keeps h r property world) fun _ _ _ _ => trivial
    | _ => exact h.pure trivial
  set := by
    intro services hservices stage base property value world _ _ hvalue
    cases base with
    | bean r =>
        apply h.bind (beanProperty_keeps h r property world)
        intro s₁ place w₁ hs₁ _ hplace
        obtain ⟨hplace, rfl⟩ := beanProperty_eq_ok hplace
        split
        · exact h.fail _
        · rename_i hwritable
          have hwritable : readOnly = false := by
            rw [Bool.or_eq_true, not_or] at hwritable
            simpa using hwritable.1
          apply withCoerced_keeps h hservices (h.later hs₁ hvalue)
          intro s₂ stored hs₂ hadmitted haccepted
          apply h.heapNow
          intro _
          have hread : d.Run s₂ Any
              (.ofExcept (w₁.heap.storeProperty r place.name stored)) w₁ :=
            h.ofExcept fun _ _ => trivial
          apply h.bind hread
          intro s₃ heap w₃ hs₃ _ hrun
          obtain ⟨hstore, rfl⟩ := Action.ofExcept_eq_ok hrun
          have hstored : d.Stored s₃ w₃.heap heap := by
            rw [Heap.storeProperty_eq_ok hstore]
            exact .property hplace (h.later hs₃ hadmitted) haccepted
          exact h.bindPure ((hstores hwritable).changeHeap hstored) fun _ _ _ _ => trivial
    | _ => exact h.pure trivial
  readOnly := by
    intro services _ stage base property world _ _
    cases base with
    | bean r => exact h.bindPure (beanProperty_keeps h r property world) fun _ _ _ _ => trivial
    | _ => exact h.pure trivial
  invoke := by
    intro services hservices stage base method args world hbase hargs
    cases base with
    | bean r =>
        apply h.heapNow
        intro _
        dsimp only
        split
        · rename_i behaviour hbehaviour
          obtain ⟨name, _, hname⟩ := Option.bind_eq_some_iff.mp hbehaviour
          exact h.bindPure (hservices.behaviour name behaviour hname stage r args world hbase hargs)
            fun _ _ _ hvalue => hvalue
        · exact h.fail _
    | _ => exact h.pure trivial

end Single

/-!
## Chains
-/

section Chain

variable {d : Discipline} (h : d.Compositional)

include h

theorem first_keeps {α : Type} {each : d.Stage → α → Prop}
    {ask : Resolver → Action (Resolution α)} {resolvers : List Resolver} {stage : d.Stage}
    (hask : ∀ r ∈ resolvers, ∀ stage', d.Later stage stage' → ∀ world,
      d.Run stage' (fun last answer => answer.Each (each last)) (ask r) world) (world : World) :
    d.Run stage (fun last answer => answer.Each (each last)) (first (resolvers.map ask))
      world := by
  induction resolvers generalizing stage world with
  | nil => exact h.pure trivial
  | cons r rest ih =>
      apply h.bind (hask r List.mem_cons_self stage (h.refl stage) world)
      intro s₁ answer w₁ hs₁ hanswer _
      cases answer with
      | resolved a => exact h.pure hanswer
      | unresolved =>
          refine ih (fun s hs stage' hlater => ?_) w₁
          exact hask s (List.mem_cons_of_mem r hs) stage' (h.trans hs₁ hlater)

/-- A chain asks a question of which nothing is said but that every resolver keeps the
discipline. -/
theorem firstAny_keeps {α : Type} {ask : Resolver → Action (Resolution α)}
    {resolvers : List Resolver} {stage : d.Stage}
    (hask : ∀ r ∈ resolvers, ∀ stage', d.Later stage stage' → ∀ world,
      d.Run stage' Any (ask r) world) (world : World) :
    d.Run stage Any (first (resolvers.map ask)) world := by
  have heach (answer : Resolution α) : answer.Each fun _ => True :=
    Resolution.each_trivial (fun _ => trivial) answer
  have hfirst : d.Run stage (fun _ answer => answer.Each fun _ => True)
      (first (resolvers.map ask)) world :=
    first_keeps h (fun r hr stage' hlater world =>
      h.weaken (hask r hr stage' hlater world) fun _ answer _ _ => heach answer) world
  exact h.weaken hfirst fun _ _ _ _ => trivial

theorem chain_keeps {resolvers : List Resolver} (hresolvers : ∀ r ∈ resolvers, r.Keeps d) :
    (chain resolvers).Keeps d where
  get services hservices _ base property world hbase hproperty :=
    first_keeps h (fun r hr stage' hlater world =>
      (hresolvers r hr).get services hservices stage' base property world (h.later hlater hbase)
        (h.later hlater hproperty)) world
  type services hservices _ base property world hbase hproperty :=
    firstAny_keeps h (fun r hr stage' hlater world =>
      (hresolvers r hr).type services hservices stage' base property world (h.later hlater hbase)
        (h.later hlater hproperty)) world
  set services hservices _ base property value world hbase hproperty hvalue :=
    firstAny_keeps h (fun r hr stage' hlater world =>
      (hresolvers r hr).set services hservices stage' base property value world
        (h.later hlater hbase) (h.later hlater hproperty) (h.later hlater hvalue)) world
  readOnly services hservices _ base property world hbase hproperty :=
    firstAny_keeps h (fun r hr stage' hlater world =>
      (hresolvers r hr).readOnly services hservices stage' base property world
        (h.later hlater hbase) (h.later hlater hproperty)) world
  invoke services hservices _ base method args world hbase hargs :=
    first_keeps h (fun r hr stage' hlater world =>
      (hresolvers r hr).invoke services hservices stage' base method args world
        (h.later hlater hbase) (h.laterAll hlater hargs)) world

/-- The standard resolvers keep a discipline that stores keep; if they refuse all stores, any
compositional one. -/
theorem standard_keeps {options : ResolverOptions}
    (hstores : options.readOnly = false → d.Storing) : (chain (standard options)).Keeps d := by
  apply chain_keeps h
  intro r hr
  simp only [standard, ofValues, List.mem_cons, List.not_mem_nil, or_false] at hr
  rcases hr with rfl | rfl | rfl | rfl | rfl | rfl | rfl | rfl
  · exact names_keeps h hstores
  · exact classMembers_keeps h
  · exact mapEntries_keeps h hstores
  · exact listElements_keeps h hstores
  · exact arrayElements_keeps h hstores
  · exact collectionMethods_keeps h
  · exact textMethods_keeps h
  · exact beanProperties_keeps h hstores

end Chain

/-!
## Laws
-/

variable {law : Law}

theorem standard_obeys (h : law.Storing) (options : ResolverOptions) :
    (chain (standard options)).Obeys law :=
  keeps_discipline.mp (standard_keeps h.toCompositional.discipline fun _ => h.discipline)

theorem readOnly_standard_obeys (h : law.Compositional) {options : ResolverOptions}
    (hoptions : options.readOnly = true) : (chain (standard options)).Obeys law := by
  apply keeps_discipline.mp
  apply standard_keeps h.discipline
  intro hwritable
  rw [hoptions] at hwritable
  cases hwritable

end Resolver
end ExprLang
