import ExprLang.Proofs.Evaluation.Library
import ExprLang.Proofs.Evaluation.Operation
import ExprLang.Proofs.Evaluation.Resolvers
import ExprLang.Proofs.Storage.Layout

/-!
# Typed storage stays typed

What evaluation stores in an element of an array or in a property of a bean it has converted to
the declared type, and without converters whatever a conversion answers conforms.  So every run
from a well-typed world leaves one, under a layout that has grown at most, and what it answers fits
that layout; by induction so does every session.
-/

namespace ExprLang

/-!
## Typed worlds
-/

/-- The heap of the world is laid out and well typed, and the beans and the bindings of lambdas
fit. -/
structure World.Typed (layout : Layout) (world : World) : Prop where
  laid : world.heap.Laid layout
  wellTyped : world.heap.WellTyped layout
  beans : ∀ name value, world.beans.find? name = some value → value.Fits layout
  scopes : ∀ layer ∈ world.scopes.layers, ∀ name value, layer.find? name = some value →
    value.Fits layout

namespace World.Typed

variable {layout later : Layout} {world : World} (h : world.Typed layout)

include h

theorem withHeap {heap : Heap} (hgrows : layout.Grows later) (hlaid : heap.Laid later)
    (htyped : heap.WellTyped later) : World.Typed later { world with heap } where
  laid := hlaid
  wellTyped := htyped
  beans name value hvalue := (h.beans name value hvalue).later hgrows
  scopes layer hlayer name value hvalue := (h.scopes layer hlayer name value hvalue).later hgrows

theorem change {heap : Heap} (hchanged : Heap.Changed layout later world.heap heap) :
    World.Typed later { world with heap } :=
  h.withHeap hchanged.grows (hchanged.laid h.laid) (hchanged.wellTyped h.laid h.wellTyped)

theorem push {layer : Table Value}
    (hlayer : ∀ name value, layer.find? name = some value → value.Fits layout) :
    World.Typed layout { world with scopes := world.scopes.push layer } :=
  { h with scopes := List.forall_mem_cons.mpr ⟨hlayer, h.scopes⟩ }

theorem pop : World.Typed layout { world with scopes := world.scopes.pop } :=
  { h with scopes := fun layer hlayer => h.scopes layer (List.mem_of_mem_tail hlayer) }

theorem define {value : Value} (hvalue : value.Fits layout) (name : String) :
    (world.define name value).Typed layout :=
  { h with
    beans := by
      intro other bean hbean
      simp only [World.define] at hbean
      split at hbean
      · rw [Table.find?_erase] at hbean
        split at hbean
        · cases hbean
        · exact h.beans other bean hbean
      · rw [Table.find?_insert] at hbean
        split at hbean
        · cases hbean
          exact hvalue
        · exact h.beans other bean hbean }

theorem bound {name : String} {value : Value} (hvalue : world.scopes.find? name = some value) :
    value.Fits layout := by
  obtain ⟨layer, hlayer, hfound⟩ := List.exists_of_findSome?_eq_some hvalue
  exact h.scopes layer hlayer name value hfound

end World.Typed

/-!
## The discipline
-/

/-- Runs keep worlds typed under layouts that grow from the one at the start. -/
def Discipline.storage (start : Layout) : Discipline where
  Stage := { layout : Layout // start.Grows layout }
  Later stage later := stage.1.Grows later.1
  Admits stage value := value.Fits stage.1
  Accepts := Heap.Accepts
  Sound stage world := world.Typed stage.1
  Run stage post action world := world.Typed stage.1 →
    ∃ later : { layout : Layout // start.Grows layout }, stage.1.Grows later.1 ∧
      (finalState (action world)).Typed later.1 ∧
      ∀ answer after, action world = .ok answer after → post later answer

namespace Discipline

variable {start : Layout}

/-- A run that leaves a typed world and answers what it should, all under a grown layout. -/
theorem storage_run {α : Type} {stage : (storage start).Stage}
    {post : (storage start).Stage → α → Prop} {action : Action α} {world : World}
    (later : Layout) (hgrows : stage.1.Grows later)
    (hlast : (finalState (action world)).Typed later)
    (hpost : ∀ answer after, action world = .ok answer after →
      post ⟨later, stage.2.trans hgrows⟩ answer) :
    ∃ later : (storage start).Stage, stage.1.Grows later.1 ∧
      (finalState (action world)).Typed later.1 ∧
      ∀ answer after, action world = .ok answer after → post later answer :=
  ⟨⟨later, stage.2.trans hgrows⟩, hgrows, hlast, hpost⟩

theorem storage_compositional : (storage start).Compositional where
  refl stage := .refl stage.1
  trans := .trans
  later hgrows hvalue := Value.Fits.later hvalue hgrows
  scalar := Value.fits_of_isScalar
  sequence r htyped := htyped.laid.elements r
  entries r htyped := htyped.laid.entries r
  property htyped hp := htyped.laid.properties _ _ hp
  captured r htyped := htyped.laid.captured r
  beans htyped := htyped.beans
  scopes htyped hvalue := htyped.bound hvalue
  pure := by
    intro α post stage a world hpost htyped
    refine ⟨stage, .refl stage.1, htyped, ?_⟩
    intro answer after hrun
    cases hrun
    exact hpost
  throw := by
    intro α post stage failure world htyped
    refine ⟨stage, .refl stage.1, htyped, ?_⟩
    intro answer after hrun
    cases hrun
  bind := by
    intro α β mid post stage action next world haction hnext htyped
    obtain ⟨first, hfirst, hafter, hmid⟩ := haction htyped
    simp only [Bind.bind, EStateM.bind]
    cases hrun : action world with
    | error failure after =>
        rw [hrun] at hafter
        refine ⟨first, hfirst, hafter, ?_⟩
        intro answer last heq
        cases heq
    | ok a after =>
        rw [hrun] at hafter
        obtain ⟨last, hlast, hend, hpost⟩ :=
          hnext first a after hfirst (hmid a after hrun) hrun hafter
        exact ⟨last, hfirst.trans hlast, hend, hpost⟩
  attempt := by
    intro α post stage action world haction htyped
    obtain ⟨later, hgrows, hafter, hpost⟩ := haction htyped
    refine ⟨later, hgrows, ?_⟩
    unfold Action.attempt
    cases hrun : action world with
    | ok a after =>
        rw [hrun] at hafter
        refine ⟨hafter, ?_⟩
        rintro answer last heq b rfl
        cases heq
        exact hpost a after hrun
    | error failure after =>
        rw [hrun] at hafter
        cases failure with
        | error error =>
            refine ⟨hafter, ?_⟩
            rintro answer last heq b rfl
            cases heq
        | tooDeep =>
            refine ⟨hafter, ?_⟩
            intro answer last heq
            cases heq
  withLayer := by
    intro α post stage layer action world hlayer haction htyped
    obtain ⟨later, hgrows, hafter, hpost⟩ := haction (htyped.push hlayer)
    refine ⟨later, hgrows, ?_⟩
    unfold World.withLayer
    cases hrun : action { world with scopes := world.scopes.push layer } with
    | ok a after =>
        rw [hrun] at hafter
        refine ⟨hafter.pop, ?_⟩
        intro answer last heq
        cases heq
        exact hpost a after hrun
    | error failure after =>
        rw [hrun] at hafter
        refine ⟨hafter.pop, ?_⟩
        intro answer last heq
        cases heq
  view _ hask htyped := hask htyped htyped
  addSequence := by
    intro stage world items hitems htyped
    have hadded := htyped.laid.addSequence hitems
    refine storage_run _ hadded.grows (htyped.change hadded) ?_
    intro r after hrun
    cases hrun
    have hnew : (stage.1.components.push none)[world.heap.sequences.size]? = some none := by
      rw [htyped.laid.sequences, Array.getElem?_push_size]
    exact ⟨hnew, hnew⟩
  addMap hentries htyped :=
    storage_run _ (.refl _) (htyped.change (htyped.laid.addMap hentries)) fun _ _ _ => trivial
  addClosure hcaptured htyped :=
    storage_run _ (.refl _) (htyped.change (htyped.laid.addClosure hcaptured))
      fun _ _ _ => trivial

theorem changed_of_stored {stage : (storage start).Stage} {before after : Heap}
    (hlaid : before.Laid stage.1) (h : (storage start).Stored stage before after) :
    Heap.Changed stage.1 stage.1 before after := by
  cases h with
  | element i hbase hvalue =>
      apply hlaid.setElement i hvalue
      intro component hcomponent
      have hlist : stage.1.components[_]? = some none := hbase
      rw [hlist] at hcomponent
      cases hcomponent
  | arrayElement i hbase hvalue haccepts =>
      apply hlaid.setElement i hvalue
      intro component hcomponent
      have harray : stage.1.components[_]? = some (some _) := hbase
      rw [harray] at hcomponent
      cases hcomponent
      exact haccepts
  | entries r hentries => exact hlaid.setEntries r hentries
  | property hp hvalue haccepts => exact hlaid.setProperty hp hvalue haccepts

theorem storage_storing : (storage start).Storing :=
  { storage_compositional with
    define := fun name _ _ hvalue htyped =>
      storage_run _ (.refl _) (htyped.define hvalue name) fun _ _ _ => trivial
    changeHeap := fun hstored htyped =>
      storage_run _ (.refl _) (htyped.change (changed_of_stored htyped.laid hstored))
        fun _ _ _ => trivial }

end Discipline

/-!
## Hosts that write no storage
-/

/-- What a host may do to a heap: it makes typed objects, and writes no element of an array and no
property of a bean that is there. -/
structure Heap.Adds (layout later : Layout) (before after : Heap) : Prop where
  grows : layout.Grows later
  laid : after.Laid later
  keptElements : ∀ (r : Ref) component, layout.components[r]? = some (some component) →
    after.sequence r = before.sequence r
  keptProperties : ∀ (r : Ref) className, layout.classes[r]? = some className →
    (after.object r).properties = (before.object r).properties
  newElements : ∀ (r : Ref) component, layout.components[r]? = none →
    later.components[r]? = some (some component) →
    ∀ value ∈ after.sequence r, after.Accepts value component
  newProperties : ∀ r : Ref, layout.classes[r]? = none →
    ∀ p ∈ (after.object r).properties, after.Accepts p.value p.type

theorem Heap.Adds.wellTyped {layout later : Layout} {before after : Heap}
    (h : Heap.Adds layout later before after) (hlaid : before.Laid layout)
    (htyped : before.WellTyped layout) : after.WellTyped later where
  elements := by
    intro r component hcomponent value hvalue
    cases hold : layout.components[r]? with
    | none => exact h.newElements r component hold hcomponent value hvalue
    | some role =>
        have hrole := h.grows.components r role hold
        rw [hcomponent] at hrole
        cases hrole
        rw [h.keptElements r component hold] at hvalue
        exact hlaid.accepts_later h.laid h.grows (hlaid.elements r value hvalue)
          (htyped.elements r component hold value hvalue)
  properties := by
    intro r p hp
    cases hold : layout.classes[r]? with
    | none => exact h.newProperties r hold p hp
    | some className =>
        rw [h.keptProperties r className hold] at hp
        exact hlaid.accepts_later h.laid h.grows (hlaid.properties r p hp)
          (htyped.properties r p hp)

/-- The action, which is given some values, writes no typed storage, and what it answers fits. -/
def WritesNoStorage (given : List Value) (action : HeapAction Value) : Prop :=
  ∀ layout heap, Heap.Laid layout heap → heap.WellTyped layout →
    (∀ value ∈ given, value.Fits layout) →
    ∃ later, heap.Adds layout later (finalState (action heap)) ∧
      ∀ answer after, action heap = .ok answer after → answer.Fits later

/-- No function, method or behaviour of the host writes typed storage itself. -/
structure Context.HostWritesNoStorage (context : Context) : Prop where
  function : ∀ name function, context.functions.find? name = some function →
    ∀ args, WritesNoStorage args (function.body args)
  method : ∀ number name function,
    (context.classes.getD number default).method? name = some function →
    ∀ args, WritesNoStorage args (function.body args)
  behaviour : ∀ name behaviour, context.behaviours.find? name = some behaviour →
    ∀ r args, WritesNoStorage (.bean r :: args) (behaviour r args)

/-- A function that reads writes no typed storage. -/
theorem HostFunction.Reads.writesNoStorage {function : HostFunction} (h : function.Reads)
    (args : List Value) : WritesNoStorage args (function.body args) := by
  intro layout heap hlaid htyped hargs
  obtain ⟨hheap, hanswer⟩ := h args heap
  refine ⟨layout, ?_, ?_⟩
  · rw [hheap]
    exact
      { grows := .refl layout
        laid := hlaid
        keptElements := fun _ _ _ => rfl
        keptProperties := fun _ _ _ => rfl
        newElements := fun r component _ => htyped.elements r component
        newProperties := fun r _ => htyped.properties r }
  · intro answer after hrun
    rcases hanswer answer after hrun with hscalar | hmem
    · exact Value.fits_of_isScalar hscalar
    · exact hargs answer hmem

theorem WritesNoStorage.run {start : Layout} {given : List Value} {action : HeapAction Value}
    (h : WritesNoStorage given action) {stage : (Discipline.storage start).Stage}
    (hgiven : (Discipline.storage start).AdmitsAll stage given) (world : World) :
    (Discipline.storage start).Run stage (Discipline.storage start).Admits
      (World.onHeap action) world := by
  intro htyped
  obtain ⟨later, hadds, hanswer⟩ := h stage.1 world.heap htyped.laid htyped.wellTyped hgiven
  have hlast := htyped.withHeap hadds.grows hadds.laid
    (hadds.wellTyped htyped.laid htyped.wellTyped)
  unfold World.onHeap
  cases hrun : action world.heap with
  | ok result after =>
      rw [hrun] at hlast
      refine Discipline.storage_run later hadds.grows hlast ?_
      intro answer last heq
      cases heq
      exact hanswer result after hrun
  | error error after =>
      rw [hrun] at hlast
      refine Discipline.storage_run later hadds.grows hlast ?_
      intro answer last heq
      cases heq

theorem converters_keep_storage (start : Layout) :
    Converters.Keep .empty (Discipline.storage start) := by
  intro stage heap value type result hvalue hresult
  constructor
  · rcases Heap.coerce_eq_or_scalar hresult with rfl | hscalar
    · exact hvalue
    · exact Value.fits_of_isScalar hscalar
  · exact Or.inl ((Heap.coerce_projects heap value type).2 result hresult).1

/-- The values that the host has put into the context fit. -/
structure Context.Fits (layout : Layout) (context : Context) : Prop where
  constant : ∀ name value, context.bindings.find? name = some (.constant value) →
    value.Fits layout
  field : ∀ number name value,
    (context.classes.getD number default).field? name = some value → value.Fits layout

theorem Context.HostWritesNoStorage.keeps {context : Context} (h : context.HostWritesNoStorage)
    (hconverters : context.converters = .empty) {start : Layout} (hfits : context.Fits start) :
    context.HostKeeps (.storage start) where
  converters := by
    rw [hconverters]
    exact converters_keep_storage start
  constant name value hvalue stage := (hfits.constant name value hvalue).later stage.2
  function name function hname _ args world hargs :=
    (h.function name function hname args).run hargs world
  classAt number :=
    { field := fun name value hvalue stage => (hfits.field number name value hvalue).later stage.2
      method := fun name function hname _ args world hargs =>
        (h.method number name function hname args).run hargs world }
  behaviour name behaviour hname _ r args world hbean hargs :=
    (h.behaviour name behaviour hname r args).run (List.forall_mem_cons.mpr ⟨hbean, hargs⟩) world

/-!
## Sessions
-/

/-- Every array element and every bean property is of its declared type, where all references are
consistent: those in the world and those among the values that are held outside it. -/
def WellTyped (world : World) (held : List Value) : Prop :=
  ∃ layout, world.Typed layout ∧ ∀ value ∈ held, value.Fits layout

/-- The value is a scalar or among those that are held. -/
def Value.DrawnFrom (held : List Value) (value : Value) : Prop := value.isScalar ∨ value ∈ held

/-- The values that the host has put into the context are scalars or held. -/
structure Context.DrawsOn (held : List Value) (context : Context) : Prop where
  constant : ∀ name value, context.bindings.find? name = some (.constant value) →
    value.DrawnFrom held
  field : ∀ number name value,
    (context.classes.getD number default).field? name = some value → value.DrawnFrom held

/-- The values that an operation has brought its host. -/
def Operation.obtained (operation : Operation) :
    EStateM.Result Failure World operation.Answer → List Value
  | .ok answer _ => operation.answered answer
  | .error .. => []

/-- Operations one after the other, each whether the one before it has failed or not.  They are
given scalars and held values, and what they answer is held from then on. -/
inductive Context.Asked (context : Context) :
    World → List Value → World → List Value → Prop
  | done (world : World) (held : List Value) : Asked context world held world held
  | step {world last : World} {held holding : List Value} (depth : Nat) (operation : Operation) :
      (∀ value ∈ operation.given, value.DrawnFrom held) →
      Asked context (finalState (operation.run context depth world))
        (held ++ operation.obtained (operation.run context depth world)) last holding →
      Asked context world held last holding

section Sessions

theorem Value.DrawnFrom.fits {layout : Layout} {held : List Value} {value : Value}
    (h : value.DrawnFrom held) (hheld : ∀ value ∈ held, value.Fits layout) :
    value.Fits layout := by
  rcases h with hscalar | hmem
  · exact Value.fits_of_isScalar hscalar
  · exact hheld value hmem

theorem Context.DrawsOn.append {context : Context} {held : List Value}
    (h : context.DrawsOn held) (obtained : List Value) : context.DrawsOn (held ++ obtained) where
  constant name value hvalue := (h.constant name value hvalue).imp_right (List.mem_append_left _)
  field number name value hvalue :=
    (h.field number name value hvalue).imp_right (List.mem_append_left _)

variable {context : Context} {options : ResolverOptions}
  (hresolver : context.resolver = .chain (Resolver.standard options))
  (hconverters : context.converters = .empty) (hhost : context.HostWritesNoStorage)

include hresolver hconverters hhost

theorem operation_keeps_wellTyped {held : List Value} (hcontext : context.DrawsOn held)
    (depth : Nat) {operation : Operation}
    (hgiven : ∀ value ∈ operation.given, value.DrawnFrom held) {world : World}
    (h : WellTyped world held) :
    WellTyped (finalState (operation.run context depth world))
      (held ++ operation.obtained (operation.run context depth world)) := by
  obtain ⟨layout, htyped, hheld⟩ := h
  have hfits : context.Fits layout :=
    { constant := fun name value hvalue => (hcontext.constant name value hvalue).fits hheld
      field := fun number name value hvalue =>
        (hcontext.field number name value hvalue).fits hheld }
  have hkeeps : context.resolver.Keeps (.storage layout) := by
    rw [hresolver]
    exact Resolver.standard_keeps Discipline.storage_compositional fun _ =>
      Discipline.storage_storing
  let stage : (Discipline.storage layout).Stage := ⟨layout, .refl layout⟩
  have hadmitted : (Discipline.storage layout).AdmitsAll stage operation.given :=
    fun value hvalue => (hgiven value hvalue).fits hheld
  obtain ⟨later, hgrows, hlast, hanswer⟩ :=
    operation.run_keeps Discipline.storage_compositional (hhost.keeps hconverters hfits) hkeeps
      depth hadmitted world htyped
  refine ⟨later.1, hlast, ?_⟩
  intro value hvalue
  rcases List.mem_append.mp hvalue with hold | hnew
  · exact (hheld value hold).later hgrows
  · cases hrun : operation.run context depth world with
    | ok answer after =>
        rw [hrun] at hnew
        exact hanswer answer after hrun value hnew
    | error failure after =>
        rw [hrun] at hnew
        cases hnew

/-- Typed storage stays typed.  Without converters, and with a host that writes no property and no
array element itself, a session of any length that starts in a well-typed state ends in one,
however its operations end. -/
theorem sessions_stay_wellTyped {world last : World} {held holding : List Value}
    (hcontext : context.DrawsOn held) (h : WellTyped world held)
    (hsession : context.Asked world held last holding) : WellTyped last holding := by
  induction hsession with
  | done => exact h
  | step depth operation hgiven _ ih =>
      exact ih (hcontext.append _)
        (operation_keeps_wellTyped hresolver hconverters hhost hcontext depth hgiven h)

end Sessions

/-- A world with an array of integers and a bean with an integer property. -/
def typedWorld : World where
  heap :=
    { Heap.empty with
      sequences := #[[.int 1]]
      objects := #[⟨"Point", [⟨"x", .primitive .int, .int 3, false⟩], .empty⟩] }
  beans := .ofList [("point", .bean 0), ("xs", .array (.boxed .int) 0)]
  scopes := .empty

theorem typedWorld_wellTyped : WellTyped typedWorld [] := by
  have hsequence (r : Ref) : ∀ value ∈ typedWorld.heap.sequence r, value = .int 1 := by
    intro value hvalue
    cases r with
    | zero => exact List.mem_singleton.mp hvalue
    | succ r => cases hvalue
  have hproperty (r : Ref) : ∀ p ∈ (typedWorld.heap.object r).properties,
      p = ⟨"x", .primitive .int, .int 3, false⟩ := by
    intro p hp
    cases r with
    | zero => exact List.mem_singleton.mp hp
    | succ r => cases hp
  refine ⟨⟨#[some (.boxed .int)], #["Point"]⟩, ?_, List.forall_mem_nil _⟩
  constructor
  case laid =>
    constructor
    case sequences => rfl
    case classes =>
      intro r
      cases r <;> rfl
    case elements =>
      intro r value hvalue
      rw [hsequence r value hvalue]
      trivial
    case entries =>
      intro r entry hentry
      cases hentry
    case captured =>
      intro r name value hvalue
      cases hvalue
    case properties =>
      intro r p hp
      rw [hproperty r p hp]
      trivial
    case distinct =>
      intro r
      cases r with
      | zero => exact List.nodup_singleton _
      | succ r => exact List.nodup_nil
  case wellTyped =>
    constructor
    case elements =>
      intro r component hcomponent value hvalue
      rw [hsequence r value hvalue]
      cases r with
      | zero =>
          cases hcomponent
          exact Or.inl (Or.inr rfl)
      | succ r => cases hcomponent
    case properties =>
      intro r p hp
      rw [hproperty r p hp]
      exact Or.inl rfl
  case beans =>
    intro name value hvalue
    rw [typedWorld, Table.ofList, Table.insertAll, List.foldl_cons, List.foldl_cons,
      List.foldl_nil, Table.find?_insert, Table.find?_insert, Table.find?_empty] at hvalue
    split at hvalue
    · cases hvalue
      rfl
    · split at hvalue
      · cases hvalue
        exact ⟨"Point", rfl⟩
      · cases hvalue
  case scopes => exact List.forall_mem_nil _

/-- A store of text in the array converts it, and one in the bean fails to. -/
theorem converted_stores_stay_wellTyped :
    let context := Context.standard {}
    let first : Operation := .eval (.assign (.index (.ident "xs") (.int 0)) (.str "7"))
    let second : Operation := .eval (.assign (.member (.ident "point") "x") (.str "x"))
    let mid := finalState (first.run context 1 typedWorld)
    let last := finalState (second.run context 1 mid)
    mid.heap.sequence 0 = [.int 7] ∧
      second.run context 1 mid =
        .error (.error (.of (.cannotConvert "x" "String" "Integer"))) last ∧
      WellTyped last [.string "7"] := by
  intro context first second mid last
  have hhost : context.HostWritesNoStorage :=
    { function := fun name function hfunction => by cases hfunction
      method := fun number name function hfunction =>
        ((Library.classes_read number).method name function hfunction).writesNoStorage
      behaviour := fun name behaviour hbehaviour => by cases hbehaviour }
  have hcontext : context.DrawsOn [] :=
    { constant := fun name value hvalue => by cases hvalue
      field := fun number name value hvalue =>
        Or.inl ((Library.classes_read number).field name value hvalue) }
  have hfirst : first.obtained (first.run context 1 typedWorld) = [.string "7"] := rfl
  have hsecond : second.run context 1 mid =
      .error (.error (.of (.cannotConvert "x" "String" "Integer"))) last := rfl
  have hsession : context.Asked typedWorld [] last [.string "7"] := by
    apply Context.Asked.step 1 first (List.forall_mem_nil _)
    apply Context.Asked.step 1 second (List.forall_mem_nil _)
    rw [hfirst, hsecond]
    exact .done last _
  refine ⟨rfl, hsecond, ?_⟩
  exact sessions_stay_wellTyped rfl rfl hhost hcontext typedWorld_wellTyped hsession

end ExprLang
