import ExprLang.Evaluation
import ExprLang.Proofs.Scope.Capture

/-!
# Laws of runs

A law says something of the run of an action from a world: what the run leaves alone, what it
keeps, or how it compares with another run.  A law is compositional if it holds of a run
whenever it holds of the steps that the run is put together from.  Everything that evaluation
does is put together from such steps, so a compositional law that lambdas, the host and the
resolver obey is obeyed by every run.
-/

namespace ExprLang

/-- The state that a run ends in, whether it succeeds or fails. -/
def finalState {ε σ α : Type} : EStateM.Result ε σ α → σ
  | .ok _ last | .error _ last => last

theorem World.now_bind {α : Type} (ask : World → Action α) (world : World) :
    (World.now >>= ask) world = ask world world := rfl

theorem World.heapNow_bind {α : Type} (ask : Heap → Action α) (world : World) :
    (World.heapNow >>= ask) world = ask world.heap world := rfl

theorem World.text_bind {α : Type} (value : Value) (ask : String → Action α) (world : World) :
    (World.text value >>= ask) world = ask (world.heap.text value) world := rfl

/-- Something that may be said of the run of an action from a world. -/
abbrev Law := (α : Type) → Action α → World → Prop

/-- The law holds of a run if it holds of its steps.  A step that looks at the world sees the
scopes through the values of names only. -/
structure Law.Compositional (law : Law) : Prop where
  pure {α : Type} (a : α) (world : World) : law α (Pure.pure a) world
  throw {α : Type} (failure : Failure) (world : World) : law α (throw failure) world
  bind {α β : Type} {action : Action α} {next : α → Action β} {world : World} :
    law α action world →
    (∀ a after, action world = .ok a after → law β (next a) after) →
    law β (action >>= next) world
  attempt {α : Type} {action : Action α} {world : World} :
    law α action world → law (Except EvalError α) action.attempt world
  withLayer {α : Type} (layer : Table Value) {action : Action α} {world : World} :
    law α action { world with scopes := world.scopes.push layer } →
    law α (World.withLayer layer action) world
  view {α : Type} {ask : World → Action α} {world : World} :
    (∀ scopes : Scopes, scopes.Agree world.scopes → ask { world with scopes } = ask world) →
    law α (ask world) world → law α (World.now >>= ask) world
  addSequence (items : Heap → List Value) (world : World) :
    law Ref (World.allocate fun heap => heap.addSequence (items heap)) world
  addMap (entries : List (Value × Value)) (world : World) :
    law Ref (World.allocate (·.addMap entries)) world
  addClosure (closure : Closure) (world : World) :
    law Ref (World.allocate (·.addClosure closure)) world

/-- A heap with one element of a sequence, the entries of one map or one property of a bean
replaced. -/
inductive Heap.Stored (heap : Heap) : Heap → Prop
  | element (r : Ref) (i : Nat) (value : Value) :
      Stored heap (heap.setSequence r ((heap.sequence r).set i value))
  | entries (r : Ref) (entries : List (Value × Value)) : Stored heap (heap.setEntries r entries)
  | property (r : Ref) (name : String) (value : Value) :
      Stored heap (heap.setObject r ((heap.object r).store name value))

/-- A compositional law that stores obey too. -/
structure Law.Storing (law : Law) : Prop extends law.Compositional where
  define (name : String) (value : Value) (world : World) :
    law Unit (modify fun world => world.define name value) world
  changeHeap {change : Heap → Heap} {world : World} :
    world.heap.Stored (change world.heap) → law Unit (World.changeHeap change) world

/-!
## Laws about the world at the end
-/

/-- The world at the end of the run, however it ends, is related to the one at its start. -/
def Law.ending (relation : World → World → Prop) : Law :=
  fun _ action world => relation world (finalState (action world))

/-- A relation of worlds that holds across each step of a run, and so across whole runs. -/
structure KeptBySteps (relation : World → World → Prop) : Prop where
  refl (world : World) : relation world world
  trans {before mid after : World} : relation before mid → relation mid after →
    relation before after
  withLayer {layer : Table Value} {world after : World} :
    relation { world with scopes := world.scopes.push layer } after →
    relation world { after with scopes := after.scopes.pop }
  addSequence (items : List Value) (world : World) :
    relation world { world with heap := (world.heap.addSequence items).2 }
  addMap (entries : List (Value × Value)) (world : World) :
    relation world { world with heap := (world.heap.addMap entries).2 }
  addClosure (closure : Closure) (world : World) :
    relation world { world with heap := (world.heap.addClosure closure).2 }

/-- A relation that holds across stores too. -/
structure KeptByStores (relation : World → World → Prop) : Prop extends KeptBySteps relation where
  define (name : String) (value : Value) (world : World) : relation world (world.define name value)
  stored {world : World} {heap : Heap} : world.heap.Stored heap → relation world { world with heap }

namespace Law

variable {relation : World → World → Prop}

theorem ending_compositional (h : KeptBySteps relation) : (Law.ending relation).Compositional where
  pure _ world := h.refl world
  throw _ world := h.refl world
  bind := by
    intro α β action next world haction hnext
    unfold Law.ending at haction hnext ⊢
    simp only [Bind.bind, EStateM.bind]
    cases hrun : action world with
    | ok a after =>
        rw [hrun] at haction
        exact h.trans haction (hnext a after hrun)
    | error failure after =>
        rw [hrun] at haction
        exact haction
  attempt := by
    intro α action world haction
    unfold Law.ending at haction ⊢
    unfold Action.attempt
    cases hrun : action world with
    | ok a after =>
        rw [hrun] at haction
        exact haction
    | error failure after =>
        rw [hrun] at haction
        cases failure <;> exact haction
  withLayer := by
    intro α layer action world haction
    unfold Law.ending at haction ⊢
    unfold World.withLayer
    cases hrun : action { world with scopes := world.scopes.push layer } with
    | ok a after =>
        rw [hrun] at haction
        exact h.withLayer haction
    | error failure after =>
        rw [hrun] at haction
        exact h.withLayer haction
  view _ hask := hask
  addSequence items world := h.addSequence (items world.heap) world
  addMap entries world := h.addMap entries world
  addClosure closure world := h.addClosure closure world

theorem ending_storing (h : KeptByStores relation) : (Law.ending relation).Storing :=
  { ending_compositional h.toKeptBySteps with
    define := h.define
    changeHeap := h.stored }

end Law

/-!
## The host and the resolver
-/

/-- What the function does in the heap obeys the law. -/
def HostFunction.Obeys (function : HostFunction) (law : Law) : Prop :=
  ∀ args world, law _ (World.onHeap (function.body args)) world

/-- What resolvers are given to call obeys the law. -/
structure Services.Obey (services : Services) (law : Law) : Prop where
  invoke : ∀ r args world, law _ (services.invoke r args) world
  method : ∀ number name function,
    (services.classes.getD number default).method? name = some function → function.Obeys law
  behaviour : ∀ name behaviour, services.behaviours.find? name = some behaviour →
    ∀ r args world, law _ (World.onHeap (behaviour r args)) world

/-- The functions, methods and behaviours of the host obey the law. -/
structure Context.HostObeys (context : Context) (law : Law) : Prop where
  function : ∀ name function, context.functions.find? name = some function → function.Obeys law
  method : ∀ number name function,
    (context.classes.getD number default).method? name = some function → function.Obeys law
  behaviour : ∀ name behaviour, context.behaviours.find? name = some behaviour →
    ∀ r args world, law _ (World.onHeap (behaviour r args)) world

/-- The resolver obeys the law as long as what it is given to call does. -/
structure Resolver.Obeys (r : Resolver) (law : Law) : Prop where
  get : ∀ services : Services, services.Obey law → ∀ base property world,
    law _ (r.get services base property) world
  type : ∀ services : Services, services.Obey law → ∀ base property world,
    law _ (r.type services base property) world
  set : ∀ services : Services, services.Obey law → ∀ base property value world,
    law _ (r.set services base property value) world
  readOnly : ∀ services : Services, services.Obey law → ∀ base property world,
    law _ (r.readOnly services base property) world
  invoke : ∀ services : Services, services.Obey law → ∀ base method args world,
    law _ (r.invoke services base method args) world

theorem Context.hostObeys_of_onHeap {law : Law} (context : Context)
    (honHeap : ∀ {α : Type} (action : HeapAction α) world, law α (World.onHeap action) world) :
    context.HostObeys law where
  function _ _ _ _ world := honHeap _ world
  method _ _ _ _ _ world := honHeap _ world
  behaviour _ _ _ _ _ world := honHeap _ world

end ExprLang
