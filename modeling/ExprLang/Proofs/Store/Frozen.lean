import ExprLang.Processor
import ExprLang.Proofs.Evaluation.Library
import ExprLang.Proofs.Evaluation.Operation
import ExprLang.Proofs.Evaluation.Resolvers
import ExprLang.Proofs.Evaluation.Target

/-!
# Read-only processors

The resolvers of a read-only processor refuse every store, and no other step changes an object
that is there already or a bean.  So a run leaves the beans as they are and at most adds objects,
and no assignment comes to an answer.
-/

namespace ExprLang

/-!
## What is there stays
-/

/-- Everything in the first array is in its place in the second. -/
def Kept {α : Type} (before after : Array α) : Prop :=
  ∀ (i : Nat) (a : α), before[i]? = some a → after[i]? = some a

namespace Kept

variable {α : Type}

theorem refl (before : Array α) : Kept before before := fun _ _ hfound => hfound

theorem trans {before mid after : Array α} (hfirst : Kept before mid) (hsecond : Kept mid after) :
    Kept before after :=
  fun i a hfound => hsecond i a (hfirst i a hfound)

theorem push (before : Array α) (added : α) : Kept before (before.push added) := by
  intro i a hfound
  have hi := (Array.getElem?_eq_some_iff.mp hfound).1
  rw [Array.getElem?_push_lt hi, ← hfound, Array.getElem?_eq_getElem hi]

end Kept

/-- Every object of the first heap is in the second, with the contents that it had. -/
structure Heap.Extends (before after : Heap) : Prop where
  sequences : Kept before.sequences after.sequences
  maps : Kept before.maps after.maps
  objects : Kept before.objects after.objects
  closures : Kept before.closures after.closures

namespace Heap.Extends

theorem refl (heap : Heap) : heap.Extends heap := ⟨.refl _, .refl _, .refl _, .refl _⟩

theorem trans {before mid after : Heap} (hfirst : before.Extends mid)
    (hsecond : mid.Extends after) : before.Extends after where
  sequences := hfirst.sequences.trans hsecond.sequences
  maps := hfirst.maps.trans hsecond.maps
  objects := hfirst.objects.trans hsecond.objects
  closures := hfirst.closures.trans hsecond.closures

end Heap.Extends

/-- The run leaves the beans and all objects that there are as they are. -/
def Law.frozen : Law :=
  .ending fun before after => after.beans = before.beans ∧ before.heap.Extends after.heap

theorem frozen_compositional : Law.frozen.Compositional :=
  Law.ending_compositional
    { refl := fun world => ⟨rfl, .refl world.heap⟩
      trans := fun hfirst hsecond =>
        ⟨hsecond.1.trans hfirst.1, hfirst.2.trans hsecond.2⟩
      withLayer := fun hlayer => hlayer
      addSequence := fun _ _ => ⟨rfl, { Heap.Extends.refl _ with sequences := .push _ _ }⟩
      addMap := fun _ _ => ⟨rfl, { Heap.Extends.refl _ with maps := .push _ _ }⟩
      addClosure := fun _ _ => ⟨rfl, { Heap.Extends.refl _ with closures := .push _ _ }⟩ }

/-!
## Actions without an answer
-/

/-- The action comes to no answer, from whatever world. -/
def Action.Fruitless {α : Type} (action : Action α) : Prop :=
  ∀ before answer after, action before ≠ .ok answer after

namespace Action.Fruitless

variable {α β : Type}

theorem fail (fault : EvalFault) : Fruitless (.fail fault : Action α) := by
  intro before answer after hrun
  cases hrun

theorem bind_of_ok {action : Action α} {next : α → Action β}
    (hnext : ∀ before a after, action before = .ok a after → (next a).Fruitless) :
    (action >>= next).Fruitless := by
  intro before answer last hrun
  simp only [Bind.bind, EStateM.bind] at hrun
  split at hrun
  · rename_i a after hfirst
    exact hnext before a after hfirst after answer last hrun
  · cases hrun

theorem bind {action : Action α} {next : α → Action β} (hnext : ∀ a, (next a).Fruitless) :
    (action >>= next).Fruitless :=
  bind_of_ok fun _ a _ _ => hnext a

end Action.Fruitless

/-!
## Refused stores
-/

namespace Resolver

variable {options : ResolverOptions} {services : Services}

theorem names_set_unresolved (hreadOnly : options.readOnly = true) {property value : Value}
    {before after : World} :
    (names options).set services .null property value before ≠ .ok (.resolved ()) after := by
  by_cases hname : ∃ name, property = .string name
  · obtain ⟨name, rfl⟩ := hname
    rw [names_set_string, hreadOnly]
    intro hrun
    split at hrun
    · cases hrun
    · cases hrun
  · rw [names_set_other fun name hproperty => hname ⟨name, hproperty⟩]
    intro hrun
    cases hrun

/-- The standard resolvers refuse every store when they are read-only. -/
theorem standard_refuses (hreadOnly : options.readOnly = true) (base property value : Value)
    (before after : World) :
    (chain (standard options)).set services base property value before ≠
      .ok (.resolved ()) after := by
  rw [standard_set]
  cases base with
  | null => exact names_set_unresolved hreadOnly
  | classRef => exact Action.Fruitless.bind (fun _ => .fail _) before _ after
  | map =>
      simp only [handler, mapEntries, hreadOnly, if_true]
      exact Action.Fruitless.bind (fun _ => .fail _) before _ after
  | list =>
      simp only [handler, listElements, hreadOnly, if_true]
      exact Action.Fruitless.bind (fun _ => .fail _) before _ after
  | array =>
      simp only [handler, arrayElements, hreadOnly, Bool.true_or, if_true]
      exact Action.Fruitless.bind (fun _ => .fail _) before _ after
  | bean =>
      simp only [handler, beanProperties, hreadOnly, Bool.true_or, if_true]
      exact Action.Fruitless.bind (fun _ => .fail _) before _ after
  | _ =>
      intro hrun
      cases hrun

end Resolver

namespace Evaluation

open Resolver

variable {context : Context} {options : ResolverOptions}
  (hresolver : context.resolver = chain (standard options)) (hreadOnly : options.readOnly = true)

include hresolver hreadOnly

theorem store_fruitless (deeper : Deeper) (base key value : Value) :
    (store context deeper base key value).Fruitless := by
  unfold store
  rw [hresolver]
  apply Action.Fruitless.bind_of_ok
  intro before answer after hrun
  cases answer with
  | resolved => exact absurd hrun (standard_refuses hreadOnly base key value before after)
  | unresolved => exact .bind fun _ => .fail _

theorem storeTarget_fruitless (deeper : Deeper) (value : Value) (target : Target) :
    (storeTarget context deeper value target).Fruitless := by
  cases target with
  | bound | nothing => exact .fail _
  | name name => exact store_fruitless hresolver hreadOnly deeper _ _ _
  | member base key => exact store_fruitless hresolver hreadOnly deeper _ _ _

theorem assign_fruitless (depth : Nat) (expr : Expr) (value : Value) :
    ((within context depth).assign expr value).Fruitless := by
  have htarget := (assign_findsTarget hresolver (within context 0) value).eq depth expr
  rw [htarget]
  exact .bind fun target => storeTarget_fruitless hresolver hreadOnly _ value target

theorem eval_assign_fruitless (depth : Nat) (target value : Expr) :
    (eval context (within context depth) (.assign target value)).Fruitless := by
  rw [eval]
  apply Action.Fruitless.bind
  intro value
  apply Action.Fruitless.bind_of_ok
  intro before _ after hrun
  exact absurd hrun (assign_fruitless hresolver hreadOnly (depth + 1) target value before _ after)

end Evaluation

/-!
## Read-only processors
-/

/-- A read-only processor never writes.  No store succeeds and no assignment has a value, in
whatever world and at whatever depth of calls; and whatever is asked, and however it ends, the
beans and the objects that there were are as they were, if the host leaves them so. -/
theorem readOnly_writes_nothing (config : Config) (hreadOnly : config.readOnly = true)
    (processor : Processor)
    (hresolver : processor.context.resolver = (Processor.ofConfig config).context.resolver)
    (hhost : processor.context.HostObeys .frozen) (depth : Nat) :
    let operations := Evaluation.within processor.context depth
    (∀ target value, Action.Fruitless
      (Evaluation.eval processor.context operations (.assign target value))) ∧
    (∀ target value, Action.Fruitless (operations.assign target value)) ∧
    ∀ operation : Operation,
      let last := finalState (Session.evaluate (operation.run · depth) processor)
      last.context = processor.context ∧ last.world.beans = processor.world.beans ∧
        processor.world.heap.Extends last.world.heap := by
  have hstandard : processor.context.resolver =
      .chain (Resolver.standard config.resolverOptions) := hresolver
  refine ⟨?assignment, ?store, ?kept⟩
  case assignment => exact Evaluation.eval_assign_fruitless hstandard hreadOnly depth
  case store => exact Evaluation.assign_fruitless hstandard hreadOnly depth
  case kept =>
    intro operation
    have hobeys : processor.context.resolver.Obeys .frozen := by
      rw [hstandard]
      exact Resolver.readOnly_standard_obeys frozen_compositional hreadOnly
    have hfrozen := operation.run_obeys frozen_compositional hhost hobeys depth processor.world
    unfold Law.frozen Law.ending at hfrozen
    intro last
    have hlast : last.context = processor.context ∧
        last.world = finalState (operation.run processor.context depth processor.world) := by
      dsimp only [last, Session.evaluate]
      cases operation.run processor.context depth processor.world <;> exact ⟨rfl, rfl⟩
    rw [hlast.2]
    exact ⟨hlast.1, hfrozen⟩

/-- A list that a bean holds is not stored in, though a new list is made on the way. -/
theorem readOnly_refuses_element :
    let processor : Processor :=
      { Processor.ofConfig { readOnly := true } with
        world := ⟨(Heap.empty.addSequence [.long 1]).2, .ofList [("xs", .list 0)], .empty⟩ }
    let store : Expr := .assign (.index (.ident "xs") (.int 0)) (.list [.int 2])
    ∃ last, Session.evaluate ((Operation.eval store).run · Evaluation.depthLimit) processor =
        .error (.error (.of (.propertyNotWritable "0"))) last ∧
      last.world.heap.sequences.size = 2 ∧ last.world.beans = processor.world.beans ∧
      processor.world.heap.Extends last.world.heap := by
  intro processor store
  have hhost : processor.context.HostObeys .frozen :=
    Context.ofResolver_hostObeys frozen_compositional _
  have hkept := (readOnly_writes_nothing { readOnly := true } rfl processor rfl hhost
    Evaluation.depthLimit).2.2 (.eval store)
  exact ⟨_, rfl, rfl, hkept.2⟩

end ExprLang
