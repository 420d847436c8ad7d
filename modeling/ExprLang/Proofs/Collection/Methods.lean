import ExprLang.Proofs.Resolution.Standard
import ExprLang.Proofs.Storage.Layout
import ExprLang.Proofs.Store.Standard

/-!
# Calls of the methods of collections

A method that is called on a value is answered by the one standard resolver that handles the
methods of that value.  For lists, sets and arrays this is the resolver of the methods of
collections, which looks up the elements when the method is called.
-/

namespace ExprLang

namespace Heap

variable {heap : Heap} {base : Value} {items added : List Value}

/-- The elements of a collection do not change when a new sequence takes the next free place, not
even where nothing was found at this place before. -/
theorem items?_addSequence (hitems : heap.items? base = some items)
    (hnil : items = [] → added = []) : (heap.addSequence added).2.items? base = some items := by
  have hsequence (r : Ref) (hr : heap.sequence r = items) :
      (heap.addSequence added).2.sequence r = items := by
    rcases heap.sequence_addSequence r added with hsame | ⟨rfl, hnew⟩
    · exact hsame.trans hr
    · have hfree : heap.sequence heap.sequences.size = [] := by
        rw [sequence, Array.getD_eq_getD_getElem?, Array.getElem?_eq_none (Nat.le_refl _)]
        rfl
      rw [hnew, ← hr, hfree, hnil (hr.symm.trans hfree)]
  cases base with
  | list r | set r | array _ r => exact congrArg some (hsequence r (Option.some_inj.mp hitems))
  | _ => cases hitems

end Heap

namespace Resolver

variable {options : ResolverOptions} {services : Services} {base : Value} {method : String}
  {args : List Value}

theorem methodHandler_mem (options : ResolverOptions) (base : Value) :
    methodHandler options base ∈ standard options := by
  cases base <;> simp [standard, ofValues, methodHandler]

/-- All other resolvers leave the methods of a value to the one that handles them. -/
theorem standard_invoke : (chain (standard options)).invoke services base method args =
    (methodHandler options base).invoke services base method args := by
  obtain ⟨before, after, hsplit⟩ := List.append_of_mem (methodHandler_mem options base)
  have hnodup := standard_nodup options
  have hignores := standard_ignores_invoke options base method args
  rw [hsplit] at hnodup hignores
  have hothers : ∀ s ∈ before ++ after, s.Ignores (.invoke base method args) := by
    intro s hs
    have hne : s ≠ methodHandler options base := by
      rintro rfl
      exact (List.nodup_cons.mp (List.nodup_middle.mp hnodup)).1 hs
    exact (hignores s (List.perm_middle.mem_iff.mpr (List.mem_cons_of_mem _ hs))).resolve_left hne
  change first ((standard options).map fun r => r.invoke services base method args) = _
  rw [hsplit]
  exact first_speaker (fun s hs => hothers s (List.mem_append_left after hs) services)
    (fun s hs => hothers s (List.mem_append_right before hs) services)

theorem methodHandler_of_items? {heap : Heap} {items : List Value}
    (hitems : heap.items? base = some items) : methodHandler options base = collectionMethods := by
  cases base with
  | list | set | array => rfl
  | _ => cases hitems

end Resolver

namespace Evaluation

open Resolver

variable {context : Context} {deeper : Deeper} {options : ResolverOptions}

/-- A method of a collection is run on the elements that the collection holds now. -/
theorem invokeMethod_collection (hresolver : context.resolver = chain (standard options))
    {world : World} {base : Value} {items args : List Value} {name : String}
    {method : CollectionMethod} (hitems : world.heap.items? base = some items)
    (hmethod : CollectionMethod.ofName? name = some method)
    (hleast : method.arity.1 ≤ args.length) (hgreatest : args.length ≤ method.arity.2) :
    invokeMethod context deeper base name args world =
      Collection.run (services context deeper) method name items args world := by
  have hanswer : collectionMethods.invoke (services context deeper) base name args world =
      (do return .resolved (← Collection.run (services context deeper) method name items args) :
        Action (Resolution Value)) world := by
    unfold collectionMethods
    dsimp only
    rw [World.heapNow_bind, hitems, hmethod]
    have hcount : (args.length < method.arity.1 || method.arity.2 < args.length) = false := by
      rw [Bool.or_eq_false_iff, decide_eq_false_iff_not, decide_eq_false_iff_not]
      omega
    dsimp only
    rw [hcount]
    rfl
  unfold invokeMethod
  rw [hresolver, standard_invoke, methodHandler_of_items? hitems]
  cases hrun : Collection.run (services context deeper) method name items args world with
  | error failure last =>
      rw [bind_of_error (hanswer.trans (bind_of_error hrun))]
  | ok value last =>
      rw [bind_of_ok (hanswer.trans (bind_of_ok hrun))]
      rfl

end Evaluation
end ExprLang
