import ExprLang.Processor
import ExprLang.Proofs.Evaluation.Operation
import ExprLang.Proofs.Evaluation.Resolvers

/-!
# Balanced scopes

A lambda pushes one layer of bindings and drops it however its body ends.  So every run leaves
the scopes as it found them, and with them all bindings; the tables of the context are not
part of what a run changes.
-/

namespace ExprLang

/-- The run leaves the scopes as they are. -/
def Law.balanced : Law := .ending fun before after => after.scopes = before.scopes

theorem balanced_storing : Law.balanced.Storing :=
  Law.ending_storing
    { refl := fun _ => rfl
      trans := fun hfirst hsecond => hsecond.trans hfirst
      withLayer := fun hscopes => congrArg Scopes.pop hscopes
      addSequence := fun _ _ => rfl
      addMap := fun _ _ => rfl
      addClosure := fun _ _ => rfl
      define := fun _ _ _ => rfl
      stored := fun _ => rfl }

theorem onHeap_balanced {α : Type} (action : HeapAction α) (world : World) :
    Law.balanced α (World.onHeap action) world := by
  unfold Law.balanced Law.ending World.onHeap
  cases action world.heap <;> rfl

/-- Whatever is asked of the context of a processor, and however it ends, the scopes with all
their bindings and the tables of the context are as they were.  The resolver may be any that
keeps scopes as long as the lambdas it calls do; the standard one does. -/
theorem run_leaves_scopes :
    (∀ options, (Resolver.chain (Resolver.standard options)).Obeys .balanced) ∧
      ∀ processor : Processor, processor.context.resolver.Obeys .balanced →
        ∀ (depth : Nat) (operation : Operation),
          let last := finalState (Session.evaluate (operation.run · depth) processor)
          last.world.scopes = processor.world.scopes ∧ last.context = processor.context := by
  constructor
  · exact Resolver.standard_obeys balanced_storing
  · intro processor hresolver depth operation
    have hhost := processor.context.hostObeys_of_onHeap onHeap_balanced
    have hbalanced := operation.run_obeys balanced_storing.toCompositional hhost hresolver depth
      processor.world
    unfold Law.balanced Law.ending at hbalanced
    intro last
    have hworld : last.world = finalState (operation.run processor.context depth processor.world) ∧
        last.context = processor.context := by
      dsimp only [last, Session.evaluate]
      cases operation.run processor.context depth processor.world <;> exact ⟨rfl, rfl⟩
    rw [hworld.1]
    exact ⟨hbalanced, hworld.2⟩

/-- A lambda that fails on a store in its parameter leaves no layer behind. -/
theorem failing_lambda_leaves_scopes :
    let processor := Processor.ofConfig {}
    let body : Expr := .assign (.ident "x") (.int 2)
    let operation := Operation.eval (.call (.lambda ["x"] body) [.int 1])
    ∃ last, Session.evaluate (operation.run · Evaluation.depthLimit) processor =
        .error (.error (.of (.propertyNotWritable "x"))) last ∧
      last.world.scopes = processor.world.scopes ∧ last.context = processor.context := by
  intro processor body operation
  have hleaves := run_leaves_scopes.2 processor (run_leaves_scopes.1 _) Evaluation.depthLimit
    operation
  exact ⟨_, rfl, hleaves⟩

end ExprLang
