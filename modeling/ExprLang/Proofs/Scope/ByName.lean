import ExprLang.Proofs.Evaluation.Operation
import ExprLang.Proofs.Evaluation.Resolvers

/-!
# Scopes seen by name

Evaluation looks at scopes only by the values of names: a name that is read, a name that is
stored in, and a lambda that captures all names at once.  So two runs from worlds that differ
in their scopes alone, and under whose scopes all names have the same values, have the same
result and end in worlds that differ in their scopes alone.
-/

namespace ExprLang

variable {α : Type}

/-- The result with the scopes of the world that it ends in replaced. -/
def withScopes (scopes : Scopes) :
    EStateM.Result Failure World α → EStateM.Result Failure World α
  | .ok a last => .ok a { last with scopes }
  | .error failure last => .error failure { last with scopes }

/-- The run takes the same course from all scopes under which names have the same values, and
ends in the scopes that it began in. -/
def Law.byName : Law := fun _ action world =>
  ∀ scopes : Scopes, scopes.Agree world.scopes →
    action { world with scopes } = withScopes scopes (action world)

theorem withScopes_eq_ok {scopes : Scopes} {result : EStateM.Result Failure World α} {a : α}
    {last : World} (h : result = withScopes scopes result) (hok : result = .ok a last) :
    last.scopes = scopes := by
  subst hok
  have hlast : last = { last with scopes } := by
    injection h
  rw [hlast]

namespace Law.byName

theorem scopes_of_ok {action : Action α} {world last : World} {a : α}
    (h : Law.byName α action world) (hrun : action world = .ok a last) :
    last.scopes = world.scopes :=
  withScopes_eq_ok (h world.scopes fun _ => rfl) hrun

theorem storing : Law.byName.Storing where
  pure _ _ _ _ := rfl
  throw _ _ _ _ := rfl
  bind := by
    intro α β action next world haction hnext scopes hscopes
    simp only [Bind.bind, EStateM.bind, haction scopes hscopes]
    cases hrun : action world with
    | ok a after =>
        -- the first step ends in the scopes that it began in, so they still agree
        have hafter : scopes.Agree after.scopes := by
          rw [haction.scopes_of_ok hrun]
          exact hscopes
        exact hnext a after hrun scopes hafter
    | error failure after => rfl
  attempt := by
    intro α action world haction scopes hscopes
    unfold Action.attempt
    rw [haction scopes hscopes]
    cases action world with
    | ok a after => rfl
    | error failure after => cases failure <;> rfl
  withLayer := by
    intro α layer action world haction scopes hscopes
    have hlayer := haction (scopes.push layer) (hscopes.push layer)
    unfold World.withLayer
    dsimp only at hlayer ⊢
    rw [hlayer]
    cases action { world with scopes := world.scopes.push layer } <;> rfl
  view := by
    intro α ask world hask hlaw scopes hscopes
    rw [World.now_bind, World.now_bind, hask scopes hscopes]
    exact hlaw scopes hscopes
  addSequence _ _ _ _ := rfl
  addMap _ _ _ _ := rfl
  addClosure _ _ _ _ := rfl
  define _ _ _ _ _ := rfl
  changeHeap _ _ _ := rfl

theorem onHeap (action : HeapAction α) (world : World) :
    Law.byName α (World.onHeap action) world := by
  intro scopes _
  unfold World.onHeap
  dsimp only
  cases action world.heap <;> rfl

end Law.byName
end ExprLang
