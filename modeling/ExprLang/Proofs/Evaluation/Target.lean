import ExprLang.Proofs.Store.Dispatch

/-!
# Targets of stores

A store in an expression and the check whether the expression is read-only first find out what
the expression denotes: a name that is bound, a top-level name, a member of a value, or nothing
of the kind.  They evaluate the same parts of the expression in the same order to find it, and part
only then.
-/

namespace ExprLang

/-- What an expression denotes as the target of a store. -/
inductive Target
  /-- A name that is bound to a value by a lambda or by the host. -/
  | bound (name : String)
  | name (name : String)
  | member (base key : Value)
  | nothing

namespace Evaluation

open Resolver

variable (context : Context) (deeper : Deeper)

/-!
## Finding the target
-/

def nameTarget (find : Expr → Action Target) (name : String) : Action Target := do
  if (← World.now).scopes.isBound name then return .bound name
  else
    match context.bindings.find? name with
    | some (.expression expr _) => find expr
    | some (.constant _) => return .bound name
    | none => return .name name

/-- The target that an expression denotes; `find` is for the expressions of variables. -/
def target (find : Expr → Action Target) : Expr → Action Target
  | .ident name => nameTarget context find name
  | .member object name => return .member (← eval context deeper object) (.string name)
  | .index object key => do
    let base ← eval context deeper object
    return .member base (← eval context deeper key)
  | .deferred inner => target find inner
  | .dynamic inner => target find inner
  | _ => return .nothing

/-- The target with variables nested at most `depth` deep. -/
def targetWithin : Nat → Expr → Action Target
  | 0, _ => throw .tooDeep
  | depth + 1, expr => target context (within context depth) (targetWithin depth) expr

/-!
## What is done with a target
-/

def storeTarget (value : Value) : Target → Action Unit
  | .bound name => .fail (.propertyNotWritable name)
  | .name name => store context deeper .null (.string name) value
  | .member base key => store context deeper base key value
  | .nothing => .fail .invalidAssignmentTarget

/-- Whether a target refuses to be stored in. -/
def readOnlyTarget : Target → Action Bool
  | .bound _ | .nothing => return true
  | .name name => do
    match ← context.resolver.readOnly (services context deeper) .null (.string name) with
    | .resolved answer => return answer
    | .unresolved => .fail (.propertyNotFound name none)
  | .member base key => askMember context deeper context.resolver.readOnly base key

variable {context deeper}

/-!
## Stores and checks by way of the target
-/

/-- An operation on expressions that does nothing but find the target and finish with it. -/
structure FindsTarget {α : Type} (context : Context) (run : Nat → Expr → Action α)
    (finish : Target → Action α) : Prop where
  zero : ∀ expr, run 0 expr = throw .tooDeep
  name : ∀ depth name, run (depth + 1) (.ident name) = do
    if (← World.now).scopes.isBound name then finish (.bound name)
    else
      match context.bindings.find? name with
      | some (.expression expr _) => run depth expr
      | some (.constant _) => finish (.bound name)
      | none => finish (.name name)
  member : ∀ depth object name, run (depth + 1) (.member object name) = do
    finish (.member (← eval context (within context depth) object) (.string name))
  index : ∀ depth object key, run (depth + 1) (.index object key) = do
    let base ← eval context (within context depth) object
    finish (.member base (← eval context (within context depth) key))
  deferred : ∀ depth inner, run (depth + 1) (.deferred inner) = run (depth + 1) inner
  dynamic : ∀ depth inner, run (depth + 1) (.dynamic inner) = run (depth + 1) inner
  other : ∀ depth expr, (∀ name, expr = .ident name → False) →
    (∀ object name, expr = .member object name → False) →
    (∀ object key, expr = .index object key → False) →
    (∀ inner, expr = .deferred inner → False) → (∀ inner, expr = .dynamic inner → False) →
    run (depth + 1) expr = finish .nothing

theorem FindsTarget.eq {α : Type} {run : Nat → Expr → Action α} {finish : Target → Action α}
    (h : FindsTarget context run finish) (depth : Nat) (expr : Expr) :
    run depth expr = targetWithin context depth expr >>= finish := by
  induction depth generalizing expr with
  | zero => exact h.zero expr
  | succ depth ih =>
      change run (depth + 1) expr =
        target context (within context depth) (targetWithin context depth) expr >>= finish
      revert expr
      refine readOnly.induct (fun expr => run (depth + 1) expr =
        target context (within context depth) (targetWithin context depth) expr >>= finish)
        ?name ?member ?index ?deferred ?dynamic ?other
      case name =>
        intro name
        rw [h.name, target, nameTarget, bind_assoc]
        apply bind_congr
        intro world
        split
        · rfl
        · cases context.bindings.find? name with
          | none => rfl
          | some binding =>
              cases binding with
              | expression expr type => exact ih expr
              | constant => rfl
      case member =>
        intro object name
        rw [h.member, target, bind_assoc]
        rfl
      case index =>
        intro object key
        rw [h.index, target, bind_assoc]
        apply bind_congr
        intro base
        rw [bind_assoc]
        rfl
      case deferred =>
        intro inner hinner
        rw [h.deferred, target]
        exact hinner
      case dynamic =>
        intro inner hinner
        rw [h.dynamic, target]
        exact hinner
      case other =>
        intro expr hname hmember hindex hdeferred hdynamic
        rw [h.other depth expr hname hmember hindex hdeferred hdynamic, target]
        · rfl
        all_goals assumption

section Standard

variable {options : ResolverOptions} (hresolver : context.resolver = chain (standard options))

include hresolver

/-- The standard resolvers store without calling a lambda. -/
theorem storeTarget_standard (deeper deeper' : Deeper) (value : Value) :
    storeTarget context deeper value = storeTarget context deeper' value := by
  have hstore (base key : Value) :
      store context deeper base key value = store context deeper' base key value := by
    unfold store
    rw [hresolver, standard_set, standard_set]
    cases base <;> rfl
  funext found
  cases found with
  | bound | nothing => rfl
  | name name => exact hstore _ _
  | member base key => exact hstore _ _

theorem readOnlyTarget_standard (deeper deeper' : Deeper) :
    readOnlyTarget context deeper = readOnlyTarget context deeper' := by
  have hask (base key : Value) :
      context.resolver.readOnly (services context deeper) base key =
        context.resolver.readOnly (services context deeper') base key := by
    rw [hresolver, standard_readOnly, standard_readOnly]
    cases base <;> rfl
  funext found
  cases found with
  | bound | nothing => rfl
  | name name => simp only [readOnlyTarget, hask]
  | member base key => simp only [readOnlyTarget, askMember, hask]

theorem assign_findsTarget (deeper : Deeper) (value : Value) :
    FindsTarget context (fun depth expr => (within context depth).assign expr value)
      (storeTarget context deeper value) where
  zero _ := rfl
  name depth name := by
    rw [storeTarget_standard hresolver deeper (within context depth)]
    change assign context (within context depth) (.ident name) value = _
    rw [assign]
    rfl
  member depth object name := by
    rw [storeTarget_standard hresolver deeper (within context depth)]
    change assign context (within context depth) (.member object name) value = _
    rw [assign]
    rfl
  index depth object key := by
    rw [storeTarget_standard hresolver deeper (within context depth)]
    change assign context (within context depth) (.index object key) value = _
    rw [assign]
    rfl
  deferred depth inner := by
    change assign context (within context depth) (.deferred inner) value = _
    rw [assign]
    rfl
  dynamic depth inner := by
    change assign context (within context depth) (.dynamic inner) value = _
    rw [assign]
    rfl
  other depth expr hname hmember hindex hdeferred hdynamic := by
    change assign context (within context depth) expr value = _
    rw [assign]
    · rfl
    all_goals assumption

theorem readOnly_findsTarget (deeper : Deeper) :
    FindsTarget context (fun depth => (within context depth).readOnly)
      (readOnlyTarget context deeper) where
  zero _ := rfl
  name depth name := by
    rw [readOnlyTarget_standard hresolver deeper (within context depth)]
    change readOnly context (within context depth) (.ident name) = _
    rw [readOnly]
    rfl
  member depth object name := by
    rw [readOnlyTarget_standard hresolver deeper (within context depth)]
    change readOnly context (within context depth) (.member object name) = _
    rw [readOnly]
    rfl
  index depth object key := by
    rw [readOnlyTarget_standard hresolver deeper (within context depth)]
    change readOnly context (within context depth) (.index object key) = _
    rw [readOnly]
    rfl
  deferred depth inner := by
    change readOnly context (within context depth) (.deferred inner) = _
    rw [readOnly]
    rfl
  dynamic depth inner := by
    change readOnly context (within context depth) (.dynamic inner) = _
    rw [readOnly]
    rfl
  other depth expr hname hmember hindex hdeferred hdynamic := by
    change readOnly context (within context depth) expr = _
    rw [readOnly]
    · rfl
    all_goals assumption

end Standard

end Evaluation
end ExprLang
