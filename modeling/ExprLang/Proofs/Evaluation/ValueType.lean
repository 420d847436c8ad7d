import ExprLang.Proofs.Scope.Balance
import ExprLang.Proofs.Store.Standard

/-!
# Types of values

The type of an expression is asked for by a walk of its own, which evaluates whatever it does not
look into.  A member of a value and a variable for an expression have declared types.  Where the
value of an expression comes from neither, the walk does what evaluation does, and answers the
type of the value.
-/

namespace ExprLang

/-- The parts that the value of an expression comes from: one of the branches of a choice, the
right side of a sequence, and what a template segment holds. -/
def Expr.results : Expr → List Expr
  | .ternary _ yes no => yes.results ++ no.results
  | .seq _ right => right.results
  | .deferred inner => inner.results
  | .dynamic inner => inner.results
  | expr => [expr]

/-- The part has no declared type: it is no member of a value, and no name that is a variable for
an expression under the scopes. -/
def Context.Undeclared (context : Context) (scopes : Scopes) : Expr → Prop
  | .member .. | .index .. => False
  | .ident name => scopes.find? name = none →
      ∀ expr type, context.bindings.find? name ≠ some (.expression expr type)
  | _ => True

/-- A run for a value and one for a type agree: the type is that of the value, or both fail alike.
Both end in one world. -/
inductive AgreeInType :
    EStateM.Result Failure World Value → EStateM.Result Failure World ValueType → Prop
  | answers (value : Value) (last : World) :
      AgreeInType (.ok value last) (.ok (last.heap.typeOf value) last)
  | fails (failure : Failure) (last : World) :
      AgreeInType (.error failure last) (.error failure last)

namespace Evaluation

open Resolver

variable {context : Context} {deeper : Deeper} {options : ResolverOptions} {expr : Expr}
  {name : String} {world : World}

/-!
## Names
-/

/-- Asked for the type of a top-level name, the standard resolvers answer that of its value. -/
theorem topLevelType_eq (hresolver : context.resolver = chain (standard options))
    (deeper : Deeper) (name : String) (world : World) :
    context.resolver.type (services context deeper) .null (.string name) world =
        .ok (match world.beans.find? name with
          | some bean => .resolved (world.heap.typeOf bean)
          | none => .unresolved) world ∧
      topLevel context deeper name world =
        .ok (match world.beans.find? name with
          | some bean => .resolved bean
          | none => .unresolved) world := by
  unfold topLevel
  rw [hresolver, standard_type, standard_get]
  refine ⟨?_, names_get_string name world⟩
  have htype : (names options).type (services context deeper) .null (.string name) world =
      (match world.beans.find? name with
        | some bean => do return .resolved ((← World.heapNow).typeOf bean)
        | none => return .unresolved : Action (Resolution ValueType)) world := rfl
  refine htype.trans ?_
  cases world.beans.find? name <;> rfl

theorem name_agreeInType (hresolver : context.resolver = chain (standard options))
    (hname : context.Undeclared world.scopes (.ident name)) :
    AgreeInType (nameValue context deeper name world) (nameType context deeper name world) := by
  obtain ⟨htype, hvalue⟩ := topLevelType_eq hresolver deeper name world
  unfold nameValue nameType
  rw [World.now_bind, World.now_bind]
  cases hbound : world.scopes.find? name with
  | some value => exact .answers value world
  | none =>
      cases hbinding : context.bindings.find? name with
      | some binding =>
          cases binding with
          | expression expr type => exact absurd hbinding (hname hbound expr type)
          | constant value => exact .answers value world
      | none =>
          cases hbean : world.beans.find? name with
          | some bean =>
              rw [hbean] at htype hvalue
              simp only [bind_of_ok htype, bind_of_ok hvalue]
              exact .answers bean world
          | none =>
              rw [hbean] at htype hvalue
              simp only [bind_of_ok htype, bind_of_ok hvalue]
              cases context.classRef? name <|> context.staticField? name with
              | some value => exact .answers value world
              | none => exact .fails _ world

/-!
## Expressions
-/

/-- Two runs that begin with one action agree if they do after it. -/
theorem agreeInType_bind {α : Type} {action : Action α} {value : α → Action Value}
    {type : α → Action ValueType}
    (h : ∀ a after, action world = .ok a after → AgreeInType (value a after) (type a after)) :
    AgreeInType ((action >>= value) world) ((action >>= type) world) := by
  cases hrun : action world with
  | ok a after =>
      rw [bind_of_ok hrun, bind_of_ok hrun]
      exact h a after hrun
  | error failure last =>
      rw [bind_of_error hrun, bind_of_error hrun]
      exact .fails failure last

theorem agreeInType_typeOf (action : Action Value) :
    AgreeInType (action world)
      ((action >>= fun value => do return (← World.heapNow).typeOf value) world) := by
  have hagree : AgreeInType ((action >>= pure) world)
      ((action >>= fun value => do return (← World.heapNow).typeOf value) world) :=
    agreeInType_bind fun value after _ => .answers value after
  rwa [bind_pure] at hagree

theorem world_of_truth {value : Value} {truth : Bool} {last : World}
    (h : World.truth value world = .ok truth last) : last = world :=
  (Action.ofExcept_eq_ok h).2

/-- The induction is on the walk for the type.  What is evaluated on the way to a part leaves the
scopes as they are, so a name in that part is bound there if it is at the start. -/
theorem expr_agreeInType (hresolver : context.resolver = chain (standard options))
    (hbalanced : ∀ expr world, Law.balanced _ (eval context deeper expr) world)
    (expr : Expr) (world : World)
    (hresults : ∀ part ∈ expr.results, context.Undeclared world.scopes part) :
    AgreeInType (eval context deeper expr world) (typeOf context deeper expr world) := by
  have hkept {expr : Expr} {value : Value} {start after : World}
      (hrun : eval context deeper expr start = .ok value after) :
      after.scopes = start.scopes := by
    have hscopes := hbalanced expr start
    rw [Law.balanced, Law.ending, hrun] at hscopes
    exact hscopes
  revert expr world hresults
  refine typeOf.induct
    (fun expr => ∀ world, (∀ part ∈ expr.results, context.Undeclared world.scopes part) →
      AgreeInType (eval context deeper expr world) (typeOf context deeper expr world))
    ?name ?member ?index ?ternary ?seq ?deferred ?dynamic ?other
  case name =>
    intro name world hresults
    rw [eval, typeOf]
    exact name_agreeInType hresolver (hresults _ List.mem_cons_self)
  case member =>
    intro object name world hresults
    exact (hresults _ List.mem_cons_self).elim
  case index =>
    intro object key world hresults
    exact (hresults _ List.mem_cons_self).elim
  case ternary =>
    intro condition yes no hyes hno world hresults
    rw [eval, typeOf]
    apply agreeInType_bind
    intro value mid hcondition
    apply agreeInType_bind
    intro truth after htruth
    rw [world_of_truth htruth]
    rw [← hkept hcondition] at hresults
    split
    · exact hyes mid fun part hpart => hresults part (List.mem_append_left _ hpart)
    · exact hno mid fun part hpart => hresults part (List.mem_append_right _ hpart)
  case seq =>
    intro left right hright world hresults
    rw [eval, typeOf]
    apply agreeInType_bind
    intro value mid hleft
    rw [← hkept hleft] at hresults
    exact hright mid hresults
  case deferred =>
    intro inner hinner world hresults
    rw [eval, typeOf]
    exact hinner world hresults
  case dynamic =>
    intro inner hinner world hresults
    rw [eval, typeOf]
    exact hinner world hresults
  case other =>
    intro expr hname hmember hindex hternary hseq hdeferred hdynamic world _
    rw [typeOf]
    · exact agreeInType_typeOf _
    all_goals assumption

/-- Where the value of an expression comes from no member of a value and from no variable for an
expression, asking for its type is evaluating it: the answer is the type of the value, or both
fail with one error, and both leave the same world behind. -/
theorem typeOf_agrees_eval (hresolver : context.resolver = chain (standard options))
    (depth : Nat) (expr : Expr) (world : World)
    (hresults : ∀ part ∈ expr.results, context.Undeclared world.scopes part) :
    AgreeInType ((within context depth).eval expr world)
      ((within context depth).type expr world) := by
  have hhost := context.hostObeys_of_onHeap onHeap_balanced
  have hobeys : context.resolver.Obeys .balanced := by
    rw [hresolver]
    exact standard_obeys balanced_storing options
  have hwithin := within_obeys balanced_storing.toCompositional hhost hobeys
  cases depth with
  | zero => exact .fails .tooDeep world
  | succ depth => exact expr_agreeInType hresolver (hwithin (depth + 1)).eval expr world hresults

/-- A choice between a name and a value that is assigned on the way: the type of the name is that
of the value it has been given. -/
theorem assigned_name_agrees :
    let context := Context.standard {}
    let world := (default : World).define "x" (.int 1)
    let assigned : Expr := .assign (.ident "x") (.str "text")
    let expr : Expr := .seq assigned (.ternary (.bool true) (.ident "x") assigned)
    AgreeInType ((within context 1).eval expr world) ((within context 1).type expr world) ∧
      ∃ last, (within context 1).type expr world = .ok .string last := by
  intro context world assigned expr
  have hresolver : context.resolver = chain (standard {}) := rfl
  refine ⟨typeOf_agrees_eval hresolver 1 expr world ?_, _, rfl⟩
  intro part hpart
  have hparts : part = .ident "x" ∨ part = assigned := by
    simpa [expr, assigned, Expr.results] using hpart
  rcases hparts with rfl | rfl
  · exact fun _ _ _ => nofun
  · trivial

end Evaluation
end ExprLang
