import ExprLang.Proofs.Evaluation.Law
import ExprLang.Proofs.Store.Standard

/-!
# Places name stores

The place that an expression denotes is found without storing, and a store finds it again in the
same way.  So as long as no lambda hides a name, a store in an expression is a store of the
resolver in the place found; where finding a place fails so does the store, and what denotes no
place is refused before anything is evaluated.
-/

namespace ExprLang

/-- The fault of a place that no resolver knows. -/
def Place.notFound (place : Place) (heap : Heap) : EvalFault :=
  .propertyNotFound (heap.text place.property)
    (if place.base.isNull then none else some (heap.typeName place.base))

/-- What comes of a store in a place when the resolver has been asked to store there. -/
inductive Place.Outcome (place : Place) :
    EStateM.Result Failure World (Resolution Unit) → EStateM.Result Failure World Unit → Prop
  | stored (last : World) : Outcome place (.ok (.resolved ()) last) (.ok () last)
  | missing (last : World) :
      Outcome place (.ok .unresolved last) (.error (.error (place.notFound last.heap)) last)
  | failed (failure : Failure) (last : World) :
      Outcome place (.error failure last) (.error failure last)

/-- The resolver stores without a call of a lambda. -/
def Resolver.StoresUncalled (r : Resolver) : Prop :=
  ∀ (services : Services) (invoke : Ref → List Value → Action Value) (base property value : Value),
    r.set { services with invoke } base property value = r.set services base property value

/-- As long as no lambda binds a name, the store is refused for want of permission, with one error
in all worlds, which it leaves as they are. -/
def Action.Refuses (action : Action Unit) : Prop :=
  ∃ error : EvalError, error.category = .propertyNotWritable ∧
    ∀ world : World, world.scopes.Agree .empty → action world = .error (.error error) world

theorem Resolver.standard_storesUncalled (options : ResolverOptions) :
    (chain (standard options)).StoresUncalled := by
  intro services invoke base property value
  rw [standard_set, standard_set]
  cases base <;> rfl

namespace Evaluation

open Resolver

variable {context : Context} {deeper : Deeper} {value : Value} {world : World}

/-- What a store does, going by the result of the search for the place.  The resolver is asked with
what is left of the depth of calls, or with anything if it calls no lambda. -/
def FollowsPlace (context : Context) (depth : Nat) (world : World) (value : Value)
    (store : Action Unit) : EStateM.Result Failure World (Option Place) → Prop
  | .error failure after => store world = .error failure after
  | .ok none after => after = world ∧ store.Refuses
  | .ok (some place) after => ∃ left < depth, ∀ deeper,
      deeper = within context left ∨ context.resolver.StoresUncalled →
      place.Outcome
        (context.resolver.set (services context deeper) place.base place.property value after)
        (store world)

namespace FollowsPlace

variable {depth : Nat} {store store' : Action Unit}
  {result : EStateM.Result Failure World (Option Place)}

theorem succ (h : FollowsPlace context depth world value store result) :
    FollowsPlace context (depth + 1) world value store result := by
  cases result with
  | error => exact h
  | ok place after =>
      cases place with
      | none => exact h
      | some place =>
          obtain ⟨left, hleft, houtcome⟩ := h
          exact ⟨left, Nat.lt_succ_of_lt hleft, houtcome⟩

/-- A store is looked at only where no lambda binds a name. -/
theorem congr (h : FollowsPlace context depth world value store result)
    (hscopes : world.scopes.Agree .empty)
    (hstore : ∀ start : World, start.scopes.Agree .empty → store' start = store start) :
    FollowsPlace context depth world value store' result := by
  cases result with
  | error => exact (hstore world hscopes).trans h
  | ok place after =>
      cases place with
      | none =>
          obtain ⟨hafter, error, hcategory, hrefuses⟩ := h
          refine ⟨hafter, error, hcategory, ?_⟩
          intro start hstart
          rw [hstore start hstart, hrefuses start hstart]
      | some place =>
          unfold FollowsPlace
          rw [hstore world hscopes]
          exact h

end FollowsPlace

/-!
## Finding a place
-/

theorem store_outcome (place : Place) (after : World) :
    place.Outcome
      (context.resolver.set (services context deeper) place.base place.property value after)
      (store context deeper place.base place.property value after) := by
  unfold store
  cases hset : context.resolver.set (services context deeper) place.base place.property value
      after with
  | error failure last =>
      rw [bind_of_error hset]
      exact .failed failure last
  | ok answer last =>
      rw [bind_of_ok hset]
      cases answer with
      | resolved => exact .stored last
      | unresolved =>
          have hmissing : (missing place.base place.property >>= fun fault => Action.fail fault :
              Action Unit) last = .error (.error (place.notFound last.heap)) last := by
            unfold missing Place.notFound
            rw [bind_assoc, World.text_bind]
            cases place.base.isNull <;> rfl
          change place.Outcome _ ((missing place.base place.property >>= fun fault =>
            Action.fail fault : Action Unit) last)
          rw [hmissing]
          exact .missing last

/-- A store at the place found asks the resolver there. -/
theorem followsPlace_some {depth : Nat} (place : Place) {after : World} {action : Action Unit}
    (haction : action world =
      store context (within context depth) place.base place.property value after) :
    FollowsPlace context (depth + 1) world value action (.ok (some place) after) := by
  refine ⟨depth, Nat.lt_succ_self depth, ?_⟩
  intro deeper hdeeper
  have hset : context.resolver.set (services context deeper) place.base place.property value after =
      context.resolver.set (services context (within context depth)) place.base place.property value
        after := by
    rcases hdeeper with rfl | huncalled
    · rfl
    · exact congrFun (huncalled (services context (within context depth)) (apply deeper) _ _ _)
        after
  rw [haction, hset]
  exact store_outcome place after

/-- The search and the store find the place by one action. -/
theorem followsPlace_found {depth : Nat} (finding : Action Place)
    {search : Action (Option Place)} {action : Action Unit} (hsearch : search = some <$> finding)
    (haction : action = finding >>= fun place =>
      store context (within context depth) place.base place.property value) :
    FollowsPlace context (depth + 1) world value action (search world) := by
  subst hsearch haction
  change FollowsPlace context (depth + 1) world value _ ((finding >>= fun place =>
    pure (some place)) world)
  cases hfinding : finding world with
  | error failure after =>
      rw [bind_of_error hfinding]
      exact bind_of_error hfinding
  | ok place after =>
      rw [bind_of_ok hfinding]
      exact followsPlace_some place (bind_of_ok hfinding)

theorem refuses_fail {fault : EvalFault} (hfault : fault.category = .propertyNotWritable) :
    (Action.fail fault).Refuses :=
  ⟨.of fault, hfault, fun _ _ => rfl⟩

/-- Without lambdas a name is a variable or a top-level name. -/
theorem assignName_eq (context : Context) (deeper : Deeper) (name : String) (value : Value)
    (hscopes : world.scopes.Agree .empty) :
    assignName context deeper name value world =
      (match context.bindings.find? name with
        | some (.expression expr _) => deeper.assign expr value
        | some (.constant _) => .fail (.propertyNotWritable name)
        | none => store context deeper .null (.string name) value : Action Unit) world := by
  have hbound : ¬ world.scopes.isBound name = true := by
    rw [hscopes.isBound name]
    exact Bool.false_ne_true
  exact (World.now_bind _ world).trans (congrFun (if_neg hbound) world)

/-- Both walks go through the expressions of variables alike. -/
theorem name_followsPlace {depth : Nat} (name : String) (hscopes : world.scopes.Agree .empty)
    (hdeeper : ∀ expr, FollowsPlace context depth world value
      ((within context depth).assign expr value) ((within context depth).place? expr world)) :
    FollowsPlace context (depth + 1) world value
      (assignName context (within context depth) name value)
      (place? context (within context depth) (.ident name) world) := by
  have hstore (start : World) (hstart : start.scopes.Agree .empty) :=
    assignName_eq context (within context depth) name value hstart
  rw [place?]
  cases hbinding : context.bindings.find? name with
  | none =>
      simp only [hbinding] at hstore
      exact followsPlace_some ⟨.null, .string name⟩ (hstore world hscopes)
  | some binding =>
      simp only [hbinding] at hstore
      cases binding with
      | expression expr type => exact (hdeeper expr).succ.congr hscopes hstore
      | constant constant =>
          exact FollowsPlace.congr ⟨rfl, refuses_fail rfl⟩ hscopes hstore

/-- The induction is on the search for the place, at one depth of calls. -/
theorem expr_followsPlace {depth : Nat} (hscopes : world.scopes.Agree .empty)
    (hdeeper : ∀ expr, FollowsPlace context depth world value
      ((within context depth).assign expr value) ((within context depth).place? expr world))
    (expr : Expr) :
    FollowsPlace context (depth + 1) world value
      (assign context (within context depth) expr value)
      (place? context (within context depth) expr world) := by
  revert expr
  refine readOnly.induct
    (fun expr => FollowsPlace context (depth + 1) world value
      (assign context (within context depth) expr value)
      (place? context (within context depth) expr world))
    ?ident ?member ?index ?deferred ?dynamic ?other
  case ident =>
    intro name
    rw [assign]
    exact name_followsPlace name hscopes hdeeper
  case member =>
    intro object name
    apply followsPlace_found (do
      return ⟨← eval context (within context depth) object, .string name⟩)
    · rw [place?, map_bind]
      rfl
    · rw [assign, bind_assoc]
      rfl
  case index =>
    intro object key
    apply followsPlace_found (do
      let base ← eval context (within context depth) object
      return ⟨base, ← eval context (within context depth) key⟩)
    · simp only [place?, map_bind, map_pure]
    · simp only [assign, bind_assoc, pure_bind]
  case deferred =>
    intro inner hinner
    rw [assign, place?]
    exact hinner
  case dynamic =>
    intro inner hinner
    rw [assign, place?]
    exact hinner
  case other =>
    intro expr hname hmember hindex hdeferred hdynamic
    rw [assign, place?]
    · exact ⟨rfl, refuses_fail rfl⟩
    all_goals assumption

/-- Where no lambda binds a name, a store does what the search for its place says.  Where the
search fails, the store fails alike; where there is no place, the store is refused in any world,
which stays as it is; and in a place that was found the store is that of the resolver, asked in the
world in which the place was found.  The standard resolvers do not mind how deep calls may be. -/
theorem assign_follows_place :
    (∀ options, (chain (standard options)).StoresUncalled) ∧
      ∀ (context : Context) (value : Value) (world : World), world.scopes.Agree .empty →
        ∀ (depth : Nat) (expr : Expr), FollowsPlace context depth world value
          ((within context depth).assign expr value)
          ((within context depth).place? expr world) := by
  constructor
  · exact standard_storesUncalled
  · intro context value world hscopes depth
    induction depth with
    | zero => exact fun _ => rfl
    | succ depth ih => exact fun expr => expr_followsPlace hscopes ih expr

/-- A variable for a variable for an element of a new list: the store goes to the element of the
list that the search has made. -/
theorem variable_place_followed :
    let element : Expr := .index (.list [.int 1, .int 2]) (.int 1)
    let context := ((Context.standard {}).bind "x" (.expression element .any)).bind "y"
      (.expression (.ident "x") .any)
    let world : World := default
    let holding (items : List Value) : World :=
      { world with heap := (world.heap.addSequence items).2 }
    (within context 3).place? (.ident "y") world =
        .ok (some ⟨.list 0, .long 1⟩) (holding [.long 1, .long 2]) ∧
      (within context 3).assign (.ident "y") (.long 5) world =
        .ok () (holding [.long 1, .long 5]) := by
  intro element context world holding
  have hplace : (within context 3).place? (.ident "y") world =
      .ok (some ⟨.list 0, .long 1⟩) (holding [.long 1, .long 2]) := rfl
  refine ⟨hplace, ?_⟩
  have hfollows := assign_follows_place.2 context (.long 5) world (fun _ => rfl) 3 (.ident "y")
  rw [hplace] at hfollows
  obtain ⟨left, _, houtcome⟩ := hfollows
  have hset : context.resolver.set (services context (within context left)) (.list 0) (.long 1)
      (.long 5) (holding [.long 1, .long 2]) =
        .ok (.resolved ()) (holding [.long 1, .long 5]) := rfl
  have hstore := houtcome (within context left) (.inl rfl)
  rw [hset] at hstore
  generalize (within context 3).assign (.ident "y") (.long 5) world = result at hstore ⊢
  cases hstore with
  | stored => rfl

end Evaluation
end ExprLang
