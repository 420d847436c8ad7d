import ExprLang.Proofs.Evaluation.Library
import ExprLang.Proofs.Scope.ByName

/-!
# Lambdas

A lambda captures the values that names have where it is written.  Called from the same
scopes, its body therefore sees them with its parameters on top, and a lambda that is called
where it is written binds its parameters in place.

Lambdas are never changed: what a lambda captured is what its body sees however much later it
is called.
-/

namespace ExprLang

/-!
## Layers pushed one after the other
-/

def Scopes.pushAll (scopes : Scopes) (layers : List (Table Value)) : Scopes :=
  layers.foldr (fun layer scopes => scopes.push layer) scopes

/-- Run an action with layers of bindings pushed, of which the first is the innermost. -/
def World.withLayers {α : Type} : List (Table Value) → Action α → Action α
  | [], action => action
  | layer :: outer, action => withLayers outer (withLayer layer action)

namespace Scopes

theorem find?_pushAll (scopes : Scopes) (layers : List (Table Value)) (name : String) :
    (scopes.pushAll layers).find? name =
      (layers.findSome? (·.find? name) <|> scopes.find? name) := by
  induction layers with
  | nil => rfl
  | cons layer outer ih =>
      change ((scopes.pushAll outer).push layer).find? name = _
      rw [find?_push, ih, List.findSome?_cons]
      cases layer.find? name <;> rfl

/-- What a lambda captured, pushed where it was written, shadows nothing but itself. -/
theorem agree_push_capture (scopes : Scopes) (outer : List (Table Value))
    (entries : List (String × Value)) :
    (scopes.pushAll (Table.ofList entries :: outer)).Agree
      (scopes.push ((scopes.pushAll outer).capture.insertAll entries)) := by
  intro name
  change ((scopes.pushAll outer).push (Table.ofList entries)).find? name = _
  rw [find?_push, find?_push, Table.find?_insertAll, find?_capture, find?_pushAll]
  cases (Table.ofList entries).find? name with
  | some value => rfl
  | none =>
      cases outer.findSome? (·.find? name) with
      | some value => rfl
      | none => cases scopes.find? name <;> rfl

end Scopes

namespace World

theorem withLayers_eq {α : Type} {action : Action α} {world : World}
    (layers : List (Table Value))
    (h : Law.byName α action { world with scopes := world.scopes.pushAll layers }) :
    withLayers layers action world =
      withScopes world.scopes (action { world with scopes := world.scopes.pushAll layers }) := by
  induction layers generalizing action with
  | nil =>
      have hself := h world.scopes fun _ => rfl
      exact hself
  | cons layer outer ih =>
      have hlayer : Law.byName α (withLayer layer action)
          { world with scopes := world.scopes.pushAll outer } :=
        Law.byName.storing.withLayer layer h
      rw [withLayers, ih hlayer]
      have hpush : (world.scopes.pushAll outer).push layer =
          world.scopes.pushAll (layer :: outer) := rfl
      simp only [withLayer, hpush]
      cases action { world with scopes := world.scopes.pushAll (layer :: outer) } <;> rfl

end World

/-!
## Lambdas kept
-/

/-- The lambdas of the heap are still there, as they were. -/
def Heap.KeepsClosures (heap later : Heap) : Prop :=
  ∀ (r : Ref) (closure : Closure),
    heap.closures[r]? = some closure → later.closures[r]? = some closure

theorem Heap.KeepsClosures.closure {heap later : Heap} (h : heap.KeepsClosures later) {r : Ref}
    (hr : r < heap.closures.size) : later.closure r = heap.closure r := by
  have hfound : heap.closures[r]? = some heap.closures[r] := Array.getElem?_eq_getElem hr
  unfold Heap.closure
  rw [Array.getD_eq_getD_getElem?, Array.getD_eq_getD_getElem?, h r _ hfound, hfound]

/-- The run keeps the lambdas that there are. -/
def Law.keepsClosures : Law := .ending fun before after => before.heap.KeepsClosures after.heap

theorem Heap.KeepsClosures.addClosure (heap : Heap) (added : Closure) :
    heap.KeepsClosures (heap.addClosure added).2 := by
  intro r closure hfound
  have hr := (Array.getElem?_eq_some_iff.mp hfound).1
  change (heap.closures.push added)[r]? = some closure
  rw [Array.getElem?_push_lt hr, ← hfound, Array.getElem?_eq_getElem hr]

theorem keepsClosures_storing : Law.keepsClosures.Storing :=
  Law.ending_storing
    { refl := fun _ _ _ hfound => hfound
      trans := fun hfirst hsecond r closure hfound => hsecond r closure (hfirst r closure hfound)
      withLayer := id
      addSequence := fun _ _ _ _ hfound => hfound
      addMap := fun _ _ _ _ hfound => hfound
      addClosure := fun closure world => .addClosure world.heap closure
      define := fun _ _ _ _ _ hfound => hfound
      stored := by
        intro world heap hstored r closure hfound
        cases hstored <;> exact hfound }

/-!
## Calls of a lambda in the scopes that it was written in
-/

/-- Parameters with the arguments that they are given. -/
structure Supplied where
  params : List String
  args : List Expr

namespace Expr

/-- Nested lambdas with the parameters of one group each. -/
def curried : List Supplied → Expr → Expr
  | [], body => body
  | group :: rest, body => .lambda group.params (curried rest body)

/-- Calls one after the other with the arguments of one group each. -/
def applied (callee : Expr) : List Supplied → Expr
  | [] => callee
  | group :: rest => applied (.call callee group.args) rest

end Expr

namespace Evaluation

variable (context : Context) (deeper : Deeper)

/-- The layer that binds parameters to the values of their arguments. -/
def layerOf (group : Supplied) : Action (Table Value) := do
  let values ← evalAll context deeper group.args
  if values.length < group.params.length then
    .fail (.arityMismatch "lambda" group.params.length values.length)
  else
    return Table.ofList (group.params.zip values)

/-- Bind groups of parameters one inside the other, and evaluate a body inside them all.
Arguments are evaluated outside; the lambda of the groups still to come is made inside. -/
def bindAll : List (Table Value) → List Supplied → Expr → Action Value
  | layers, [], body => World.withLayers layers (deeper.eval body)
  | layers, group :: rest, body => do
    let _ ← World.withLayers layers (newLambda group.params (.curried rest body))
    let layer ← layerOf context deeper group
    bindAll (layer :: layers) rest body

/-- A call of the expression calls its value; a call of a name or a member does not. -/
def CallsValue (callee : Expr) : Prop :=
  ∀ args, eval context deeper (.call callee args) =
    eval context deeper callee >>= fun target =>
      evalAll context deeper args >>= callValue deeper target

variable {context deeper}

theorem lambda_callsValue (params : List String) (body : Expr) :
    CallsValue context deeper (.lambda params body) := by
  intro args
  rw [eval] <;> intros <;> contradiction

theorem within_succ_eval (depth : Nat) (expr : Expr) :
    (within context (depth + 1)).eval expr = eval context (within context depth) expr := rfl

theorem within_succ_lambda (depth : Nat) (params : List String) (body : Expr) :
    (within context (depth + 1)).eval (.lambda params body) = newLambda params body := by
  rw [within_succ_eval, eval]

theorem newLambda_within (layers : List (Table Value)) (params : List String) (body : Expr)
    (world : World) :
    World.withLayers layers (newLambda params body) world =
      .ok (.lambda world.heap.closures.size)
        { world with
          heap := (world.heap.addClosure
            ⟨params, body, (world.scopes.pushAll layers).capture⟩).2 } := by
  rw [World.withLayers_eq layers (newLambda_obeys Law.byName.storing.toCompositional _ _ _)]
  rfl

/-- A lambda that was written with layers pushed holds what was visible there. -/
theorem closure_of_newLambda {layers : List (Table Value)} {params : List String} {body : Expr}
    {before after : World} {target : Value}
    (h : World.withLayers layers (newLambda params body) before = .ok target after) :
    ∃ r, target = .lambda r ∧ r < after.heap.closures.size ∧ after.scopes = before.scopes ∧
      after.heap.closure r = ⟨params, body, (before.scopes.pushAll layers).capture⟩ := by
  rw [newLambda_within] at h
  injection h with htarget hafter
  subst hafter
  refine ⟨before.heap.closures.size, htarget.symm, ?_, rfl, ?_⟩
  · simp [Heap.addClosure]
  · simp [Heap.closure, Heap.addClosure]

theorem apply_within {layers : List (Table Value)} {params : List String} {body : Expr}
    {r : Ref} {args : List Value} {world : World}
    (hbody : ∀ world, Law.byName _ (deeper.eval body) world)
    (hclosure : world.heap.closure r = ⟨params, body, (world.scopes.pushAll layers).capture⟩)
    (hargs : ¬ args.length < params.length) :
    apply deeper r args world =
      World.withLayers (Table.ofList (params.zip args) :: layers) (deeper.eval body) world := by
  let captured := (world.scopes.pushAll layers).capture.insertAll (params.zip args)
  have hagree := world.scopes.agree_push_capture layers (params.zip args)
  have happly : apply deeper r args world =
      World.withLayers [captured] (deeper.eval body) world := by
    simp only [apply, World.heapNow_bind, hclosure, if_neg hargs]
    rfl
  rw [happly, World.withLayers_eq _ (hbody _), World.withLayers_eq _ (hbody _)]
  rw [hbody { world with scopes := world.scopes.pushAll [captured] } _ hagree]
  cases deeper.eval body { world with scopes := world.scopes.pushAll [captured] } <;> rfl

/-- Runs that go on alike from what the first step may answer are alike. -/
theorem bind_congr_of_ok {α β : Type} {action : Action α} {next next' : α → Action β}
    {world : World} (h : ∀ a after, action world = .ok a after → next a after = next' a after) :
    (action >>= next) world = (action >>= next') world := by
  simp only [Bind.bind, EStateM.bind]
  cases hrun : action world with
  | ok a after => exact h a after hrun
  | error failure after => rfl

section Written

variable (hbody : ∀ body world, Law.byName _ (deeper.eval body) world)
  (hscopes : ∀ list world, Law.byName _ (evalAll context deeper list) world)
  (hclosures : ∀ list world, Law.keepsClosures _ (evalAll context deeper list) world)

include hbody hscopes hclosures

/-- A lambda that is called as soon as it is written binds its parameters in place. -/
theorem callValue_written (layers : List (Table Value)) (group : Supplied) (body : Expr) :
    (World.withLayers layers (newLambda group.params body) >>= fun target =>
      evalAll context deeper group.args >>= callValue deeper target) =
    (do
      let _ ← World.withLayers layers (newLambda group.params body)
      let layer ← layerOf context deeper group
      World.withLayers (layer :: layers) (deeper.eval body)) := by
  funext world
  apply bind_congr_of_ok
  intro target start hwritten
  obtain ⟨r, rfl, hr, hstart, hwritten⟩ := closure_of_newLambda hwritten
  rw [layerOf, bind_assoc]
  apply bind_congr_of_ok
  intro values after hrun
  have hafter : after.scopes = start.scopes := (hscopes group.args start).scopes_of_ok hrun
  have hkept : start.heap.KeepsClosures after.heap := by
    have hkeeps := hclosures group.args start
    unfold Law.keepsClosures Law.ending at hkeeps
    rw [hrun] at hkeeps
    exact hkeeps
  have hclosure : after.heap.closure r =
      ⟨group.params, body, (after.scopes.pushAll layers).capture⟩ := by
    rw [hkept.closure hr, hwritten, hafter, hstart]
  change apply deeper r values after = _
  by_cases hargs : values.length < group.params.length
  · rw [if_pos hargs]
    simp only [apply, World.heapNow_bind, hclosure, if_pos hargs]
    rfl
  · rw [if_neg hargs, pure_bind]
    exact apply_within (hbody body) hclosure hargs

theorem eval_applied_curried (hlambda : ∀ params body,
      deeper.eval (.lambda params body) = newLambda params body) (body : Expr)
    (group : Supplied) (rest : List Supplied) (callee : Expr)
    (written : Action (List (Table Value)))
    (hcallee : CallsValue context deeper callee)
    (heval : eval context deeper callee = written >>= fun layers =>
      World.withLayers layers (newLambda group.params (.curried rest body))) :
    eval context deeper (callee.applied (group :: rest)) =
      written >>= fun layers => bindAll context deeper layers (group :: rest) body := by
  -- the calls nest to the left, so the callee grows by one call at each step; `written` is the
  -- run that leads to the lambda that it answers
  induction rest generalizing group callee written with
  | nil =>
      change eval context deeper (.call callee group.args) = _
      rw [hcallee, heval, bind_assoc]
      congr
      funext layers
      exact callValue_written hbody hscopes hclosures layers group body
  | cons inner rest ih =>
      let inside : Action (List (Table Value)) := do
        let layers ← written
        let _ ← World.withLayers layers (newLambda group.params (.curried (inner :: rest) body))
        return (← layerOf context deeper group) :: layers
      have hcall : CallsValue context deeper (.call callee group.args) := by
        intro args
        rw [eval] <;> intros <;> contradiction
      have hinner : eval context deeper (.call callee group.args) = inside >>= fun layers =>
          World.withLayers layers (newLambda inner.params (.curried rest body)) := by
        rw [hcallee, heval]
        simp only [inside, bind_assoc, pure_bind]
        congr
        funext layers
        rw [callValue_written hbody hscopes hclosures]
        congr
        funext _
        congr
        funext layer
        exact congrArg _ (hlambda _ _)
      have hrest := ih inner (.call callee group.args) inside hcall hinner
      change eval context deeper ((Expr.call callee group.args).applied (inner :: rest)) = _
      rw [hrest]
      simp only [inside, bind_assoc, pure_bind]
      rfl

end Written

end Evaluation

/-!
## Scopes of a whole run
-/

/-- Runs see the scopes by the values of names alone.  Where all names agree, every operation
has the same result, and the worlds at the end differ in the scopes alone: the heap, with all
that the lambdas in it captured, and the beans are the same.

So a lambda that is called in the scopes that it was written in, or in those that are left once
the layers around it are dropped, evaluates its body with its parameters pushed on the scopes
that it was written in; and lambdas that are called as soon as they are written bind their
parameters in place, nested ones one inside the other. -/
theorem run_sees_scopes_by_name :
    (∀ options, (Resolver.chain (Resolver.standard options)).Obeys .byName ∧
      (Resolver.chain (Resolver.standard options)).Obeys .keepsClosures) ∧
    ∀ context : Context, context.resolver.Obeys .byName →
      (∀ (depth : Nat) (operation : Operation) (world : World) (scopes : Scopes),
        scopes.Agree world.scopes →
          operation.run context depth { world with scopes } =
            withScopes scopes (operation.run context depth world)) ∧
      (∀ (depth depth' : Nat) (outer : List (Table Value)) (params : List String) (body : Expr)
          (r : Ref) (args : List Value) (before after world : World),
        World.withLayers outer ((Evaluation.within context depth').eval (.lambda params body))
            before = .ok (.lambda r) after →
        world.scopes = before.scopes → after.heap.KeepsClosures world.heap →
        params.length ≤ args.length →
          (Operation.apply r args).run context depth world =
            World.withLayers (Table.ofList (params.zip args) :: outer)
              ((Evaluation.within context depth).eval body) world) ∧
      (context.resolver.Obeys .keepsClosures → context.HostObeys .keepsClosures →
        ∀ (depth : Nat) (body : Expr) (group : Supplied),
          (Operation.eval (.call (.lambda group.params body) group.args)).run context
              (depth + 1) = (do
            let _ ← Evaluation.newLambda group.params body
            let layer ← Evaluation.layerOf context (Evaluation.within context depth) group
            World.withLayer layer ((Evaluation.within context depth).eval body)) ∧
          ∀ rest : List Supplied,
            (Operation.eval ((Expr.curried (group :: rest) body).applied (group :: rest))).run
                context (depth + 2) =
              Evaluation.bindAll context (Evaluation.within context (depth + 1)) []
                (group :: rest) body) := by
  have hstoring := Law.byName.storing.toCompositional
  have hkeeping := keepsClosures_storing.toCompositional
  constructor
  · intro options
    constructor
    · exact Resolver.standard_obeys Law.byName.storing options
    · exact Resolver.standard_obeys keepsClosures_storing options
  · intro context hresolver
    have hhost := context.hostObeys_of_onHeap Law.byName.onHeap
    have hwithin := Evaluation.within_obeys hstoring hhost hresolver
    refine ⟨?agree, ?call, ?written⟩
    case agree =>
      intro depth operation world scopes hscopes
      exact operation.run_obeys hstoring hhost hresolver depth world scopes hscopes
    case call =>
      intro depth depth' outer params body r args before after world hwritten hscopes hkept hargs
      cases depth' with
      | zero =>
          rw [World.withLayers_eq outer ((hwithin 0).eval _ _)] at hwritten
          cases hwritten
      | succ depth' =>
          rw [Evaluation.within_succ_lambda] at hwritten
          obtain ⟨_, hlambda, hr, _, hclosure⟩ := Evaluation.closure_of_newLambda hwritten
          cases hlambda
          have hclosure : world.heap.closure r =
              ⟨params, body, (world.scopes.pushAll outer).capture⟩ := by
            rw [hkept.closure hr, hclosure, hscopes]
          exact Evaluation.apply_within (fun world => (hwithin depth).eval body world) hclosure
            (Nat.not_lt.mpr hargs)
    case written =>
      intro hresolver' hhost' depth body group
      have hkeeps := Evaluation.within_obeys hkeeping hhost' hresolver'
      have hscopes (depth : Nat) := Evaluation.evalAll_obeys hstoring hhost hresolver
        (hwithin depth)
      have hclosures (depth : Nat) := Evaluation.evalAll_obeys hkeeping hhost' hresolver'
        (hkeeps depth)
      constructor
      · change (Evaluation.within context (depth + 1)).eval _ = _
        rw [Evaluation.within_succ_eval, Evaluation.lambda_callsValue, Evaluation.eval]
        exact Evaluation.callValue_written (hwithin depth).eval (hscopes depth) (hclosures depth)
          [] group body
      · intro rest
        change (Evaluation.within context (depth + 2)).eval _ = _
        rw [Evaluation.within_succ_eval]
        have happlied := Evaluation.eval_applied_curried (hwithin (depth + 1)).eval
          (hscopes (depth + 1)) (hclosures (depth + 1)) (Evaluation.within_succ_lambda depth)
          body group rest (.lambda group.params (.curried rest body)) (pure [])
          (Evaluation.lambda_callsValue _ _) (by rw [Evaluation.eval, pure_bind]; rfl)
        rw [pure_bind] at happlied
        exact happlied

/-- Under two layers that bind `x` a lambda sees the inner one, as under that one alone; two
nested lambdas called at once add their parameters. -/
theorem nested_sum_by_name :
    let context := Context.standard {}
    let flat : Scopes := ⟨[.ofList [("x", .long 1)]]⟩
    let world : World := { (default : World) with
      scopes := ⟨[.ofList [("x", .long 1)], .ofList [("x", .long 2)]]⟩ }
    let sum : Expr := .binary .add (.ident "x") (.ident "y")
    let operation := Operation.eval (.call (.lambda ["y"] sum) [.int 3])
    let groups : List Supplied := [⟨["x"], [.int 5]⟩, ⟨["y"], [.ident "x"]⟩]
    (operation.run context 2 { world with scopes := flat } =
        withScopes flat (operation.run context 2 world) ∧
      ∃ last, operation.run context 2 world = .ok (.long 4) last) ∧
    (∃ after, (Evaluation.within context 1).eval (.lambda ["y"] sum) world =
        .ok (.lambda 0) after ∧
      (Operation.apply 0 [.long 3]).run context 1 after =
        World.withLayers [.ofList [("y", .long 3)]] ((Evaluation.within context 1).eval sum)
          after) ∧
    ((Operation.eval ((Expr.curried groups sum).applied groups)).run context 2 =
        Evaluation.bindAll context (Evaluation.within context 1) [] groups sum ∧
      ∃ last, (Operation.eval ((Expr.curried groups sum).applied groups)).run context 2 world =
        .ok (.long 6) last) := by
  intro context flat world sum operation groups
  have hstandard := run_sees_scopes_by_name.1 {}
  have hcontext := run_sees_scopes_by_name.2 context hstandard.1
  obtain ⟨hagree, hcall, hwritten⟩ := hcontext
  have hhost : context.HostObeys .keepsClosures :=
    Context.ofResolver_hostObeys keepsClosures_storing.toCompositional _
  have hflat : flat.Agree world.scopes := by
    intro name
    by_cases hname : name = "x"
    · subst hname
      rfl
    · simp [flat, world, Scopes.find?, Table.ofList, Table.insertAll, hname]
  refine ⟨⟨hagree 2 operation world flat hflat, _, rfl⟩, ?_, ?_⟩
  · refine ⟨_, rfl, ?_⟩
    exact hcall 1 1 [] ["y"] sum 0 [.long 3] world _ _ rfl rfl (fun _ _ hfound => hfound)
      (Nat.le_refl _)
  · exact ⟨(hwritten hstandard.2 hhost 0 sum ⟨["x"], [.int 5]⟩).2 [⟨["y"], [.ident "x"]⟩], _, rfl⟩

end ExprLang
