import ExprLang.Proofs.Scope.ByName
import ExprLang.Proofs.Store.Dispatch

/-!
# Lambdas and their callers

The body of a lambda sees its parameters and what the lambda captured, and behind them the scopes
of whoever calls it; these come before the variables and the top-level names.  So callers whose
scopes give the same values to the names that are open in a lambda cannot be told apart, and a
name that no scope binds means the same whoever calls.
-/

namespace ExprLang

/-!
## Open names
-/

theorem Table.find?_ofList_eq_none_iff {α : Type} {entries : List (String × α)} {name : String} :
    (ofList entries).find? name = none ↔ name ∉ entries.map Prod.fst := by
  induction entries with
  | nil => simp [ofList, insertAll]
  | cons entry rest ih =>
      have hcons : (ofList (entry :: rest) : Table α) =
          (empty.insert entry.1 entry.2).insertAll rest := rfl
      rw [hcons, find?_insertAll, find?_insert, find?_empty, List.map_cons, List.mem_cons,
        not_or, ← ih]
      cases (ofList rest).find? name with
      | some value => simp
      | none => simp

namespace Closure

variable {closure : Closure} {args : List Value} {name : String}

/-- What a body sees of its own: the parameters with their arguments, over what was captured. -/
def own (closure : Closure) (args : List Value) : Table Value :=
  closure.captured.insertAll (closure.params.zip args)

/-- The name is neither a parameter nor captured. -/
def IsOpen (closure : Closure) (name : String) : Prop :=
  name ∉ closure.params ∧ closure.captured.find? name = none

theorem own_eq_none_iff (hargs : closure.params.length ≤ args.length) :
    (closure.own args).find? name = none ↔ closure.IsOpen name := by
  have hparams : (Table.ofList (closure.params.zip args)).find? name = none ↔
      name ∉ closure.params := by
    rw [Table.find?_ofList_eq_none_iff, List.map_fst_zip hargs]
  rw [own, Table.find?_insertAll, IsOpen, ← hparams]
  cases (Table.ofList (closure.params.zip args)).find? name with
  | some value => simp
  | none => simp

end Closure

/-- The world in which a body runs: a layer of its own on the scopes of its caller. -/
def World.inside (world : World) (caller : Scopes) (layer : Table Value) : World :=
  { world with scopes := caller.push layer }

/-!
## Calls
-/

namespace Evaluation

theorem apply_eq (deeper : Deeper) (r : Ref) (args : List Value) (world : World) :
    apply deeper r args world =
      if args.length < (world.heap.closure r).params.length then
        .error (.error (.of (.arityMismatch "lambda" (world.heap.closure r).params.length
          args.length))) world
      else
        World.withLayer ((world.heap.closure r).own args)
          (deeper.eval (world.heap.closure r).body) world := by
  simp only [apply, World.heapNow_bind]
  split
  · rfl
  · rfl

/-- Callers that give the same values to the open names cannot be told apart. -/
theorem apply_of_agree_open {deeper : Deeper}
    (hbody : ∀ body start, Law.byName _ (deeper.eval body) start) (r : Ref) (args : List Value)
    (world : World) {scopes : Scopes}
    (hscopes : ∀ name, (world.heap.closure r).IsOpen name →
      scopes.find? name = world.scopes.find? name) :
    apply deeper r args { world with scopes } = withScopes scopes (apply deeper r args world) := by
  rw [apply_eq, apply_eq]
  dsimp only
  split
  · rfl
  · rename_i hargs
    have hagree : (scopes.push ((world.heap.closure r).own args)).Agree
        (world.scopes.push ((world.heap.closure r).own args)) := by
      intro name
      rw [Scopes.find?_push, Scopes.find?_push]
      cases hown : ((world.heap.closure r).own args).find? name with
      | some value => rfl
      | none => exact hscopes name ((Closure.own_eq_none_iff (Nat.not_lt.mp hargs)).mp hown)
    have hrun := hbody (world.heap.closure r).body
      (world.inside world.scopes ((world.heap.closure r).own args)) _ hagree
    unfold World.inside at hrun
    unfold World.withLayer
    dsimp only at hrun ⊢
    rw [hrun]
    cases deeper.eval (world.heap.closure r).body
        { world with scopes := world.scopes.push ((world.heap.closure r).own args) } <;> rfl

end Evaluation

/-!
## Steps that ignore the scopes
-/

/-- The run is the same under all scopes, and leaves them as they are. -/
def Action.IgnoresScopes {α : Type} (action : Action α) : Prop :=
  ∀ (world : World) (scopes : Scopes),
    action { world with scopes } = withScopes scopes (action world)

namespace Action.IgnoresScopes

variable {α β : Type}

theorem pure (a : α) : IgnoresScopes (Pure.pure a) := fun _ _ => rfl

theorem fail (fault : EvalFault) : IgnoresScopes (Action.fail fault : Action α) := fun _ _ => rfl

theorem text (value : Value) : IgnoresScopes (World.text value) := fun _ _ => rfl

theorem bind {action : Action α} {next : α → Action β} (h : action.IgnoresScopes)
    (hnext : ∀ a, (next a).IgnoresScopes) : (action >>= next).IgnoresScopes := by
  intro world scopes
  simp only [Bind.bind, EStateM.bind, h world scopes]
  cases action world with
  | ok a after => exact hnext a after scopes
  | error failure after => rfl

end Action.IgnoresScopes

/-- The resolver answers for top-level names without a look at the scopes. -/
structure Resolver.IgnoresScopes (r : Resolver) : Prop where
  get : ∀ services name, (r.get services .null (.string name)).IgnoresScopes
  set : ∀ services name value, (r.set services .null (.string name) value).IgnoresScopes

theorem Resolver.standard_ignoresScopes (options : ResolverOptions) :
    (chain (standard options)).IgnoresScopes where
  get services name := by
    intro world scopes
    have hbean : bean? { world with scopes } .null (.string name) =
        bean? world .null (.string name) := rfl
    rw [standard_get]
    simp only [handler, names, World.now_bind, hbean]
    cases bean? world .null (.string name) <;> rfl
  set services name value := by
    intro world scopes
    rw [standard_set]
    change (names options).set services .null (.string name) value { world with scopes } =
      withScopes scopes ((names options).set services .null (.string name) value world)
    rw [names_set_string, names_set_string]
    change (if mayDefine options world name then _ else _) = _
    split
    · split <;> rfl
    · rfl

/-!
## Names
-/

namespace Evaluation

variable {context : Context} {deeper : Deeper} {name : String} {world : World}

theorem nameValue_of_bound {value : Value} (hname : world.scopes.find? name = some value) :
    nameValue context deeper name world = .ok value world := by
  simp only [nameValue, World.now_bind, hname]
  rfl

theorem assignName_of_bound {value : Value} (hname : world.scopes.find? name = some value)
    (stored : Value) : assignName context deeper name stored world =
      .error (.error (.of (.propertyNotWritable name))) world := by
  have hbound : world.scopes.isBound name = true := by
    rw [Scopes.isBound, hname]
    rfl
  simp only [assignName, World.now_bind]
  rw [if_pos hbound]
  rfl

section Unbound

variable (hname : world.scopes.find? name = none)

include hname

theorem nameValue_of_variable {binding : Variable}
    (hbinding : context.bindings.find? name = some binding) :
    nameValue context deeper name world = variableValue context deeper binding world := by
  simp only [nameValue, World.now_bind, hname, hbinding]

theorem not_isBound_of_unbound : ¬ world.scopes.isBound name = true := by
  rw [Scopes.isBound, hname]
  exact Bool.false_ne_true

theorem assignName_of_expression {expr : Expr} {type : ValueType}
    (hbinding : context.bindings.find? name = some (.expression expr type)) (stored : Value) :
    assignName context deeper name stored world = deeper.assign expr stored world := by
  simp only [assignName, World.now_bind, hbinding]
  rw [if_neg (not_isBound_of_unbound hname)]

variable {scopes : Scopes} (hscopes : scopes.find? name = none)
  (hresolver : context.resolver.IgnoresScopes)
  (hvariable : ∀ expr type, context.bindings.find? name ≠ some (.expression expr type))

include hscopes hresolver hvariable

/-- A name other than a variable has one meaning wherever no scope binds it. -/
theorem nameValue_of_unbound :
    nameValue context deeper name { world with scopes } =
      withScopes scopes (nameValue context deeper name world) := by
  cases hbinding : context.bindings.find? name with
  | some binding =>
      cases binding with
      | expression expr type => exact absurd hbinding (hvariable expr type)
      | constant value =>
          rw [nameValue_of_variable hname hbinding]
          exact nameValue_of_variable hscopes hbinding
  | none =>
      simp only [nameValue, World.now_bind, hname, hscopes, hbinding]
      refine Action.IgnoresScopes.bind (hresolver.get _ name) ?_ world scopes
      intro answer
      cases answer with
      | resolved value => exact .pure value
      | unresolved =>
          dsimp only
          split
          · exact .pure _
          · exact .fail _

theorem assignName_of_unbound (stored : Value) :
    assignName context deeper name stored { world with scopes } =
      withScopes scopes (assignName context deeper name stored world) := by
  have hbound : ¬ ({ world with scopes } : World).scopes.isBound name = true :=
    not_isBound_of_unbound hscopes
  simp only [assignName, World.now_bind]
  rw [if_neg (not_isBound_of_unbound hname), if_neg hbound]
  cases hbinding : context.bindings.find? name with
  | some binding =>
      cases binding with
      | expression expr type => exact absurd hbinding (hvariable expr type)
      | constant value => rfl
  | none =>
      refine Action.IgnoresScopes.bind (hresolver.set _ name stored) ?_ world scopes
      intro answer
      cases answer with
      | resolved _ => exact .pure ()
      | unresolved => exact .bind (.bind (.text _) fun _ => .pure _) fun _ => .fail _

end Unbound

/-!
## Names in the body of a lambda
-/

/-- The name stands for the value, and refuses every store. -/
def StandsFor (context : Context) (name : String) (value : Value) (world : World) : Prop :=
  ∀ depth, (Operation.eval (.ident name)).run context (depth + 1) world = .ok value world ∧
    ∀ stored, (Operation.assign (.ident name) stored).run context (depth + 1) world =
      .error (.error (.of (.propertyNotWritable name))) world

theorem standsFor_of_bound {value : Value} (h : world.scopes.find? name = some value) :
    StandsFor context name value world := by
  intro depth
  constructor
  · change eval context _ (.ident name) world = _
    rw [eval]
    exact nameValue_of_bound h
  · intro stored
    change assign context _ (.ident name) stored world = _
    rw [assign]
    exact assignName_of_bound h stored

/-- A name in a body that has a layer of its own.  The scopes of the caller decide what it stands
for; where they do not bind it, it means the same for all callers.  A mapped variable means its
expression, which is evaluated where the name stands. -/
structure LeftToCaller (context : Context) (world : World) (layer : Table Value) (name : String) :
    Prop where
  bound : ∀ caller value, caller.find? name = some value →
    StandsFor context name value (world.inside caller layer)
  mapped : ∀ caller, caller.find? name = none → ∀ expr type,
    context.bindings.find? name = some (.expression expr type) → ∀ depth,
      (Operation.eval (.ident name)).run context (depth + 1) (world.inside caller layer) =
          (Operation.evalAs expr type).run context depth (world.inside caller layer) ∧
        ∀ stored, (Operation.assign (.ident name) stored).run context (depth + 1)
            (world.inside caller layer) =
          (Operation.assign expr stored).run context depth (world.inside caller layer)
  unbound : ∀ caller caller', caller.find? name = none → caller'.find? name = none →
    (∀ expr type, context.bindings.find? name ≠ some (.expression expr type)) → ∀ depth,
      (Operation.eval (.ident name)).run context (depth + 1) (world.inside caller layer) =
          withScopes (caller.push layer) ((Operation.eval (.ident name)).run context (depth + 1)
            (world.inside caller' layer)) ∧
        ∀ stored, (Operation.assign (.ident name) stored).run context (depth + 1)
            (world.inside caller layer) =
          withScopes (caller.push layer) ((Operation.assign (.ident name) stored).run context
            (depth + 1) (world.inside caller' layer))

theorem leftToCaller_of_open {layer : Table Value} (hresolver : context.resolver.IgnoresScopes)
    (hlayer : layer.find? name = none) : LeftToCaller context world layer name := by
  have hinside (caller : Scopes) :
      (world.inside caller layer).scopes.find? name = caller.find? name := by
    change (caller.push layer).find? name = _
    rw [Scopes.find?_push, hlayer]
    rfl
  constructor
  case bound =>
    intro caller value hvalue
    exact standsFor_of_bound ((hinside caller).trans hvalue)
  case mapped =>
    intro caller hcaller expr type hbinding depth
    have hname := (hinside caller).trans hcaller
    constructor
    · change eval context _ (.ident name) _ = _
      rw [eval, nameValue_of_variable hname hbinding]
      rfl
    · intro stored
      change assign context _ (.ident name) stored _ = _
      rw [assign]
      exact assignName_of_expression hname hbinding stored
  case unbound =>
    intro caller caller' hcaller hcaller' hvariable depth
    have hname := (hinside caller).trans hcaller
    have hname' := (hinside caller').trans hcaller'
    constructor
    · change eval context _ (.ident name) _ = withScopes _ (eval context _ (.ident name) _)
      rw [eval]
      exact nameValue_of_unbound hname' hname hresolver hvariable
    · intro stored
      change assign context _ (.ident name) stored _ =
        withScopes _ (assign context _ (.ident name) stored _)
      rw [assign]
      exact assignName_of_unbound hname' hname hresolver hvariable stored

end Evaluation

/-- The names of a lambda are its parameters and what it captured, which its body sees on top of
the scopes of the caller; they are the same whoever calls it.  All other names are left to the
caller, and callers whose scopes give these the same values get the same outcome. -/
theorem lambda_leaves_open_names_to_caller :
    (∀ options, (Resolver.chain (Resolver.standard options)).Obeys .byName ∧
      (Resolver.chain (Resolver.standard options)).IgnoresScopes) ∧
    ∀ context : Context, context.resolver.Obeys .byName → context.resolver.IgnoresScopes →
      ∀ (r : Ref) (args : List Value) (world : World),
        (∀ (depth : Nat) (caller caller' : Scopes),
          (∀ name, (world.heap.closure r).IsOpen name → caller.find? name = caller'.find? name) →
            (Operation.apply r args).run context depth { world with scopes := caller } =
              withScopes caller
                ((Operation.apply r args).run context depth { world with scopes := caller' })) ∧
        ((world.heap.closure r).params.length ≤ args.length →
          (∀ depth caller,
            (Operation.apply r args).run context depth { world with scopes := caller } =
              World.withLayer ((world.heap.closure r).own args)
                ((Evaluation.within context depth).eval (world.heap.closure r).body)
                { world with scopes := caller }) ∧
          ∀ name,
            (¬ (world.heap.closure r).IsOpen name →
              ∃ own, ((world.heap.closure r).own args).find? name = some own ∧
                ∀ caller, Evaluation.StandsFor context name own
                  (world.inside caller ((world.heap.closure r).own args))) ∧
            ((world.heap.closure r).IsOpen name →
              Evaluation.LeftToCaller context world ((world.heap.closure r).own args) name)) := by
  constructor
  · intro options
    exact ⟨Resolver.standard_obeys Law.byName.storing options,
      Resolver.standard_ignoresScopes options⟩
  · intro context hresolver hignores r args world
    have hhost := context.hostObeys_of_onHeap Law.byName.onHeap
    have hwithin := Evaluation.within_obeys Law.byName.storing.toCompositional hhost hresolver
    constructor
    · intro depth caller caller' hcallers
      exact Evaluation.apply_of_agree_open (hwithin depth).eval r args
        { world with scopes := caller' } hcallers
    · intro hargs
      constructor
      · intro depth caller
        exact (Evaluation.apply_eq _ r args _).trans (if_neg (Nat.not_lt.mpr hargs))
      · intro name
        have hopen : ((world.heap.closure r).own args).find? name = none ↔
            (world.heap.closure r).IsOpen name := Closure.own_eq_none_iff hargs
        constructor
        · intro hown
          rcases Option.ne_none_iff_exists'.mp (mt hopen.mp hown) with ⟨own, hown⟩
          refine ⟨own, hown, ?_⟩
          intro caller
          apply Evaluation.standsFor_of_bound
          change (caller.push _).find? name = some own
          rw [Scopes.find?_push, hown]
          rfl
        · intro hname
          exact Evaluation.leftToCaller_of_open hignores (hopen.mpr hname)

/-- A caller may bind a parameter of the lambda; a caller that binds an open name changes what it
stands for. -/
theorem lambda_leaves_open_names_bean :
    let context := Context.standard {}
    let closure : Closure := ⟨["y"], .ident "x", .empty⟩
    let world : World := { (default : World) with
      heap := (Heap.empty.addClosure closure).2, beans := .ofList [("x", .int 1)] }
    let same : Scopes := ⟨[.ofList [("y", .long 9)]]⟩
    let other : Scopes := ⟨[.ofList [("x", .long 5)]]⟩
    ((Operation.apply 0 [.long 0]).run context 1 { world with scopes := same } =
        withScopes same ((Operation.apply 0 [.long 0]).run context 1 world) ∧
      ∃ last, (Operation.apply 0 [.long 0]).run context 1 world = .ok (.int 1) last) ∧
    (∃ own, (closure.own [.long 0]).find? "y" = some own ∧
      Evaluation.StandsFor context "y" own (world.inside other (closure.own [.long 0]))) ∧
    Evaluation.StandsFor context "x" (.long 5) (world.inside other (closure.own [.long 0])) := by
  intro context closure world same other
  have hstandard := lambda_leaves_open_names_to_caller.1 {}
  rcases lambda_leaves_open_names_to_caller.2 context hstandard.1 hstandard.2 0 [.long 0] world with
    ⟨hcall, hnames⟩
  have hagree : ∀ name, (world.heap.closure 0).IsOpen name →
      same.find? name = world.scopes.find? name := by
    intro name hopen
    have hname : name ≠ "y" := fun heq => hopen.1 (List.mem_singleton.mpr heq)
    simp [same, world, default, Scopes.empty, Scopes.find?, Table.ofList, Table.insertAll, hname]
  constructor
  · exact ⟨hcall 1 same world.scopes hagree, _, rfl⟩
  · constructor
    · have hown : ¬ (world.heap.closure 0).IsOpen "y" := fun hopen =>
        hopen.1 List.mem_cons_self
      rcases ((hnames (Nat.le_refl 1)).2 "y").1 hown with ⟨own, hfound, hstands⟩
      exact ⟨own, hfound, hstands other⟩
    · have hopen : (world.heap.closure 0).IsOpen "x" := ⟨by decide, rfl⟩
      exact (((hnames (Nat.le_refl 1)).2 "x").2 hopen).bound other (.long 5) rfl

/-- A bean that a lambda names is hidden by a parameter of the caller. -/
theorem caller_hides_bean :
    let context := Context.standard {}
    let world : World := { (default : World) with
      heap := (Heap.empty.addClosure ⟨["y"], .ident "x", .empty⟩).2
      beans := .ofList [("x", .int 1)] }
    let caller : Scopes := ⟨[.ofList [("x", .long 5)]]⟩
    (Operation.apply 0 [.long 0]).run context 1 { world with scopes := caller } ≠
      withScopes caller ((Operation.apply 0 [.long 0]).run context 1 world) := by
  intro context world caller heq
  have hcaller : (Operation.apply 0 [.long 0]).run context 1 { world with scopes := caller } =
      .ok (.long 5) { world with scopes := caller } := rfl
  have hbean : (Operation.apply 0 [.long 0]).run context 1 world = .ok (.int 1) world := rfl
  rw [hcaller, hbean] at heq
  injection heq with hvalue
  cases hvalue

end ExprLang
