import ExprLang.Proofs.Evaluation.Discipline

/-!
# Disciplines of evaluation

A compositional discipline is kept by every operation of evaluation, at every depth of calls, if
the host and the resolver keep it.  The induction is on the depth; at one depth it follows the
recursion of evaluation along the expression.
-/

namespace ExprLang

open Discipline (Any)

/-- The values that a place consists of are admitted. -/
def Place.Admitted (d : Discipline) (stage : d.Stage) (place : Option Place) : Prop :=
  ∀ p, place = some p → d.Admits stage p.base ∧ d.Admits stage p.property

/-- Every operation on expressions keeps the discipline. -/
structure Deeper.Keeps (deeper : Deeper) (d : Discipline) : Prop where
  eval : ∀ stage expr world, d.Run stage d.Admits (deeper.eval expr) world
  type : ∀ stage expr world, d.Run stage Any (deeper.type expr) world
  readOnly : ∀ stage expr world, d.Run stage Any (deeper.readOnly expr) world
  assign : ∀ stage expr value world, d.Admits stage value →
    d.Run stage Any (deeper.assign expr value) world
  place? : ∀ stage expr world, d.Run stage (Place.Admitted d) (deeper.place? expr) world

/-- Every operation on expressions obeys the law. -/
structure Deeper.Obeys (deeper : Deeper) (law : Law) : Prop where
  eval : ∀ expr world, law _ (deeper.eval expr) world
  type : ∀ expr world, law _ (deeper.type expr) world
  readOnly : ∀ expr world, law _ (deeper.readOnly expr) world
  assign : ∀ expr value world, law _ (deeper.assign expr value) world
  place? : ∀ expr world, law _ (deeper.place? expr) world

theorem Deeper.keeps_discipline {deeper : Deeper} {law : Law} :
    deeper.Keeps law.discipline ↔ deeper.Obeys law := by
  constructor
  · intro hkeeps
    exact
      { eval := fun expr world => (hkeeps.eval () expr world).1
        type := fun expr world => (hkeeps.type () expr world).1
        readOnly := fun expr world => (hkeeps.readOnly () expr world).1
        assign := fun expr value world => (hkeeps.assign () expr value world trivial).1
        place? := fun expr world => (hkeeps.place? () expr world).1 }
  · intro hobeys
    exact
      { eval := fun _ expr world => ⟨hobeys.eval expr world, fun _ _ _ => trivial⟩
        type := fun _ expr world => ⟨hobeys.type expr world, fun _ _ _ => trivial⟩
        readOnly := fun _ expr world => ⟨hobeys.readOnly expr world, fun _ _ _ => trivial⟩
        assign := fun _ expr value world _ => ⟨hobeys.assign expr value world, fun _ _ _ => trivial⟩
        place? := fun _ expr world =>
          ⟨hobeys.place? expr world, fun _ _ _ _ _ => ⟨trivial, trivial⟩⟩ }

namespace Context.HostKeeps

variable {d : Discipline} {context : Context} (hhost : context.HostKeeps d)

include hhost

/-- A function that is called by its name keeps the discipline. -/
theorem of_name {name : String} {function : HostFunction}
    (hname : (context.functions.find? name <|> context.staticMethod? name) = some function) :
    function.Keeps d := by
  have hcases : context.functions.find? name = some function ∨
      context.functions.find? name = none ∧ context.staticMethod? name = some function := by
    simpa using hname
  rcases hcases with hmapped | ⟨_, hstatic⟩
  · exact hhost.function name function hmapped
  · obtain ⟨owner, howner, hmethod⟩ := Option.bind_eq_some_iff.mp hstatic
    obtain ⟨number, _, rfl⟩ := Option.map_eq_some_iff.mp howner
    exact (hhost.classAt number).method name function hmethod

/-- A class or a field that a name stands for is admitted. -/
theorem of_imported (h : d.Compositional) {name : String} {value : Value}
    (hname : (context.classRef? name <|> context.staticField? name) = some value)
    (stage : d.Stage) : d.Admits stage value := by
  have hcases : context.classRef? name = some value ∨
      context.classRef? name = none ∧ context.staticField? name = some value := by
    simpa using hname
  rcases hcases with hclass | ⟨_, hfield⟩
  · obtain ⟨number, _, rfl⟩ := Option.map_eq_some_iff.mp hclass
    exact h.scalar rfl
  · obtain ⟨owner, howner, hfield⟩ := Option.bind_eq_some_iff.mp hfield
    obtain ⟨number, _, rfl⟩ := Option.map_eq_some_iff.mp howner
    exact (hhost.classAt number).field name value hfield stage

end Context.HostKeeps

namespace Evaluation

section Disciplines

variable {d : Discipline} (h : d.Compositional) {context : Context} {deeper : Deeper}
  (hhost : context.HostKeeps d) (hresolver : context.resolver.Keeps d) (hdeeper : deeper.Keeps d)
  {stage : d.Stage}

/-!
## Calls
-/

section Calls

include h hdeeper

theorem apply_keeps (r : Ref) {args : List Value} (hargs : d.AdmitsAll stage args)
    (world : World) : d.Run stage d.Admits (apply deeper r args) world := by
  apply h.heapNow
  intro hsound
  dsimp only
  split
  · exact h.fail _
  · refine h.withLayer (Discipline.Compositional.insertAll (h.captured r hsound) ?_)
      (hdeeper.eval stage _ _)
    intro entry hentry
    exact hargs entry.2 (List.of_mem_zip hentry).2

include hhost

theorem services_keep : (services context deeper).Keep d where
  converters := hhost.converters
  invoke _ r _ world hargs := apply_keeps h hdeeper r hargs world
  classAt := hhost.classAt
  behaviour := hhost.behaviour

include hresolver

theorem invokeMethod_keeps {base : Value} (hbase : d.Admits stage base) (method : String)
    {args : List Value} (hargs : d.AdmitsAll stage args) (world : World) :
    d.Run stage d.Admits (invokeMethod context deeper base method args) world := by
  have hservices := services_keep h hhost hdeeper
  apply h.bind (hresolver.invoke _ hservices stage base method args world hbase hargs)
  intro s₁ answer w₁ _ hanswer _
  cases answer with
  | resolved value => exact h.pure hanswer
  | unresolved => exact h.bind (h.typeName base) fun _ _ _ _ _ _ => h.fail _

omit hresolver in
theorem variableValue_keeps {name : String} {binding : Variable}
    (hbinding : context.bindings.find? name = some binding) (world : World) :
    d.Run stage d.Admits (variableValue context deeper binding) world := by
  cases binding with
  | constant value => exact h.pure (hhost.constant name value hbinding stage)
  | expression expr type =>
      apply h.bind (hdeeper.eval stage expr world)
      intro s₁ value w₁ _ hvalue _
      apply h.heapNow
      intro _
      exact h.ofExcept fun result hresult => (hhost.converters s₁ _ _ _ _ hvalue hresult).1

theorem topLevel_keeps (name : String) (world : World) :
    d.Run stage (fun stage' answer => answer.Each (d.Admits stage'))
      (topLevel context deeper name) world :=
  hresolver.get _ (services_keep h hhost hdeeper) stage .null (.string name) world
    (h.scalar rfl) (h.scalar rfl)

theorem boundLambda?_keeps (name : String) (world : World) :
    d.Run stage Any (boundLambda? context deeper name) world := by
  unfold boundLambda?
  split
  · exact h.pure trivial
  · apply h.view
    · intro scopes hscopes
      simp only [hscopes name]
    · intro _
      dsimp only
      cases world.scopes.find? name with
      | some value => exact h.bindPure (h.pure trivial) fun _ _ _ (_ : True) => trivial
      | none =>
          cases hbinding : context.bindings.find? name with
          | some binding =>
              have hvalue : d.Run stage d.Admits (variableValue context deeper binding) world :=
                variableValue_keeps h hhost hdeeper hbinding world
              exact h.bindPure (h.map hvalue fun _ _ _ _ => trivial) fun _ _ _ (_ : True) => trivial
          | none =>
              have hvalue : d.Run stage (fun stage' answer => answer.Each (d.Admits stage'))
                  (topLevel context deeper name) world :=
                topLevel_keeps h hhost hresolver hdeeper name world
              exact h.bindPure (h.map hvalue fun _ _ _ _ => trivial) fun _ _ _ (_ : True) => trivial

theorem callName_keeps (name : String) {args : List Value} (hargs : d.AdmitsAll stage args)
    (world : World) : d.Run stage d.Admits (callName context deeper name args) world := by
  apply h.bind (boundLambda?_keeps h hhost hresolver hdeeper name world)
  intro s₁ lambda? w₁ hs₁ _ _
  have hargs := h.laterAll hs₁ hargs
  cases lambda? with
  | some r => exact apply_keeps h hdeeper r hargs w₁
  | none =>
      dsimp only
      split
      · rename_i function hfunction
        exact (hhost.of_name hfunction).call h hhost.converters hargs
      · exact h.fail _

omit hhost hresolver in
theorem callValue_keeps (callee : Value) {args : List Value} (hargs : d.AdmitsAll stage args)
    (world : World) : d.Run stage d.Admits (callValue deeper callee args) world := by
  cases callee with
  | lambda r => exact apply_keeps h hdeeper r hargs world
  | _ => exact h.bind (h.typeName _) fun _ _ _ _ _ _ => h.fail _

end Calls

/-!
## Names and members
-/

section Members

include h

theorem missing_keeps (base key : Value) (world : World) :
    d.Run stage Any (missing base key) world := by
  apply h.bind (h.text key)
  intro s₁ name w₁ _ _ _
  split
  · exact h.pure trivial
  · exact h.bindPure (h.typeName base) fun _ _ _ _ => trivial

theorem failMissing_keeps {α : Type} {post : d.Stage → α → Prop} (base key : Value)
    (world : World) : d.Run stage post (missing base key >>= Action.fail) world :=
  h.bind (missing_keeps h base key world) fun _ _ _ _ _ _ => h.fail _

include hhost hresolver hdeeper

theorem nameValue_keeps (name : String) (world : World) :
    d.Run stage d.Admits (nameValue context deeper name) world := by
  apply h.view
  · intro scopes hscopes
    simp only [hscopes name]
  · intro hsound
    cases hscope : world.scopes.find? name with
    | some value => exact h.pure (h.scopes hsound hscope)
    | none =>
        cases hbinding : context.bindings.find? name with
        | some binding => exact variableValue_keeps h hhost hdeeper hbinding world
        | none =>
            apply h.bind (topLevel_keeps h hhost hresolver hdeeper name world)
            intro s₁ answer w₁ _ hanswer _
            cases answer with
            | resolved value => exact h.pure hanswer
            | unresolved =>
                dsimp only
                split
                · rename_i value hvalue
                  exact h.pure (hhost.of_imported h hvalue s₁)
                · exact h.fail _

theorem property_keeps {base key : Value} (hbase : d.Admits stage base)
    (hkey : d.Admits stage key) (world : World) :
    d.Run stage d.Admits (property context deeper base key) world := by
  have hservices := services_keep h hhost hdeeper
  apply h.bind (hresolver.get _ hservices stage base key world hbase hkey)
  intro s₁ answer w₁ _ hanswer _
  cases answer with
  | resolved value => exact h.pure hanswer
  | unresolved => exact failMissing_keeps h base key w₁

omit hhost hresolver hdeeper in
theorem shadowedClass?_admitted {object : Expr} {base owner : Value}
    (howner : shadowedClass? context object base = some owner) : d.Admits stage owner := by
  unfold shadowedClass? at howner
  split at howner
  · cases howner
  · obtain ⟨number, _, rfl⟩ := Option.map_eq_some_iff.mp howner
    exact h.scalar rfl
  · cases howner

theorem memberValue_keeps (object : Expr) {base key : Value} (hbase : d.Admits stage base)
    (hkey : d.Admits stage key) (world : World) :
    d.Run stage d.Admits (memberValue context deeper object base key) world := by
  apply h.bind (h.attempt (property_keeps h hhost hresolver hdeeper hbase hkey world))
  intro s₁ found w₁ hs₁ hfound _
  cases found with
  | ok value => exact h.pure (hfound value rfl)
  | error e =>
      dsimp only
      cases howner : shadowedClass? context object base with
      | none => exact h.throw _ w₁
      | some owner =>
          have howner : d.Admits s₁ owner := shadowedClass?_admitted h howner
          have hretried := property_keeps h hhost hresolver hdeeper howner (h.later hs₁ hkey) w₁
          apply h.bind (h.attempt hretried)
          intro s₂ retried w₂ _ hretried _
          cases retried with
          | ok value => exact h.pure (hretried value rfl)
          | error _ => exact h.throw _ w₂

theorem store_keeps {base key value : Value} (hbase : d.Admits stage base)
    (hkey : d.Admits stage key) (hvalue : d.Admits stage value) (world : World) :
    d.Run stage Any (store context deeper base key value) world := by
  have hservices := services_keep h hhost hdeeper
  apply h.bind (hresolver.set _ hservices stage base key value world hbase hkey hvalue)
  intro s₁ answer w₁ _ _ _
  cases answer with
  | resolved _ => exact h.pure trivial
  | unresolved => exact failMissing_keeps h base key w₁

theorem assignName_keeps (name : String) {value : Value} (hvalue : d.Admits stage value)
    (world : World) : d.Run stage Any (assignName context deeper name value) world := by
  apply h.view
  · intro scopes hscopes
    dsimp only
    rw [hscopes.isBound name]
  · intro _
    split
    · exact h.fail _
    · split
      · exact hdeeper.assign stage _ value world hvalue
      · exact h.fail _
      · exact store_keeps h hhost hresolver hdeeper (h.scalar rfl) (h.scalar rfl) hvalue world

omit hresolver in
theorem askMember_keeps {α : Type} {ask : Services → Value → Value → Action (Resolution α)}
    (hask : ∀ services : Services, services.Keep d → ∀ stage base property world,
      d.Admits stage base → d.Admits stage property →
      d.Run stage Any (ask services base property) world)
    {base key : Value} (hbase : d.Admits stage base) (hkey : d.Admits stage key)
    (world : World) : d.Run stage Any (askMember context deeper ask base key) world := by
  unfold askMember
  split
  · exact failMissing_keeps h base key world
  · apply h.bind (hask _ (services_keep h hhost hdeeper) stage base key world hbase hkey)
    intro s₁ answer w₁ _ _ _
    cases answer with
    | resolved a => exact h.pure trivial
    | unresolved => exact failMissing_keeps h base key w₁

end Members

/-!
## Literals and operators
-/

section Small

include h

theorem truthOf_keeps {action : Action Value} {world : World}
    (haction : d.Run stage d.Admits action world) :
    d.Run stage d.Admits
      (action >>= fun value => World.truth value >>= fun b => pure (Value.bool b)) world := by
  apply h.bind haction
  intro s₁ value w₁ _ _ _
  exact h.bindPure (h.truth value) fun _ _ _ _ => h.scalar rfl

theorem bigLiteral_keeps (digits : String) (world : World) :
    d.Run stage d.Admits (bigLiteral digits) world := by
  unfold bigLiteral
  split
  · exact h.pure (h.scalar rfl)
  · exact h.fail _

theorem capture_admitted {world : World} (hsound : d.Sound stage world) :
    d.AdmitsTable stage world.scopes.capture := by
  intro name value hvalue
  rw [Scopes.find?_capture] at hvalue
  exact h.scopes hsound hvalue

theorem newLambda_keeps (params : List String) (body : Expr) (world : World) :
    d.Run stage d.Admits (newLambda params body) world := by
  apply h.view
  · intro scopes hscopes
    dsimp only
    rw [hscopes.capture]
  · intro hsound
    exact h.bindPure (h.addClosure (capture_admitted h hsound)) fun _ _ _ hr => hr

theorem binary_keeps (op : BinaryOp) (left right : Value) (world : World) :
    d.Run stage d.Admits (binary op left right) world :=
  h.heapNow fun _ => h.ofScalar (Heap.applyBinary_scalar _ op left right)

theorem unary_keeps (op : UnaryOp) (value : Value) (world : World) :
    d.Run stage d.Admits (unary op value) world :=
  h.heapNow fun _ => h.ofScalar (Heap.applyUnary_scalar _ op value)

end Small

/-!
## Expressions
-/

section Expressions

include h hhost hresolver hdeeper

theorem eval_assign_keep :
    (∀ expr stage world, d.Run stage d.Admits (eval context deeper expr) world) ∧
      (∀ expr value stage world, d.Admits stage value →
        d.Run stage Any (assign context deeper expr value) world) ∧
      (∀ entries list stage world, d.AdmitsEntries stage entries →
        d.Run stage d.AdmitsEntries (evalEntries context deeper entries list) world) ∧
      ∀ list stage world, d.Run stage d.AdmitsAll (evalAll context deeper list) world := by
  -- the four are mutually recursive; their common induction has one case for each equation
  refine eval.mutual_induct
    (fun expr => ∀ stage world, d.Run stage d.Admits (eval context deeper expr) world)
    (fun expr value => ∀ stage world, d.Admits stage value →
      d.Run stage Any (assign context deeper expr value) world)
    (fun entries list => ∀ stage world, d.AdmitsEntries stage entries →
      d.Run stage d.AdmitsEntries (evalEntries context deeper entries list) world)
    (fun list => ∀ stage world, d.Run stage d.AdmitsAll (evalAll context deeper list) world)
    ?null ?bool ?int ?bigInt ?float ?str ?ident ?member ?index ?callMember ?callIndex ?callName
    ?callValue ?lambda ?list ?set ?map ?and ?or ?binary ?unary ?ternary ?assign ?concat ?seq
    ?deferred ?dynamic ?assignName ?assignMember ?assignIndex ?assignDeferred ?assignDynamic
    ?assignOther ?nil ?cons ?entriesNil ?entriesCons
  case null =>
    intro stage world
    rw [eval]
    exact h.pure (h.scalar rfl)
  case bool =>
    intro b stage world
    rw [eval]
    exact h.pure (h.scalar rfl)
  case int =>
    intro n stage world
    rw [eval]
    exact h.pure (h.scalar rfl)
  case bigInt =>
    intro digits stage world
    rw [eval]
    exact bigLiteral_keeps h digits world
  case float =>
    intro x stage world
    rw [eval]
    exact h.pure (h.scalar rfl)
  case str =>
    intro s stage world
    rw [eval]
    exact h.pure (h.scalar rfl)
  case ident =>
    intro name stage world
    rw [eval]
    exact nameValue_keeps h hhost hresolver hdeeper name world
  case member =>
    intro object name hobject stage world
    rw [eval]
    apply h.bind (hobject stage world)
    intro s₁ base w₁ _ hbase _
    split
    · exact h.pure (h.scalar rfl)
    · exact memberValue_keeps h hhost hresolver hdeeper object hbase (h.scalar rfl) w₁
  case index =>
    intro object key hobject hkey stage world
    rw [eval]
    apply h.bind (hobject stage world)
    intro s₁ base w₁ _ hbase _
    split
    · exact h.pure (h.scalar rfl)
    · apply h.bind (hkey s₁ w₁)
      intro s₂ key w₂ hs₂ hkey _
      exact memberValue_keeps h hhost hresolver hdeeper object (h.later hs₂ hbase) hkey w₂
  case callMember =>
    intro object method args hobject hargs stage world
    rw [eval]
    apply h.bind (hobject stage world)
    intro s₁ base w₁ _ hbase _
    apply h.bind (hargs s₁ w₁)
    intro s₂ args w₂ hs₂ hargs _
    split
    · exact h.pure (h.scalar rfl)
    · exact invokeMethod_keeps h hhost hresolver hdeeper (h.later hs₂ hbase) method hargs w₂
  case callIndex =>
    intro object key args hobject hkey hargs stage world
    rw [eval]
    apply h.bind (hobject stage world)
    intro s₁ base w₁ _ hbase _
    apply h.bind (hkey s₁ w₁)
    intro s₂ key w₂ hs₂ _ _
    apply h.bind (h.text key)
    intro s₃ method w₃ hs₃ _ _
    apply h.bind (hargs s₃ w₃)
    intro s₄ args w₄ hs₄ hargs _
    split
    · exact h.pure (h.scalar rfl)
    · have hbase := h.later (h.trans hs₂ (h.trans hs₃ hs₄)) hbase
      exact invokeMethod_keeps h hhost hresolver hdeeper hbase method hargs w₄
  case callName =>
    intro name args hargs stage world
    rw [eval]
    apply h.bind (hargs stage world)
    intro s₁ args w₁ _ hargs _
    exact callName_keeps h hhost hresolver hdeeper name hargs w₁
  case callValue =>
    intro callee args hmember hindex hname hcallee hargs stage world
    rw [eval]
    · apply h.bind (hcallee stage world)
      intro s₁ target w₁ _ _ _
      apply h.bind (hargs s₁ w₁)
      intro s₂ args w₂ _ hargs _
      exact callValue_keeps h hdeeper target hargs w₂
    · exact hmember
    · exact hindex
    · exact hname
  case lambda =>
    intro params body stage world
    rw [eval]
    exact newLambda_keeps h params body world
  case list =>
    intro items hitems stage world
    rw [eval]
    apply h.bind (hitems stage world)
    intro s₁ items w₁ _ hitems _
    exact h.newList hitems
  case set =>
    intro items hitems stage world
    rw [eval]
    apply h.bind (hitems stage world)
    intro s₁ items w₁ _ hitems _
    exact h.newSet hitems
  case map =>
    intro entries hentries stage world
    rw [eval]
    apply h.bind (hentries stage world (List.forall_mem_nil _))
    intro s₁ entries w₁ _ hentries _
    exact h.newMap hentries
  case and =>
    intro left right hleft hright stage world
    rw [eval]
    apply h.bind (hleft stage world)
    intro s₁ value w₁ _ _ _
    apply h.bind (h.truth value)
    intro s₂ b w₂ _ _ _
    split
    · exact truthOf_keeps h (hright s₂ w₂)
    · exact h.pure (h.scalar rfl)
  case or =>
    intro left right hleft hright stage world
    rw [eval]
    apply h.bind (hleft stage world)
    intro s₁ value w₁ _ _ _
    apply h.bind (h.truth value)
    intro s₂ b w₂ _ _ _
    split
    · exact h.pure (h.scalar rfl)
    · exact truthOf_keeps h (hright s₂ w₂)
  case binary =>
    intro op left right hand hor hleft hright stage world
    rw [eval]
    · apply h.bind (hleft stage world)
      intro s₁ left w₁ _ _ _
      apply h.bind (hright s₁ w₁)
      intro s₂ right w₂ _ _ _
      exact binary_keeps h op left right w₂
    · exact hand
    · exact hor
  case unary =>
    intro op operand hoperand stage world
    rw [eval]
    apply h.bind (hoperand stage world)
    intro s₁ value w₁ _ _ _
    exact unary_keeps h op value w₁
  case ternary =>
    intro condition yes no hcondition hyes hno stage world
    rw [eval]
    apply h.bind (hcondition stage world)
    intro s₁ value w₁ _ _ _
    apply h.bind (h.truth value)
    intro s₂ b w₂ _ _ _
    split
    · exact hyes s₂ w₂
    · exact hno s₂ w₂
  case assign =>
    intro target value hvalue htarget stage world
    rw [eval]
    apply h.bind (hvalue stage world)
    intro s₁ value w₁ _ hvalue _
    apply h.bind (htarget value s₁ w₁ hvalue)
    intro s₂ _ w₂ hs₂ _ _
    exact h.pure (h.later hs₂ hvalue)
  case concat =>
    intro left right hleft hright stage world
    rw [eval]
    apply h.bind (hleft stage world)
    intro s₁ left w₁ _ _ _
    apply h.bind (h.text left)
    intro s₂ left w₂ _ _ _
    apply h.bind (hright s₂ w₂)
    intro s₃ right w₃ _ _ _
    exact h.bindPure (h.text right) fun _ _ _ _ => h.scalar rfl
  case seq =>
    intro left right hleft hright stage world
    rw [eval]
    apply h.bind (hleft stage world)
    intro s₁ _ w₁ _ _ _
    exact hright s₁ w₁
  case deferred =>
    intro inner hinner stage world
    rw [eval]
    exact hinner stage world
  case dynamic =>
    intro inner hinner stage world
    rw [eval]
    exact hinner stage world
  case assignName =>
    intro name value stage world hvalue
    rw [assign]
    exact assignName_keeps h hhost hresolver hdeeper name hvalue world
  case assignMember =>
    intro object name value hobject stage world hvalue
    rw [assign]
    apply h.bind (hobject stage world)
    intro s₁ base w₁ hs₁ hbase _
    exact store_keeps h hhost hresolver hdeeper hbase (h.scalar rfl) (h.later hs₁ hvalue) w₁
  case assignIndex =>
    intro object key value hobject hkey stage world hvalue
    rw [assign]
    apply h.bind (hobject stage world)
    intro s₁ base w₁ hs₁ hbase _
    apply h.bind (hkey s₁ w₁)
    intro s₂ key w₂ hs₂ hkey _
    exact store_keeps h hhost hresolver hdeeper (h.later hs₂ hbase) hkey
      (h.later (h.trans hs₁ hs₂) hvalue) w₂
  case assignDeferred =>
    intro inner value hinner stage world hvalue
    rw [assign]
    exact hinner stage world hvalue
  case assignDynamic =>
    intro inner value hinner stage world hvalue
    rw [assign]
    exact hinner stage world hvalue
  case assignOther =>
    intro target value hname hmember hindex hdeferred hdynamic stage world _
    rw [assign]
    · exact h.fail _
    · exact hname
    · exact hmember
    · exact hindex
    · exact hdeferred
    · exact hdynamic
  case nil =>
    intro stage world
    rw [evalAll]
    exact h.pure (List.forall_mem_nil _)
  case cons =>
    intro item rest hitem hrest stage world
    rw [evalAll]
    apply h.bind (hitem stage world)
    intro s₁ value w₁ _ hvalue _
    refine h.bindPure (hrest s₁ w₁) ?_
    intro s₂ values hs₂ hvalues
    exact List.forall_mem_cons.mpr ⟨h.later hs₂ hvalue, hvalues⟩
  case entriesNil =>
    intro entries stage world hentries
    rw [evalEntries]
    exact h.pure hentries
  case entriesCons =>
    intro entries key value rest hkey hvalue hrest stage world hentries
    rw [evalEntries]
    apply h.bind (hkey stage world)
    intro s₁ key w₁ hs₁ hkey _
    apply h.bind (hvalue s₁ w₁)
    intro s₂ value w₂ hs₂ hvalue _
    apply h.heapNow
    intro _
    have hentries : d.AdmitsEntries s₂ entries := fun entry hentry =>
      ⟨h.later (h.trans hs₁ hs₂) (hentries entry hentry).1,
        h.later (h.trans hs₁ hs₂) (hentries entry hentry).2⟩
    exact hrest key value w₂.heap s₂ w₂
      (Assoc.forall_insert (h.later hs₂ hkey) hvalue hentries)

theorem eval_keeps (expr : Expr) (world : World) :
    d.Run stage d.Admits (eval context deeper expr) world :=
  (eval_assign_keep h hhost hresolver hdeeper).1 expr stage world

theorem assign_keeps (expr : Expr) {value : Value} (hvalue : d.Admits stage value)
    (world : World) : d.Run stage Any (assign context deeper expr value) world :=
  (eval_assign_keep h hhost hresolver hdeeper).2.1 expr value stage world hvalue

theorem evalAll_keeps (list : List Expr) (world : World) :
    d.Run stage d.AdmitsAll (evalAll context deeper list) world :=
  (eval_assign_keep h hhost hresolver hdeeper).2.2.2 list stage world

/-!
## Places, types and read-only checks
-/

theorem place?_keeps (expr : Expr) (stage : d.Stage) (world : World) :
    d.Run stage (Place.Admitted d) (place? context deeper expr) world := by
  have hnone (stage : d.Stage) : Place.Admitted d stage none := fun _ hp => by cases hp
  revert expr stage world
  refine place?.induct context
    (fun expr => ∀ stage world,
      d.Run stage (Place.Admitted d) (place? context deeper expr) world)
    ?expression ?constant ?topLevel ?member ?index ?deferred ?dynamic ?other
  case expression =>
    intro name expr type hbinding stage world
    rw [place?, hbinding]
    exact hdeeper.place? stage expr world
  case constant =>
    intro name value hbinding stage world
    rw [place?, hbinding]
    exact h.pure (hnone stage)
  case topLevel =>
    intro name hbinding stage world
    rw [place?, hbinding]
    apply h.pure
    rintro p ⟨⟩
    exact ⟨h.scalar rfl, h.scalar rfl⟩
  case member =>
    intro object name stage world
    rw [place?]
    refine h.bindPure (eval_keeps h hhost hresolver hdeeper object world) ?_
    rintro s₁ base _ hbase p ⟨⟩
    exact ⟨hbase, h.scalar rfl⟩
  case index =>
    intro object key stage world
    rw [place?]
    apply h.bind (eval_keeps h hhost hresolver hdeeper object world)
    intro s₁ base w₁ _ hbase _
    refine h.bindPure (eval_keeps h hhost hresolver hdeeper key w₁) ?_
    rintro s₂ key hs₂ hkey p ⟨⟩
    exact ⟨h.later hs₂ hbase, hkey⟩
  case deferred =>
    intro inner hinner stage world
    rw [place?]
    exact hinner stage world
  case dynamic =>
    intro inner hinner stage world
    rw [place?]
    exact hinner stage world
  case other =>
    intro expr hname hmember hindex hdeferred hdynamic stage world
    rw [place?]
    · exact h.pure (hnone stage)
    · exact hname
    · exact hmember
    · exact hindex
    · exact hdeferred
    · exact hdynamic

theorem nameType_keeps (name : String) (world : World) :
    d.Run stage Any (nameType context deeper name) world := by
  apply h.view
  · intro scopes hscopes
    simp only [hscopes name]
  · intro _
    cases world.scopes.find? name with
    | some value => exact h.heapNow fun _ => h.pure trivial
    | none =>
        cases context.bindings.find? name with
        | some binding =>
            cases binding with
            | expression expr type => exact hdeeper.type stage expr world
            | constant value => exact h.heapNow fun _ => h.pure trivial
        | none =>
            apply h.bind (hresolver.type _ (services_keep h hhost hdeeper) stage .null _ world
              (h.scalar rfl) (h.scalar rfl))
            intro s₁ answer w₁ _ _ _
            cases answer with
            | resolved type => exact h.pure trivial
            | unresolved =>
                dsimp only
                split
                · exact h.heapNow fun _ => h.pure trivial
                · exact h.fail _

theorem nameReadOnly_keeps (name : String) (world : World) :
    d.Run stage Any (nameReadOnly context deeper name) world := by
  apply h.view
  · intro scopes hscopes
    dsimp only
    rw [hscopes.isBound name]
  · intro _
    split
    · exact h.pure trivial
    · split
      · exact hdeeper.readOnly stage _ world
      · exact h.pure trivial
      · apply h.bind (hresolver.readOnly _ (services_keep h hhost hdeeper) stage .null _ world
          (h.scalar rfl) (h.scalar rfl))
        intro s₁ answer w₁ _ _ _
        cases answer with
        | resolved answer => exact h.pure trivial
        | unresolved => exact h.fail _

theorem typeOf_keeps (expr : Expr) (stage : d.Stage) (world : World) :
    d.Run stage Any (typeOf context deeper expr) world := by
  revert expr stage world
  refine typeOf.induct
    (fun expr => ∀ stage world, d.Run stage Any (typeOf context deeper expr) world)
    ?name ?member ?index ?ternary ?seq ?deferred ?dynamic ?other
  case name =>
    intro name stage world
    rw [typeOf]
    exact nameType_keeps h hhost hresolver hdeeper name world
  case member =>
    intro object name stage world
    rw [typeOf]
    apply h.bind (eval_keeps h hhost hresolver hdeeper object world)
    intro s₁ base w₁ _ hbase _
    exact askMember_keeps h hhost hdeeper hresolver.type hbase (h.scalar rfl) w₁
  case index =>
    intro object key stage world
    rw [typeOf]
    apply h.bind (eval_keeps h hhost hresolver hdeeper object world)
    intro s₁ base w₁ _ hbase _
    apply h.bind (eval_keeps h hhost hresolver hdeeper key w₁)
    intro s₂ key w₂ hs₂ hkey _
    exact askMember_keeps h hhost hdeeper hresolver.type (h.later hs₂ hbase) hkey w₂
  case ternary =>
    intro condition yes no hyes hno stage world
    rw [typeOf]
    apply h.bind (eval_keeps h hhost hresolver hdeeper condition world)
    intro s₁ value w₁ _ _ _
    apply h.bind (h.truth value)
    intro s₂ b w₂ _ _ _
    split
    · exact hyes s₂ w₂
    · exact hno s₂ w₂
  case seq =>
    intro left right hright stage world
    rw [typeOf]
    apply h.bind (eval_keeps h hhost hresolver hdeeper left world)
    intro s₁ _ w₁ _ _ _
    exact hright s₁ w₁
  case deferred =>
    intro inner hinner stage world
    rw [typeOf]
    exact hinner stage world
  case dynamic =>
    intro inner hinner stage world
    rw [typeOf]
    exact hinner stage world
  case other =>
    intro expr hname hmember hindex hternary hseq hdeferred hdynamic stage world
    rw [typeOf]
    · apply h.bind (eval_keeps h hhost hresolver hdeeper expr world)
      intro s₁ value w₁ _ _ _
      exact h.heapNow fun _ => h.pure trivial
    · exact hname
    · exact hmember
    · exact hindex
    · exact hternary
    · exact hseq
    · exact hdeferred
    · exact hdynamic

theorem readOnly_keeps (expr : Expr) (stage : d.Stage) (world : World) :
    d.Run stage Any (readOnly context deeper expr) world := by
  revert expr stage world
  refine readOnly.induct
    (fun expr => ∀ stage world, d.Run stage Any (readOnly context deeper expr) world)
    ?name ?member ?index ?deferred ?dynamic ?other
  case name =>
    intro name stage world
    rw [readOnly]
    exact nameReadOnly_keeps h hhost hresolver hdeeper name world
  case member =>
    intro object name stage world
    rw [readOnly]
    apply h.bind (eval_keeps h hhost hresolver hdeeper object world)
    intro s₁ base w₁ _ hbase _
    exact askMember_keeps h hhost hdeeper hresolver.readOnly hbase (h.scalar rfl) w₁
  case index =>
    intro object key stage world
    rw [readOnly]
    apply h.bind (eval_keeps h hhost hresolver hdeeper object world)
    intro s₁ base w₁ _ hbase _
    apply h.bind (eval_keeps h hhost hresolver hdeeper key w₁)
    intro s₂ key w₂ hs₂ hkey _
    exact askMember_keeps h hhost hdeeper hresolver.readOnly (h.later hs₂ hbase) hkey w₂
  case deferred =>
    intro inner hinner stage world
    rw [readOnly]
    exact hinner stage world
  case dynamic =>
    intro inner hinner stage world
    rw [readOnly]
    exact hinner stage world
  case other =>
    intro expr hname hmember hindex hdeferred hdynamic stage world
    rw [readOnly]
    · exact h.pure trivial
    · exact hname
    · exact hmember
    · exact hindex
    · exact hdeferred
    · exact hdynamic

end Expressions

/-!
## Every depth
-/

include h hhost hresolver

theorem within_keeps (depth : Nat) : (within context depth).Keeps d := by
  induction depth with
  | zero =>
      rw [within]
      exact
        { eval := fun _ _ world => h.throw _ world
          type := fun _ _ world => h.throw _ world
          readOnly := fun _ _ world => h.throw _ world
          assign := fun _ _ _ world _ => h.throw _ world
          place? := fun _ _ world => h.throw _ world }
  | succ depth ih =>
      rw [within]
      exact
        { eval := fun _ => eval_keeps h hhost hresolver ih
          type := fun stage expr => typeOf_keeps h hhost hresolver ih expr stage
          readOnly := fun stage expr => readOnly_keeps h hhost hresolver ih expr stage
          assign := fun _ expr _ world hvalue =>
            assign_keeps h hhost hresolver ih expr hvalue world
          place? := fun stage expr => place?_keeps h hhost hresolver ih expr stage }

end Disciplines

/-!
## Laws
-/

section Laws

variable {law : Law} (h : law.Compositional) {context : Context} {deeper : Deeper}
  (hhost : context.HostObeys law) (hresolver : context.resolver.Obeys law)
  (hdeeper : deeper.Obeys law)

include h

theorem newLambda_obeys (params : List String) (body : Expr) (world : World) :
    law _ (newLambda params body) world := by
  have hkeeps : law.discipline.Run () law.discipline.Admits (newLambda params body) world :=
    newLambda_keeps h.discipline params body world
  exact hkeeps.1

include hhost hresolver

theorem within_obeys (depth : Nat) : (within context depth).Obeys law :=
  Deeper.keeps_discipline.mp
    (within_keeps h.discipline (Context.hostKeeps_discipline.mpr hhost)
      (Resolver.keeps_discipline.mpr hresolver) depth)

include hdeeper

theorem evalAll_obeys (list : List Expr) (world : World) :
    law _ (evalAll context deeper list) world := by
  have hkeeps : law.discipline.Run () law.discipline.AdmitsAll (evalAll context deeper list)
      world :=
    evalAll_keeps h.discipline (Context.hostKeeps_discipline.mpr hhost)
      (Resolver.keeps_discipline.mpr hresolver) (Deeper.keeps_discipline.mpr hdeeper) list world
  exact hkeeps.1

end Laws

end Evaluation
end ExprLang
