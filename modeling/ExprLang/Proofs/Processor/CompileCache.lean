import Mathlib
import ExprLang.Processor
import ExprLang.Proofs.Evaluation.Operation

/-!
# The compile cache from outside

A cache holds under a text what that text compiles to, so that it answers as a compilation would.
A processor with such a cache and one without a cache that agree in everything else therefore
take every step alike, and by induction every session: the trees that come out of the cache are
the trees that are compiled anew, and nothing but compilation looks at the cache.
-/

namespace ExprLang

/-!
## Steps of a session
-/

/-- What a step answers. -/
inductive Step.Answer
  | done
  | flag (b : Bool)
  | count (n : Nat)
  | value (value : Value)
  | type (type : ValueType)
  | place (place : Option Place)
  | expression (expression : ValueExpression)

def Operation.answer : (operation : Operation) → operation.Answer → Step.Answer
  | eval _, value | evalAs .., value | apply .., value | invokeMethod .., value => .value value
  | typeOf _, type => .type type
  | readOnly _, b => .flag b
  | assign .., _ => .done
  | place? _, place => .place place

/-- What a host may do with a processor and have it do. -/
inductive Step
  | define (name : String) (value : Value)
  | bindValue (name : String) (value : Value)
  | defineVariable (name text : String) (type : ValueType)
  | unbind (name : String)
  | convert (className : String) (converter : Converter)
  | importStatic (path : String)
  /-- Map functions, define and import classes, import packages. -/
  | changeContext (change : Context → Context)
  /-- Make objects and change them. -/
  | onHeap (action : HeapAction Value)
  | templateExpression (text : String) (type : ValueType)
  | expression (text : String) (type : ValueType)
  | value (expression : ValueExpression)
  | eval (text : String) (type : ValueType)
  | assign (text : String) (value : Value)
  /-- Compile a bare expression and ask something of it. -/
  | ask (text : String) (question : Expr → Operation)
  | operate (operation : Operation)

namespace Step

def operation (operation : Operation) : Session Answer :=
  operation.answer <$> Session.evaluate (operation.run · Evaluation.depthLimit)

def run : Step → Session Answer
  | .define name newValue => (fun _ => .done) <$> Session.define name newValue
  | .bindValue name newValue => (fun _ => .done) <$> Session.bindValue name newValue
  | .defineVariable name text type => (fun _ => .done) <$> Session.defineVariable name text type
  | .unbind name => Answer.flag <$> Session.unbind name
  | .convert className converter => Answer.count <$> Session.convert className converter
  | .importStatic path => (fun _ => .done) <$> Session.importStatic path
  | .changeContext change => (fun _ => .done) <$> Session.changeContext change
  | .onHeap action => Answer.value <$> Session.evaluate fun _ => World.onHeap action
  | .templateExpression text type => Answer.expression <$> Session.templateExpression text type
  | .expression text type => Answer.expression <$> Session.expression text type
  | .value found => Answer.value <$> Session.value found
  | .eval text type => Answer.value <$> Session.eval text type
  | .assign text newValue => (fun _ => .done) <$> Session.assign text newValue
  | .ask text question => do operation (question (← Session.expression text .any).expr)
  | .operate asked => operation asked

/-- What a step came to, without the processor that it left. -/
def outcome : EStateM.Result Failure Processor Answer → Except Failure Answer
  | .ok answer _ => .ok answer
  | .error failure _ => .error failure

/-- The outcomes of steps taken one after the other, and the processor that they leave.  A step
that fails does not end the session. -/
def runAll : List Step → Processor → List (Except Failure Answer) × Processor
  | [], processor => ([], processor)
  | step :: rest, processor =>
    let result := step.run processor
    let later := runAll rest (finalState result)
    (outcome result :: later.1, later.2)

end Step

/-!
## Faithful caches
-/

namespace Cache

/-- Every entry is what its text compiles to. -/
def Faithful (cache : Cache) : Prop :=
  ∀ text template, cache.find? text = some template → Template.compile text = .ok template

theorem Faithful.insert {cache : Cache} (h : cache.Faithful) {text : String} {template : Template}
    (htemplate : Template.compile text = .ok template) :
    (cache.insert text template).1 = template ∧ (cache.insert text template).2.Faithful := by
  unfold Cache.insert
  split
  · exact ⟨rfl, h⟩
  · split
    · rename_i stored hstored
      have hsame := (h text stored hstored).symm.trans htemplate
      cases hsame
      exact ⟨rfl, h⟩
    · refine ⟨rfl, ?_⟩
      intro other found hfound
      simp only [Cache.find?, Table.find?_insert] at hfound
      split at hfound
      · rename_i hother
        cases hfound
        rw [hother]
        exact htemplate
      · exact h other found hfound

/-- A faithful cache answers with what the text compiles to, or fails as the compilation does, and
stays faithful. -/
theorem Faithful.compile {cache : Cache} (h : cache.Faithful) (text : String) :
    match Template.compile text with
    | .ok template => ∃ cache', cache.compile text = .ok (template, cache') ∧ cache'.Faithful
    | .error error => cache.compile text = .error error := by
  unfold Cache.compile
  cases hfound : cache.find? text with
  | some stored =>
      rw [h text stored hfound]
      exact ⟨cache, rfl, h⟩
  | none =>
      cases hcompile : Template.compile text with
      | error error => rfl
      | ok template =>
          obtain ⟨hsame, hfaithful⟩ := h.insert hcompile
          refine ⟨(cache.insert text template).2, ?_, hfaithful⟩
          exact congrArg Except.ok (Prod.ext hsame rfl)

theorem compile_disabled (text : String) :
    (empty false).compile text = (·, empty false) <$> Template.compile text := rfl

end Cache

/-!
## Steps that do not see the cache
-/

/-- The second processor is the first one without its cache. -/
structure Processor.Mirrors (cached plain : Processor) : Prop where
  context : plain.context = cached.context
  world : plain.world = cached.world
  faithful : cached.cache.Faithful
  disabled : plain.cache = .empty false

namespace Session

variable {α β : Type}

/-- The results are the same and leave processors that differ in their caches only. -/
inductive Agree : EStateM.Result Failure Processor α → EStateM.Result Failure Processor α → Prop
  | ok (a : α) {cached plain : Processor} :
      cached.Mirrors plain → Agree (.ok a cached) (.ok a plain)
  | error (failure : Failure) {cached plain : Processor} :
      cached.Mirrors plain → Agree (.error failure cached) (.error failure plain)

/-- The step comes out the same with a cache and without. -/
def Blind (step : Session α) : Prop :=
  ∀ cached plain : Processor, cached.Mirrors plain → Agree (step cached) (step plain)

namespace Blind

theorem pure (a : α) : Blind (Pure.pure a : Session α) :=
  fun _ _ h => .ok a h

theorem bind {step : Session α} {next : α → Session β} (hstep : Blind step)
    (hnext : ∀ a, Blind (next a)) : Blind (step >>= next) := by
  intro cached plain h
  have hagree := hstep cached plain h
  simp only [Bind.bind, EStateM.bind]
  generalize step cached = result at hagree
  generalize step plain = result' at hagree
  cases hagree with
  | ok a hafter => exact hnext a _ _ hafter
  | error failure hafter => exact .error failure hafter

theorem map (f : α → β) {step : Session α} (hstep : Blind step) : Blind (f <$> step) :=
  hstep.bind fun a => pure (f a)

theorem changeContext (change : Context → Context) : Blind (Session.changeContext change) := by
  intro cached plain h
  refine .ok () ⟨?_, h.world, h.faithful, h.disabled⟩
  exact congrArg change h.context

theorem define (name : String) (value : Value) : Blind (Session.define name value) := by
  intro cached plain h
  refine .ok () ⟨h.context, ?_, h.faithful, h.disabled⟩
  exact congrArg (World.define · name value) h.world

theorem importStatic (path : String) : Blind (Session.importStatic path) := by
  intro cached plain h
  simp only [Session.importStatic, h.context]
  split
  · exact .ok () ⟨rfl, h.world, h.faithful, h.disabled⟩
  · exact .error _ h

theorem evaluate (action : Context → Action α) : Blind (Session.evaluate action) := by
  intro cached plain h
  simp only [Session.evaluate, h.context, h.world]
  split
  · rename_i a world _
    exact .ok a ⟨rfl, rfl, h.faithful, h.disabled⟩
  · rename_i failure world _
    exact .error failure ⟨rfl, rfl, h.faithful, h.disabled⟩

theorem unbind (name : String) : Blind (Session.unbind name) := by
  intro cached plain h
  obtain ⟨config, cache, context, world⟩ := cached
  obtain ⟨config', cache', context', world'⟩ := plain
  cases h.context
  exact .ok _ ⟨rfl, h.world, h.faithful, h.disabled⟩

theorem convert (className : String) (converter : Converter) :
    Blind (Session.convert className converter) := by
  intro cached plain h
  obtain ⟨config, cache, context, world⟩ := cached
  obtain ⟨config', cache', context', world'⟩ := plain
  cases h.context
  exact .ok _ ⟨rfl, h.world, h.faithful, h.disabled⟩

/-- Compilation is the one step that looks at the cache. -/
theorem compile (text : String) : Blind (Session.compile text) := by
  intro cached plain h
  have hcached := h.faithful.compile text
  simp only [Session.compile, h.disabled, Cache.compile_disabled]
  cases hcompile : Template.compile text with
  | ok template =>
      rw [hcompile] at hcached
      obtain ⟨cache, hcache, hfaithful⟩ := hcached
      rw [hcache]
      exact .ok template ⟨h.context, h.world, hfaithful, rfl⟩
  | error error =>
      rw [hcompile] at hcached
      rw [hcached]
      exact .error _ h

theorem templateExpression (text : String) (type : ValueType) :
    Blind (Session.templateExpression text type) :=
  (compile text).bind fun template => pure (ValueExpression.mk text template type)

theorem expression (text : String) (type : ValueType) : Blind (Session.expression text type) :=
  templateExpression (Template.bracket text) type

theorem eval (text : String) (type : ValueType) : Blind (Session.eval text type) :=
  (expression text type).bind fun found => evaluate found.value

theorem assign (text : String) (value : Value) : Blind (Session.assign text value) :=
  (expression text .any).bind fun target =>
    evaluate fun context => context.assign target.expr value

theorem defineVariable (name text : String) (type : ValueType) :
    Blind (Session.defineVariable name text type) :=
  (compile (Template.bracket text)).bind fun template =>
    changeContext fun context => context.bind name (.expression template.expr type)

end Blind
end Session

/-!
## Sessions
-/

namespace Step

theorem operation_blind (asked : Operation) : (operation asked).Blind :=
  .map _ (.evaluate _)

theorem run_blind (step : Step) : step.run.Blind := by
  cases step with
  | define name value => exact .map _ (.define name value)
  | bindValue name value => exact .map _ (.changeContext _)
  | defineVariable name text type => exact .map _ (.defineVariable name text type)
  | unbind name => exact .map _ (.unbind name)
  | convert className converter => exact .map _ (.convert className converter)
  | importStatic path => exact .map _ (.importStatic path)
  | changeContext change => exact .map _ (.changeContext change)
  | onHeap action => exact .map _ (.evaluate _)
  | templateExpression text type => exact .map _ (.templateExpression text type)
  | expression text type => exact .map _ (.expression text type)
  | value expression => exact .map _ (.evaluate _)
  | eval text type => exact .map _ (.eval text type)
  | assign text newValue => exact .map _ (.assign text newValue)
  | ask text question =>
      exact .bind (.expression text .any) fun found => operation_blind (question found.expr)
  | operate asked => exact operation_blind asked

theorem runAll_mirrors (steps : List Step) {cached plain : Processor} (h : cached.Mirrors plain) :
    (runAll steps cached).1 = (runAll steps plain).1 ∧
      (runAll steps cached).2.Mirrors (runAll steps plain).2 := by
  induction steps generalizing cached plain with
  | nil => exact ⟨rfl, h⟩
  | cons step rest ih =>
      have hagree := step.run_blind cached plain h
      simp only [runAll]
      generalize step.run cached = result at hagree
      generalize step.run plain = result' at hagree
      cases hagree with
      | ok answer hafter =>
          obtain ⟨houtcomes, hlast⟩ := ih hafter
          exact ⟨congrArg _ houtcomes, hlast⟩
      | error failure hafter =>
          obtain ⟨houtcomes, hlast⟩ := ih hafter
          exact ⟨congrArg _ houtcomes, hlast⟩

end Step

theorem Processor.ofConfig_mirrors (config : Config) :
    (ofConfig { config with cache := true }).Mirrors (ofConfig { config with cache := false }) where
  context := rfl
  world := rfl
  faithful _ _ hfound := by cases hfound
  disabled := rfl

/-- A session comes out the same at every step with a cache and without, and leaves the same
world.  In every state that a session reaches, an entry of the cache is what its text compiles to,
and a text that does not compile leaves the processor as it is. -/
theorem cache_unobservable (config : Config) (steps : List Step) :
    let cached := Step.runAll steps (.ofConfig { config with cache := true })
    let plain := Step.runAll steps (.ofConfig { config with cache := false })
    cached.1 = plain.1 ∧ cached.2.world = plain.2.world ∧ cached.2.context = plain.2.context ∧
      plain.2.cache.isEmpty ∧
      (∀ text template, cached.2.cache.find? text = some template →
        Template.compile text = .ok template) ∧
      ∀ text error, Template.compile text = .error error →
        cached.2.cache.find? text = none ∧
        Session.compile text cached.2 = .error (Session.parseFailure error) cached.2 := by
  intro cached plain
  obtain ⟨houtcomes, hmirrors⟩ := Step.runAll_mirrors steps (Processor.ofConfig_mirrors config)
  refine ⟨houtcomes, hmirrors.world.symm, hmirrors.context.symm, ?_, hmirrors.faithful, ?_⟩
  · exact congrArg Cache.isEmpty hmirrors.disabled
  · intro text error herror
    constructor
    · refine Option.eq_none_iff_forall_ne_some.mpr fun template hfound => ?_
      rw [hmirrors.faithful text template hfound] at herror
      cases herror
    · have hfails := hmirrors.faithful.compile text
      rw [herror] at hfails
      simp only [Session.compile]
      rw [hfails]

/-- A text that is compiled twice is stored once, and both expressions come out of one tree. -/
theorem repeated_text_unobservable :
    let steps : List Step := [.templateExpression "hi" .string, .templateExpression "hi" .any]
    let cached := Step.runAll steps (.ofConfig { cache := true })
    let plain := Step.runAll steps (.ofConfig { cache := false })
    cached.2.cache.find? "hi" = some ⟨.str "hi", .literal⟩ ∧ cached.1 = plain.1 ∧
      Template.compile "hi" = .ok ⟨.str "hi", .literal⟩ := by
  intro steps cached plain
  have hunobservable := cache_unobservable {} steps
  have hcompile : Template.compile "hi" = .ok ⟨.str "hi", .literal⟩ := by cbv
  have hfound : cached.2.cache.find? "hi" = some ⟨.str "hi", .literal⟩ := by
    simp [cached, steps, Step.runAll, Step.run, Session.templateExpression, Session.compile,
      Processor.ofConfig, Cache.compile, Cache.insert, Cache.find?, Cache.empty, hcompile,
      finalState, bind, EStateM.bind, Functor.map, EStateM.map, pure, EStateM.pure, Except.map]
  exact ⟨hfound, hunobservable.1, hunobservable.2.2.2.2.1 "hi" _ hfound⟩

end ExprLang
