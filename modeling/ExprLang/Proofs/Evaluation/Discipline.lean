import ExprLang.Proofs.Evaluation.Answers
import ExprLang.Proofs.Evaluation.Law

/-!
# Disciplines of runs

A law says nothing of what a run answers.  A discipline does: it has stages, at each of them it
admits some values and finds some worlds sound, and what it says of a run includes what is to
hold of the answer at the stage that the run has come to.  A value that is admitted stays so at
all later stages.

A discipline is compositional if it holds of a run whenever it holds of the steps that the run
is put together from.  A law is a discipline with one stage, at which every value is admitted.
-/

namespace ExprLang

/-- What holds of the answer, if there is one. -/
def Resolution.Each {α : Type} (p : α → Prop) : Resolution α → Prop
  | resolved answer => p answer
  | unresolved => True

/-- Something that may be said of runs and of their answers. -/
structure Discipline where
  Stage : Type
  /-- The second stage can be come to from the first. -/
  Later : Stage → Stage → Prop
  Admits : Stage → Value → Prop
  /-- The value may be stored where values of the type belong. -/
  Accepts : Heap → Value → ValueType → Prop
  Sound : Stage → World → Prop
  /-- The run of an action from a world at a stage, with what holds of its answer at the stage
  that it comes to. -/
  Run {α : Type} : Stage → (Stage → α → Prop) → Action α → World → Prop

namespace Discipline

/-- Nothing is said of the answer. -/
abbrev Any {d : Discipline} {α : Type} : d.Stage → α → Prop := fun _ _ => True

def AdmitsAll (d : Discipline) (stage : d.Stage) (values : List Value) : Prop :=
  ∀ value ∈ values, d.Admits stage value

def AdmitsEntries (d : Discipline) (stage : d.Stage) (entries : List (Value × Value)) : Prop :=
  ∀ entry ∈ entries, d.Admits stage entry.1 ∧ d.Admits stage entry.2

def AdmitsTable (d : Discipline) (stage : d.Stage) (table : Table Value) : Prop :=
  ∀ name value, table.find? name = some value → d.Admits stage value

/-- The discipline holds of a run if it holds of its steps.  A step that looks at the world finds
it sound, and sees the scopes through the values of names only. -/
structure Compositional (d : Discipline) : Prop where
  refl (stage : d.Stage) : d.Later stage stage
  trans {first mid last : d.Stage} : d.Later first mid → d.Later mid last → d.Later first last
  later {stage stage' : d.Stage} {value : Value} :
    d.Later stage stage' → d.Admits stage value → d.Admits stage' value
  scalar {stage : d.Stage} {value : Value} : value.isScalar → d.Admits stage value
  -- what a sound world holds
  sequence {stage : d.Stage} {world : World} (r : Ref) :
    d.Sound stage world → d.AdmitsAll stage (world.heap.sequence r)
  entries {stage : d.Stage} {world : World} (r : Ref) :
    d.Sound stage world → d.AdmitsEntries stage (world.heap.entries r)
  property {stage : d.Stage} {world : World} {r : Ref} {p : Property} :
    d.Sound stage world → p ∈ (world.heap.object r).properties → d.Admits stage p.value
  captured {stage : d.Stage} {world : World} (r : Ref) :
    d.Sound stage world → d.AdmitsTable stage (world.heap.closure r).captured
  beans {stage : d.Stage} {world : World} : d.Sound stage world → d.AdmitsTable stage world.beans
  scopes {stage : d.Stage} {world : World} {name : String} {value : Value} :
    d.Sound stage world → world.scopes.find? name = some value → d.Admits stage value
  -- the steps of a run
  pure {α : Type} {post : d.Stage → α → Prop} {stage : d.Stage} {a : α} {world : World} :
    post stage a → d.Run stage post (Pure.pure a) world
  throw {α : Type} {post : d.Stage → α → Prop} {stage : d.Stage} (failure : Failure)
    (world : World) : d.Run stage post (throw failure) world
  bind {α β : Type} {mid : d.Stage → α → Prop} {post : d.Stage → β → Prop} {stage : d.Stage}
    {action : Action α} {next : α → Action β} {world : World} :
    d.Run stage mid action world →
    (∀ stage' a after, d.Later stage stage' → mid stage' a → action world = .ok a after →
      d.Run stage' post (next a) after) →
    d.Run stage post (action >>= next) world
  attempt {α : Type} {post : d.Stage → α → Prop} {stage : d.Stage} {action : Action α}
    {world : World} : d.Run stage post action world →
    d.Run stage (fun stage' answer => ∀ a, answer = .ok a → post stage' a) action.attempt world
  withLayer {α : Type} {post : d.Stage → α → Prop} {stage : d.Stage} {layer : Table Value}
    {action : Action α} {world : World} : d.AdmitsTable stage layer →
    d.Run stage post action { world with scopes := world.scopes.push layer } →
    d.Run stage post (World.withLayer layer action) world
  view {α : Type} {post : d.Stage → α → Prop} {stage : d.Stage} {ask : World → Action α}
    {world : World} :
    (∀ scopes : Scopes, scopes.Agree world.scopes → ask { world with scopes } = ask world) →
    (d.Sound stage world → d.Run stage post (ask world) world) →
    d.Run stage post (World.now >>= ask) world
  addSequence {stage : d.Stage} {world : World} (items : Heap → List Value) :
    d.AdmitsAll stage (items world.heap) →
    d.Run stage (fun stage' r => d.Admits stage' (.list r) ∧ d.Admits stage' (.set r))
      (World.allocate fun heap => heap.addSequence (items heap)) world
  addMap {stage : d.Stage} {world : World} {entries : List (Value × Value)} :
    d.AdmitsEntries stage entries →
    d.Run stage (fun stage' r => d.Admits stage' (.map r)) (World.allocate (·.addMap entries))
      world
  addClosure {stage : d.Stage} {world : World} {closure : Closure} :
    d.AdmitsTable stage closure.captured →
    d.Run stage (fun stage' r => d.Admits stage' (.lambda r))
      (World.allocate (·.addClosure closure)) world

/-- A heap with admitted values stored in one element of a sequence, the entries of one map or
one property of a bean. -/
inductive Stored (d : Discipline) (stage : d.Stage) (heap : Heap) : Heap → Prop
  | element {r : Ref} (i : Nat) {value : Value} : d.Admits stage (.list r) →
      d.Admits stage value →
      Stored d stage heap (heap.setSequence r ((heap.sequence r).set i value))
  | arrayElement {component : ValueType} {r : Ref} (i : Nat) {value : Value} :
      d.Admits stage (.array component r) → d.Admits stage value →
      d.Accepts heap value component →
      Stored d stage heap (heap.setSequence r ((heap.sequence r).set i value))
  | entries (r : Ref) {entries : List (Value × Value)} : d.AdmitsEntries stage entries →
      Stored d stage heap (heap.setEntries r entries)
  | property {r : Ref} {name : String} {p : Property} {value : Value} :
      (heap.object r).property? name = some p → d.Admits stage value →
      d.Accepts heap value p.type →
      Stored d stage heap (heap.setObject r ((heap.object r).store name value))

/-- A compositional discipline that stores keep too. -/
structure Storing (d : Discipline) : Prop extends d.Compositional where
  define {stage : d.Stage} (name : String) (value : Value) (world : World) :
    d.Admits stage value → d.Run stage Any (modify fun world => world.define name value) world
  changeHeap {stage : d.Stage} {change : Heap → Heap} {world : World} :
    d.Stored stage world.heap (change world.heap) →
    d.Run stage Any (World.changeHeap change) world

namespace Compositional

variable {d : Discipline} (h : d.Compositional) {α β : Type} {mid post : d.Stage → α → Prop}
  {result : d.Stage → β → Prop} {stage stage' : d.Stage} {world : World}

include h

/-!
## Admitted values
-/

theorem laterAll {values : List Value} (hlater : d.Later stage stage')
    (hvalues : d.AdmitsAll stage values) : d.AdmitsAll stage' values :=
  fun value hvalue => h.later hlater (hvalues value hvalue)

theorem headD {values : List Value} (hvalues : d.AdmitsAll stage values) :
    d.Admits stage (values.headD .null) := by
  cases values with
  | nil => exact h.scalar rfl
  | cons value rest => exact hvalues value List.mem_cons_self

theorem getD {values : List Value} (hvalues : d.AdmitsAll stage values) (i : Nat) :
    d.Admits stage (values.getD i .null) := by
  rw [List.getD_eq_getElem?_getD]
  cases hfound : values[i]? with
  | none => exact h.scalar rfl
  | some value => exact hvalues value (List.mem_of_getElem? hfound)

theorem found {same : Value → Value → Bool} {entries : List (Value × Value)}
    (hentries : d.AdmitsEntries stage entries) (key : Value) :
    d.Admits stage ((Assoc.find? same key entries).getD .null) := by
  cases hfound : Assoc.find? same key entries with
  | none => exact h.scalar rfl
  | some value =>
      obtain ⟨k, hmem⟩ := Assoc.mem_of_find? hfound
      exact (hentries (k, value) hmem).2

omit h in
theorem insertAll {table : Table Value} {entries : List (String × Value)}
    (htable : d.AdmitsTable stage table)
    (hentries : ∀ entry ∈ entries, d.Admits stage entry.2) :
    d.AdmitsTable stage (table.insertAll entries) := by
  induction entries generalizing table with
  | nil => exact htable
  | cons entry rest ih =>
      obtain ⟨hentry, hrest⟩ := List.forall_mem_cons.mp hentries
      refine ih ?_ hrest
      intro name value hfound
      rw [Table.find?_insert] at hfound
      split at hfound
      · cases hfound
        exact hentry
      · exact htable name value hfound

/-!
## Small actions
-/

theorem fail (fault : EvalFault) : d.Run stage post (Action.fail fault) world := h.throw _ _

theorem ofExcept {answer : Except EvalError α} (hanswer : ∀ a, answer = .ok a → post stage a) :
    d.Run stage post (Action.ofExcept answer) world := by
  cases answer with
  | ok a => exact h.pure (hanswer a rfl)
  | error error => exact h.throw _ world

theorem ofScalar {answer : Except EvalError Value} (hanswer : AnswersScalar answer) :
    d.Run stage d.Admits (Action.ofExcept answer) world :=
  h.ofExcept fun result hresult => h.scalar (hanswer result hresult)

theorem bindPure {f : α → β} {action : Action α} (haction : d.Run stage mid action world)
    (hresult : ∀ stage' a, d.Later stage stage' → mid stage' a → result stage' (f a)) :
    d.Run stage result (action >>= fun a => Pure.pure (f a)) world :=
  h.bind haction fun stage' a _ hlater ha _ => h.pure (hresult stage' a hlater ha)

theorem weaken {action : Action α} (haction : d.Run stage mid action world)
    (hpost : ∀ stage' a, d.Later stage stage' → mid stage' a → post stage' a) :
    d.Run stage post action world := by
  have hbind := h.bindPure (f := id) haction hpost
  simpa using hbind

theorem map {f : α → β} {action : Action α} (haction : d.Run stage mid action world)
    (hresult : ∀ stage' a, d.Later stage stage' → mid stage' a → result stage' (f a)) :
    d.Run stage result (f <$> action) world :=
  h.bindPure haction hresult

theorem heapNow {ask : Heap → Action α}
    (hask : d.Sound stage world → d.Run stage post (ask world.heap) world) :
    d.Run stage post (World.heapNow >>= ask) world := by
  change d.Run stage post (World.now >>= fun world => ask world.heap) world
  exact h.view (fun _ _ => rfl) hask

theorem text (value : Value) : d.Run stage Any (World.text value) world :=
  h.heapNow fun _ => h.pure trivial

theorem typeName (value : Value) : d.Run stage Any (World.typeName value) world :=
  h.heapNow fun _ => h.pure trivial

theorem truth (value : Value) : d.Run stage Any (World.truth value) world :=
  h.heapNow fun _ => h.ofExcept fun _ _ => trivial

theorem newList {items : List Value} (hitems : d.AdmitsAll stage items) :
    d.Run stage d.Admits (World.newList items) world :=
  h.bindPure (h.addSequence (fun _ => items) hitems) fun _ _ _ hr => hr.1

theorem newSet {items : List Value} (hitems : d.AdmitsAll stage items) :
    d.Run stage d.Admits (World.newSet items) world := by
  have hdistinct : d.AdmitsAll stage (world.heap.distinct items) :=
    fun value hvalue => hitems value (Assoc.mem_of_mem_distinct hvalue)
  exact h.bindPure (h.addSequence (fun heap => heap.distinct items) hdistinct)
    fun _ _ _ hr => hr.2

theorem newMap {entries : List (Value × Value)} (hentries : d.AdmitsEntries stage entries) :
    d.Run stage d.Admits (World.newMap entries) world :=
  h.bindPure (h.addMap hentries) fun _ _ _ hr => hr

end Compositional

end Discipline

/-!
## The host and the resolver
-/

/-- What the function does in the heap keeps the discipline. -/
def HostFunction.Keeps (function : HostFunction) (d : Discipline) : Prop :=
  ∀ stage args world, d.AdmitsAll stage args →
    d.Run stage d.Admits (World.onHeap (function.body args)) world

/-- What the behaviour does in the heap keeps the discipline. -/
def Behaviour.Keeps (behaviour : Behaviour) (d : Discipline) : Prop :=
  ∀ stage r args world, d.Admits stage (.bean r) → d.AdmitsAll stage args →
    d.Run stage d.Admits (World.onHeap (behaviour r args)) world

/-- What is converted is admitted and accepted. -/
def Converters.Keep (converters : Converters) (d : Discipline) : Prop :=
  ∀ stage heap value type result, d.Admits stage value →
    Heap.coerce heap converters value type = .ok result →
    d.Admits stage result ∧ d.Accepts heap result type

/-- The fields of the class are admitted and its methods keep the discipline. -/
structure ClassDef.Keeps (c : ClassDef) (d : Discipline) : Prop where
  field : ∀ name value, c.field? name = some value → ∀ stage, d.Admits stage value
  method : ∀ name function, c.method? name = some function → function.Keeps d

/-- What resolvers are given keeps the discipline. -/
structure Services.Keep (services : Services) (d : Discipline) : Prop where
  converters : services.converters.Keep d
  invoke : ∀ stage r args world, d.AdmitsAll stage args →
    d.Run stage d.Admits (services.invoke r args) world
  classAt : ∀ number, (services.classAt number).Keeps d
  behaviour : ∀ name behaviour, services.behaviours.find? name = some behaviour →
    Behaviour.Keeps behaviour d

/-- What the host has put into the context keeps the discipline. -/
structure Context.HostKeeps (context : Context) (d : Discipline) : Prop where
  converters : context.converters.Keep d
  constant : ∀ name value, context.bindings.find? name = some (.constant value) →
    ∀ stage, d.Admits stage value
  function : ∀ name function, context.functions.find? name = some function → function.Keeps d
  classAt : ∀ number, (context.classes.getD number default).Keeps d
  behaviour : ∀ name behaviour, context.behaviours.find? name = some behaviour →
    Behaviour.Keeps behaviour d

/-- The resolver keeps the discipline as long as what it is given does. -/
structure Resolver.Keeps (r : Resolver) (d : Discipline) : Prop where
  get : ∀ services : Services, services.Keep d → ∀ stage base property world,
    d.Admits stage base → d.Admits stage property →
    d.Run stage (fun stage' answer => answer.Each (d.Admits stage'))
      (r.get services base property) world
  type : ∀ services : Services, services.Keep d → ∀ stage base property world,
    d.Admits stage base → d.Admits stage property →
    d.Run stage Discipline.Any (r.type services base property) world
  set : ∀ services : Services, services.Keep d → ∀ stage base property value world,
    d.Admits stage base → d.Admits stage property → d.Admits stage value →
    d.Run stage Discipline.Any (r.set services base property value) world
  readOnly : ∀ services : Services, services.Keep d → ∀ stage base property world,
    d.Admits stage base → d.Admits stage property →
    d.Run stage Discipline.Any (r.readOnly services base property) world
  invoke : ∀ services : Services, services.Keep d → ∀ stage base method args world,
    d.Admits stage base → d.AdmitsAll stage args →
    d.Run stage (fun stage' answer => answer.Each (d.Admits stage'))
      (r.invoke services base method args) world

section Host

variable {d : Discipline} (h : d.Compositional) {converters : Converters}
  (hconverters : converters.Keep d) {stage : d.Stage} {world : World}

omit h in
include hconverters in
theorem HostFunction.convertArgs_admits (function : HostFunction) {heap : Heap}
    {args converted : List Value} (hargs : d.AdmitsAll stage args)
    (hconverted : function.convertArgs heap converters args = .ok converted) :
    d.AdmitsAll stage converted := by
  have hall : ∀ (pairs : List (Value × Nat)) (values : List Value),
      (∀ pair ∈ pairs, d.Admits stage pair.1) →
      pairs.mapM (fun pair =>
        heap.coerce converters pair.1 (function.paramType pair.2)) = .ok values →
      d.AdmitsAll stage values := by
    intro pairs values hpairs hvalues
    induction pairs generalizing values with
    | nil =>
        cases hvalues
        exact List.forall_mem_nil _
    | cons pair rest ih =>
        obtain ⟨hpair, hrest⟩ := List.forall_mem_cons.mp hpairs
        rw [List.mapM_cons] at hvalues
        cases hhead : heap.coerce converters pair.1 (function.paramType pair.2) with
        | error error =>
            simp only [hhead] at hvalues
            cases hvalues
        | ok value =>
            simp only [hhead] at hvalues
            obtain ⟨others, hothers, rfl⟩ := Heap.map_eq_ok hvalues
            have hvalue := hconverters stage heap _ _ _ hpair hhead
            exact List.forall_mem_cons.mpr ⟨hvalue.1, ih others hrest hothers⟩
  refine hall args.zipIdx converted ?_ hconverted
  intro pair hpair
  exact hargs pair.1 (List.fst_mem_of_mem_zipIdx hpair)

include h hconverters in
theorem HostFunction.Keeps.call {function : HostFunction} (hfunction : function.Keeps d)
    {args : List Value} (hargs : d.AdmitsAll stage args) :
    d.Run stage d.Admits (function.call converters args) world := by
  unfold HostFunction.call
  split
  · exact h.fail _
  · apply h.heapNow
    intro _
    have hconvert : d.Run stage d.AdmitsAll
        (.ofExcept (function.convertArgs world.heap converters args)) world :=
      h.ofExcept fun _ => function.convertArgs_admits hconverters hargs
    apply h.bind hconvert
    intro stage₁ converted w₁ _ hconverted _
    apply h.bind (hfunction stage₁ converted w₁ hconverted)
    intro stage₂ result w₂ _ hresult _
    apply h.heapNow
    intro _
    exact h.ofExcept fun answer hanswer =>
      (hconverters stage₂ w₂.heap result function.returns answer hresult hanswer).1

end Host

/-!
## Laws
-/

namespace Law

/-- The law as a discipline: there is one stage, at which every value is admitted. -/
def discipline (law : Law) : Discipline where
  Stage := Unit
  Later _ _ := True
  Admits _ _ := True
  Accepts _ _ _ := True
  Sound _ _ := True
  Run stage post action world :=
    law _ action world ∧ ∀ a after, action world = .ok a after → post stage a

variable {law : Law}

theorem Compositional.discipline (h : law.Compositional) : law.discipline.Compositional where
  refl _ := trivial
  trans _ _ := trivial
  later _ _ := trivial
  scalar _ := trivial
  sequence _ _ _ _ := trivial
  entries _ _ _ _ := ⟨trivial, trivial⟩
  property _ _ := trivial
  captured _ _ _ _ _ := trivial
  beans _ _ _ _ := trivial
  scopes _ _ := trivial
  pure := by
    intro α post stage a world hpost
    refine ⟨h.pure a world, ?_⟩
    intro a' after hrun
    cases hrun
    exact hpost
  throw := by
    intro α post stage failure world
    refine ⟨h.throw failure world, ?_⟩
    intro a after hrun
    cases hrun
  bind := by
    intro α β mid post stage action next world haction hnext
    refine ⟨h.bind haction.1 fun a after hrun => ?_, ?_⟩
    · exact (hnext stage a after trivial (haction.2 a after hrun) hrun).1
    · intro b last hrun
      simp only [Bind.bind, EStateM.bind] at hrun
      split at hrun
      · rename_i a after hfirst
        exact (hnext stage a after trivial (haction.2 a after hfirst) hfirst).2 b last hrun
      · cases hrun
  attempt := by
    intro α post stage action world haction
    refine ⟨h.attempt haction.1, ?_⟩
    rintro _ last hrun a rfl
    unfold Action.attempt at hrun
    split at hrun
    · rename_i hfirst
      cases hrun
      exact haction.2 a last hfirst
    · cases hrun
    · cases hrun
  withLayer := by
    intro α post stage layer action world _ haction
    refine ⟨h.withLayer layer haction.1, ?_⟩
    intro a last hrun
    unfold World.withLayer at hrun
    split at hrun
    · rename_i hfirst
      cases hrun
      exact haction.2 a _ hfirst
    · cases hrun
  view hscopes hask := ⟨h.view hscopes (hask trivial).1, (hask trivial).2⟩
  addSequence items _ := ⟨h.addSequence items _, fun _ _ _ => ⟨trivial, trivial⟩⟩
  addMap _ := ⟨h.addMap _ _, fun _ _ _ => trivial⟩
  addClosure _ := ⟨h.addClosure _ _, fun _ _ _ => trivial⟩

theorem stored_of_discipline {heap heap' : Heap} (h : law.discipline.Stored () heap heap') :
    heap.Stored heap' := by
  cases h with
  | element i => exact .element _ i _
  | arrayElement i => exact .element _ i _
  | entries r => exact .entries r _
  | property => exact .property _ _ _

theorem Storing.discipline (h : law.Storing) : law.discipline.Storing :=
  { h.toCompositional.discipline with
    define := fun name value world _ => ⟨h.define name value world, fun _ _ _ => trivial⟩
    changeHeap := fun hstored =>
      ⟨h.changeHeap (stored_of_discipline hstored), fun _ _ _ => trivial⟩ }

end Law

section Laws

variable {law : Law}

theorem HostFunction.keeps_discipline {function : HostFunction} :
    function.Keeps law.discipline ↔ function.Obeys law := by
  constructor
  · exact fun hkeeps args world => (hkeeps () args world fun _ _ => trivial).1
  · exact fun hobeys _ args world _ => ⟨hobeys args world, fun _ _ _ => trivial⟩

theorem ClassDef.keeps_discipline {c : ClassDef}
    (h : ∀ name function, c.method? name = some function → function.Obeys law) :
    c.Keeps law.discipline where
  field _ _ _ _ := trivial
  method name function hfunction := HostFunction.keeps_discipline.mpr (h name function hfunction)

theorem Services.keep_discipline {services : Services} :
    services.Keep law.discipline ↔ services.Obey law := by
  constructor
  · intro hkeep
    exact
      { invoke := fun r args world => (hkeep.invoke () r args world fun _ _ => trivial).1
        method := fun number name function hfunction =>
          HostFunction.keeps_discipline.mp ((hkeep.classAt number).method name function hfunction)
        behaviour := fun name behaviour hname r args world =>
          (hkeep.behaviour name behaviour hname () r args world trivial fun _ _ => trivial).1 }
  · intro hobey
    exact
      { converters := fun _ _ _ _ _ _ _ => ⟨trivial, trivial⟩
        invoke := fun _ r args world _ => ⟨hobey.invoke r args world, fun _ _ _ => trivial⟩
        classAt := fun number => ClassDef.keeps_discipline (hobey.method number)
        behaviour := fun name behaviour hname _ r args world _ _ =>
          ⟨hobey.behaviour name behaviour hname r args world, fun _ _ _ => trivial⟩ }

theorem Context.hostKeeps_discipline {context : Context} :
    context.HostKeeps law.discipline ↔ context.HostObeys law := by
  constructor
  · intro hkeeps
    exact
      { function := fun name function hname =>
          HostFunction.keeps_discipline.mp (hkeeps.function name function hname)
        method := fun number name function hfunction =>
          HostFunction.keeps_discipline.mp ((hkeeps.classAt number).method name function hfunction)
        behaviour := fun name behaviour hname r args world =>
          (hkeeps.behaviour name behaviour hname () r args world trivial fun _ _ => trivial).1 }
  · intro hobeys
    exact
      { converters := fun _ _ _ _ _ _ _ => ⟨trivial, trivial⟩
        constant := fun _ _ _ _ => trivial
        function := fun name function hname =>
          HostFunction.keeps_discipline.mpr (hobeys.function name function hname)
        classAt := fun number => ClassDef.keeps_discipline (hobeys.method number)
        behaviour := fun name behaviour hname _ r args world _ _ =>
          ⟨hobeys.behaviour name behaviour hname r args world, fun _ _ _ => trivial⟩ }

theorem Resolution.each_trivial {α : Type} {p : α → Prop} (h : ∀ a, p a)
    (answer : Resolution α) : answer.Each p := by
  cases answer with
  | resolved a => exact h a
  | unresolved => trivial

theorem Resolver.keeps_discipline {r : Resolver} : r.Keeps law.discipline ↔ r.Obeys law := by
  have heach (answer : Resolution Value) : answer.Each (law.discipline.Admits ()) :=
    Resolution.each_trivial (fun _ => trivial) answer
  constructor
  · intro hkeeps
    exact
      { get := fun services hservices base property world =>
          (hkeeps.get services (Services.keep_discipline.mpr hservices) () base property world
            trivial trivial).1
        type := fun services hservices base property world =>
          (hkeeps.type services (Services.keep_discipline.mpr hservices) () base property world
            trivial trivial).1
        set := fun services hservices base property value world =>
          (hkeeps.set services (Services.keep_discipline.mpr hservices) () base property value
            world trivial trivial trivial).1
        readOnly := fun services hservices base property world =>
          (hkeeps.readOnly services (Services.keep_discipline.mpr hservices) () base property
            world trivial trivial).1
        invoke := fun services hservices base method args world =>
          (hkeeps.invoke services (Services.keep_discipline.mpr hservices) () base method args
            world trivial fun _ _ => trivial).1 }
  · intro hobeys
    exact
      { get := fun services hservices _ base property world _ _ =>
          ⟨hobeys.get services (Services.keep_discipline.mp hservices) base property world,
            fun answer _ _ => heach answer⟩
        type := fun services hservices _ base property world _ _ =>
          ⟨hobeys.type services (Services.keep_discipline.mp hservices) base property world,
            fun _ _ _ => trivial⟩
        set := fun services hservices _ base property value world _ _ _ =>
          ⟨hobeys.set services (Services.keep_discipline.mp hservices) base property value world,
            fun _ _ _ => trivial⟩
        readOnly := fun services hservices _ base property world _ _ =>
          ⟨hobeys.readOnly services (Services.keep_discipline.mp hservices) base property world,
            fun _ _ _ => trivial⟩
        invoke := fun services hservices _ base method args world _ _ =>
          ⟨hobeys.invoke services (Services.keep_discipline.mp hservices) base method args world,
            fun answer _ _ => heach answer⟩ }

end Laws
end ExprLang
