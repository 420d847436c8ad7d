import ExprLang.Proofs.Collection.Methods
import ExprLang.Proofs.Equality.Growth

/-!
# Lambdas on a snapshot of the elements

A method of collections that takes a lambda looks up the elements once and then asks the lambda
about them, one after the other.  Each application may change the world, the collection itself
included, and the next one sees the changes; but what is asked is settled by the elements of the
first world and by the answers so far.  What such a method asks and makes of the answers is a
survey, and a call of the method follows a course of the questions of its survey.
-/

namespace ExprLang

open Collection (Lambda)

variable {α β : Type}

/-!
## Courses of questions
-/

/-- Questions asked one after the other, each in the world that the one before has left: what was
answered, and how it ended.  Nothing is asked after an error or a deciding answer. -/
inductive Course (ask : List Value → Action β) (decides : β → Prop) :
    World → List (List Value) → List β → EStateM.Result Failure World Unit → Prop
  | done {world : World} : Course ask decides world [] [] (.ok () world)
  | failed {world last : World} {question : List Value} {rest : List (List Value)}
      {failure : Failure} :
      ask question world = .error failure last →
      Course ask decides world (question :: rest) [] (.error failure last)
  | decided {world last : World} {question : List Value} {rest : List (List Value)} {answer : β} :
      ask question world = .ok answer last → decides answer →
      Course ask decides world (question :: rest) [answer] (.ok () last)
  | answered {world next : World} {question : List Value} {rest : List (List Value)} {answer : β}
      {answers : List β} {ending : EStateM.Result Failure World Unit} :
      ask question world = .ok answer next → ¬ decides answer →
      Course ask decides next rest answers ending →
      Course ask decides world (question :: rest) (answer :: answers) ending

/-- What follows the questions if they end without an error. -/
def conclude (ending : EStateM.Result Failure World Unit) (finish : Action α) :
    EStateM.Result Failure World α :=
  match ending with
  | .ok _ last => finish last
  | .error failure last => .error failure last

theorem bind_of_conclude {action : Action α} {a : α} {world : World}
    {ending : EStateM.Result Failure World Unit} (h : action world = conclude ending (pure a))
    (next : α → Action β) : (action >>= next) world = conclude ending (next a) := by
  cases ending with
  | ok _ last => exact Resolver.bind_of_ok h
  | error failure last => exact Resolver.bind_of_error h

namespace Course

variable {ask : List Value → Action β} {decides : β → Prop} {world : World}
  {questions : List (List Value)} {answers : List β} {ending : EStateM.Result Failure World Unit}

theorem answers_eq_nil (h : Course ask decides world [] answers ending) : answers = [] := by
  cases h
  rfl

/-- What every question keeps of the world is kept to the end. -/
theorem invariant (holds : World → Prop)
    (hask : ∀ question start, holds start → holds (finalState (ask question start)))
    (h : Course ask decides world questions answers ending) (hstart : holds world) :
    holds (finalState ending) := by
  induction h with
  | done => exact hstart
  | @failed world last question _ _ hrun | @decided world last question _ _ hrun =>
      have hlast := hask question world hstart
      rw [hrun] at hlast
      exact hlast
  | @answered world next question _ _ _ _ hrun _ _ ih =>
      have hnext := hask question world hstart
      rw [hrun] at hnext
      exact ih hnext

end Course

/-!
## Surveys
-/

/-- What a method asks a lambda, given the answers so far; how it reads the results as answers, and
which of them are deciding; and what it makes of the answers in the end. -/
structure Survey (β : Type) where
  questions : List β → List (List Value)
  judge : Heap → Value → Except EvalError β
  decides : β → Prop
  finish : List β → Action Value

namespace Survey

def ask (survey : Survey β) (lambda : Lambda) (question : List Value) : Action β := do
  let result ← lambda question
  .ofExcept (survey.judge (← World.heapNow) result)

/-- A new list of the elements of which the predicate is true. -/
def filter (items : List Value) : Survey Bool where
  questions _ := items.map ([·])
  judge := Heap.toBool
  decides _ := False
  finish truths := World.newList (((items.zip truths).filter (·.2)).map (·.1))

/-- A new list of the results. -/
def map (items : List Value) : Survey Value where
  questions _ := items.map ([·])
  judge _ result := .ok result
  decides _ := False
  finish := World.newList

def forEach (items : List Value) : Survey Value :=
  { map items with finish := fun _ => return .null }

/-- The last result, where each result is combined with the next element. -/
def reduce (identity : Value) (items : List Value) : Survey Value where
  questions results := List.zipWith (fun acc item => [acc, item]) (identity :: results) items
  judge _ result := .ok result
  decides _ := False
  finish results := return results.getLastD identity

def anyMatch (items : List Value) : Survey Bool :=
  { filter items with
    decides := (· = true)
    finish := fun truths => return .bool (truths.any id) }

def allMatch (items : List Value) : Survey Bool :=
  { filter items with
    decides := (· = false)
    finish := fun truths => return .bool (truths.all id) }

end Survey

/-- The second world is the first one with new objects. -/
structure World.OnlyAdds (before after : World) : Prop where
  heap : before.heap.Extends after.heap
  beans : after.beans = before.beans
  scopes : after.scopes = before.scopes

namespace Survey

variable {survey : Survey β} {lambda : Lambda} {base : Value} {items : List Value}
  {call : Action Value} {world : World}

/-- The call of a method on the elements of a collection follows a course of the questions of a
survey, and after the last question nothing but new objects are added.  The collection keeps its
elements unless the lambda changes them. -/
structure Conducts (survey : Survey β) (lambda : Lambda) (base : Value) (items : List Value)
    (call : Action Value) (world : World) : Prop where
  course : ∃ answers ending,
    Course (survey.ask lambda) survey.decides world (survey.questions answers) answers ending ∧
      call world = conclude ending (survey.finish answers) ∧
      (finalState ending).OnlyAdds (finalState (call world))
  keeps_items :
    (∀ question start, start.heap.items? base = some items →
      (finalState (lambda question start)).heap.items? base = some items) →
    (finalState (call world)).heap.items? base = some items

/-- Reading a result changes nothing. -/
theorem finalState_ask (question : List Value) (start : World) :
    finalState (survey.ask lambda question start) = finalState (lambda question start) := by
  cases hrun : lambda question start with
  | error failure last =>
      rw [ask, Resolver.bind_of_error hrun]
      rfl
  | ok result last =>
      rw [ask, Resolver.bind_of_ok hrun, World.heapNow_bind]
      cases survey.judge last.heap result <;> rfl

theorem ask_value (lambda : Lambda) (survey : Survey Value)
    (hjudge : survey.judge = fun _ result => .ok result) : survey.ask lambda = lambda := by
  funext question start
  cases hrun : lambda question start with
  | error failure last => exact Resolver.bind_of_error hrun
  | ok result last =>
      rw [ask, Resolver.bind_of_ok hrun, World.heapNow_bind, hjudge]
      rfl

theorem Conducts.congr {call' : Action Value}
    (h : survey.Conducts lambda base items call world) (heq : call' world = call world) :
    survey.Conducts lambda base items call' world where
  course := by
    rw [heq]
    exact h.course
  keeps_items := by
    rw [heq]
    exact h.keeps_items

/-- The survey ends with a value that needs no new object, or with a new list, which has no
elements if the collection has none. -/
theorem Conducts.of_course {answers : List β} {ending : EStateM.Result Failure World Unit}
    (hitems : world.heap.items? base = some items)
    (hcourse : Course (survey.ask lambda) survey.decides world (survey.questions answers) answers
      ending)
    (hcall : call world = conclude ending (survey.finish answers))
    (hfinish : (∃ value, survey.finish answers = pure value) ∨
      ∃ added, survey.finish answers = World.newList added ∧ (items = [] → added = [])) :
    survey.Conducts lambda base items call world := by
  have hkept (hlambda : ∀ question start, start.heap.items? base = some items →
      (finalState (lambda question start)).heap.items? base = some items) :
      (finalState ending).heap.items? base = some items := by
    refine hcourse.invariant (fun start => start.heap.items? base = some items) ?_ hitems
    intro question start hstart
    rw [finalState_ask]
    exact hlambda question start hstart
  have hsame (hlast : finalState (call world) = finalState ending) :
      survey.Conducts lambda base items call world := by
    refine ⟨⟨answers, ending, hcourse, hcall, ?_⟩, fun hlambda => ?_⟩
    · rw [hlast]
      exact ⟨.refl _, rfl, rfl⟩
    · rw [hlast]
      exact hkept hlambda
  cases ending with
  | error failure last =>
      apply hsame
      rw [hcall]
      rfl
  | ok _ last =>
      rcases hfinish with ⟨value, hvalue⟩ | ⟨added, hadded, hnil⟩
      · apply hsame
        rw [hcall, hvalue]
        rfl
      · have hlast : finalState (call world) =
            { last with heap := (last.heap.addSequence added).2 } := by
          rw [hcall, hadded]
          rfl
        refine ⟨⟨answers, _, hcourse, hcall, ?_⟩, fun hlambda => ?_⟩
        · rw [hlast]
          exact ⟨last.heap.extends_addSequence added, rfl, rfl⟩
        · rw [hlast]
          exact Heap.items?_addSequence (hkept hlambda) hnil

end Survey

/-!
## Recursions over the elements
-/

section Recursions

/-- A recursion that asks about each element in turn follows a course of these questions.  The
induction is on the elements that are left. -/
theorem exists_course_each (run : List Value → Action α) (ask : List Value → Action β)
    (decides : β → Prop) [DecidablePred decides] (result : List Value → List β → α)
    (extend : Value → β → α → α) (hnil : run [] = pure (result [] []))
    (hcons : ∀ item rest, run (item :: rest) = ask [item] >>= fun answer =>
      if decides answer then pure (result (item :: rest) [answer])
      else extend item answer <$> run rest)
    (hresult : ∀ item rest answer answers, ¬ decides answer →
      result (item :: rest) (answer :: answers) = extend item answer (result rest answers))
    (items : List Value) (world : World) : ∃ answers ending,
      Course ask decides world (items.map ([·])) answers ending ∧
        run items world = conclude ending (pure (result items answers)) := by
  induction items generalizing world with
  | nil => exact ⟨[], _, .done, congrFun hnil world⟩
  | cons item rest ih =>
      rw [hcons]
      cases hask : ask [item] world with
      | error failure last => exact ⟨[], _, .failed hask, Resolver.bind_of_error hask⟩
      | ok answer next =>
          rw [Resolver.bind_of_ok hask]
          by_cases hdecides : decides answer
          · refine ⟨[answer], _, .decided hask hdecides, ?_⟩
            rw [if_pos hdecides]
            rfl
          · obtain ⟨answers, ending, hcourse, hrun⟩ := ih next
            refine ⟨answer :: answers, ending, .answered hask hdecides hcourse, ?_⟩
            rw [if_neg hdecides, hresult item rest answer answers hdecides, map_eq_pure_bind]
            exact bind_of_conclude hrun _

namespace Collection

variable (lambda : Lambda) (items : List Value) (world : World)

/-- The truth that a lambda answers of its arguments. -/
def truthOf (lambda : Lambda) (args : List Value) : Action Bool := do World.truth (← lambda args)

theorem filtered_course : ∃ truths ending,
    Course (truthOf lambda) (fun _ => False) world (items.map ([·])) truths ending ∧
      filtered lambda items world =
        conclude ending (pure (((items.zip truths).filter (·.2)).map (·.1))) := by
  refine exists_course_each (filtered lambda) (truthOf lambda) (fun _ => False)
    (fun items truths => ((items.zip truths).filter (·.2)).map (·.1))
    (fun item keep kept => if keep then item :: kept else kept) rfl ?_ ?_ items world
  · intro item rest
    simp only [filtered, truthOf, bind_assoc, if_false, map_eq_pure_bind]
  · intro item rest keep truths _
    cases keep <;> rfl

theorem mapped_course : ∃ results ending,
    Course lambda (fun _ => False) world (items.map ([·])) results ending ∧
      mapped lambda items world = conclude ending (pure results) := by
  refine exists_course_each (mapped lambda) lambda (fun _ => False) (fun _ results => results)
    (fun _ image images => image :: images) rfl ?_ (fun _ _ _ _ _ => rfl) items world
  intro item rest
  simp only [mapped, if_false, map_eq_pure_bind]

theorem someIs_course (wanted : Bool) : ∃ truths ending,
    Course (truthOf lambda) (· = wanted) world (items.map ([·])) truths ending ∧
      someIs wanted lambda items world = conclude ending (pure (truths.any (· == wanted))) := by
  refine exists_course_each (someIs wanted lambda) (truthOf lambda) (· = wanted)
    (fun _ truths => truths.any (· == wanted)) (fun _ _ found => found) rfl ?_ ?_ items world
  · intro item rest
    simp only [someIs, truthOf, bind_assoc]
    refine bind_congr fun result => bind_congr fun truth => ?_
    by_cases htruth : truth = wanted <;> simp [htruth]
  · intro item rest truth truths htruth
    rw [List.any_cons, beq_eq_false_iff_ne.mpr htruth, Bool.false_or]

/-- What is asked depends on the answers: a result is combined with the next element. -/
theorem folded_course (acc : Value) : ∃ results ending,
    Course lambda (fun _ => False) world
        (List.zipWith (fun acc item => [acc, item]) (acc :: results) items) results ending ∧
      folded lambda acc items world = conclude ending (pure (results.getLastD acc)) := by
  induction items generalizing acc world with
  | nil => exact ⟨[], _, .done, rfl⟩
  | cons item rest ih =>
      rw [folded]
      cases hask : lambda [acc, item] world with
      | error failure last => exact ⟨[], _, .failed hask, Resolver.bind_of_error hask⟩
      | ok result next =>
          obtain ⟨results, ending, hcourse, hrun⟩ := ih next result
          refine ⟨result :: results, ending, .answered hask not_false hcourse, ?_⟩
          rw [Resolver.bind_of_ok hask, hrun, List.getLastD_cons]

end Collection
end Recursions

/-!
## The methods
-/

namespace Collection

variable {services : Services} {base : Value} {items : List Value} {world : World}

section Conducts

variable (services) (r : Ref) (name : String) (hitems : world.heap.items? base = some items)

include hitems

theorem filter_conducts : (Survey.filter items).Conducts (services.invoke r) base items
    (run services .filter name items [.lambda r]) world := by
  obtain ⟨truths, ending, hcourse, hrun⟩ := filtered_course (services.invoke r) items world
  refine .of_course hitems hcourse (bind_of_conclude hrun _) (.inr ⟨_, rfl, ?_⟩)
  rintro rfl
  rfl

theorem map_conducts : (Survey.map items).Conducts (services.invoke r) base items
    (run services .map name items [.lambda r]) world := by
  obtain ⟨results, ending, hcourse, hrun⟩ := mapped_course (services.invoke r) items world
  rw [← Survey.ask_value (services.invoke r) (.map items) rfl] at hcourse
  refine .of_course hitems hcourse (bind_of_conclude hrun _) (.inr ⟨results, rfl, ?_⟩)
  rintro rfl
  exact hcourse.answers_eq_nil

theorem forEach_conducts : (Survey.forEach items).Conducts (services.invoke r) base items
    (run services .forEach name items [.lambda r]) world := by
  obtain ⟨results, ending, hcourse, hrun⟩ := mapped_course (services.invoke r) items world
  rw [← Survey.ask_value (services.invoke r) (.forEach items) rfl] at hcourse
  exact .of_course hitems hcourse (bind_of_conclude hrun _) (.inl ⟨_, rfl⟩)

theorem reduce_conducts (identity : Value) :
    (Survey.reduce identity items).Conducts (services.invoke r) base items
      (run services .reduce name items [identity, .lambda r]) world := by
  obtain ⟨results, ending, hcourse, hrun⟩ :=
    folded_course (services.invoke r) items world identity
  rw [← Survey.ask_value (services.invoke r) (.reduce identity items) rfl] at hcourse
  exact .of_course hitems hcourse hrun (.inl ⟨_, rfl⟩)

/-- Without an initial value the first element is one. -/
theorem reduce_head_conducts :
    (Survey.reduce (items.headD .null) items.tail).Conducts (services.invoke r) base items
      (run services .reduce name items [.lambda r]) world := by
  obtain ⟨results, ending, hcourse, hrun⟩ :=
    folded_course (services.invoke r) items.tail world (items.headD .null)
  rw [← Survey.ask_value (services.invoke r) (.reduce (items.headD .null) items.tail) rfl]
    at hcourse
  refine .of_course hitems hcourse ?_ (.inl ⟨_, rfl⟩)
  cases items <;> exact hrun

theorem anyMatch_conducts : (Survey.anyMatch items).Conducts (services.invoke r) base items
    (run services .anyMatch name items [.lambda r]) world := by
  obtain ⟨truths, ending, hcourse, hrun⟩ := someIs_course (services.invoke r) items world true
  have htrue : (· == true) = (id : Bool → Bool) := by
    funext truth
    cases truth <;> rfl
  rw [htrue] at hrun
  exact .of_course hitems hcourse (bind_of_conclude hrun _) (.inl ⟨_, rfl⟩)

theorem allMatch_conducts : (Survey.allMatch items).Conducts (services.invoke r) base items
    (run services .allMatch name items [.lambda r]) world := by
  obtain ⟨truths, ending, hcourse, hrun⟩ := someIs_course (services.invoke r) items world false
  have htrue : (fun truth => !(truth == false)) = (id : Bool → Bool) := by
    funext truth
    cases truth <;> rfl
  have hfinish : (Survey.allMatch items).finish truths =
      pure (.bool (!truths.any (· == false))) := by
    rw [List.not_any_eq_all_not, htrue]
    rfl
  refine .of_course hitems hcourse ?_ (.inl ⟨_, rfl⟩)
  rw [hfinish]
  exact bind_of_conclude hrun _

end Conducts
end Collection

namespace Evaluation

open Resolver

variable {context : Context} {options : ResolverOptions}

/-- The methods that take a lambda ask it about the elements that the collection held when they
were called, in order and each at most once, up to the first error or the first deciding answer.
They answer the filter, map, fold or quantifier of these elements and the answers, and change
nothing themselves. -/
theorem methods_work_on_snapshot (hresolver : context.resolver = chain (standard options))
    (deeper : Deeper) {world : World} {base : Value} {items : List Value}
    (hitems : world.heap.items? base = some items) (r : Ref) :
    let conducts {β : Type} (survey : Survey β) (name : String) (args : List Value) : Prop :=
      survey.Conducts (apply deeper r) base items (invokeMethod context deeper base name args) world
    conducts (.filter items) "filter" [.lambda r] ∧ conducts (.map items) "map" [.lambda r] ∧
      conducts (.forEach items) "forEach" [.lambda r] ∧
      (∀ identity, conducts (.reduce identity items) "reduce" [identity, .lambda r]) ∧
      conducts (.reduce (items.headD .null) items.tail) "reduce" [.lambda r] ∧
      conducts (.anyMatch items) "anyMatch" [.lambda r] ∧
      conducts (.allMatch items) "allMatch" [.lambda r] := by
  intro conducts
  let called := services context deeper
  have hcall {β : Type} {survey : Survey β} {method : CollectionMethod} {name : String}
      {args : List Value} (hname : CollectionMethod.ofName? name = some method)
      (hleast : method.arity.1 ≤ args.length) (hgreatest : args.length ≤ method.arity.2)
      (hrun : survey.Conducts (apply deeper r) base items
        (Collection.run called method name items args) world) :
      conducts survey name args :=
    hrun.congr (invokeMethod_collection hresolver hitems hname hleast hgreatest)
  refine ⟨?filter, ?map, ?forEach, ?reduce, ?reduce_head, ?anyMatch, ?allMatch⟩
  case filter => exact hcall rfl le_rfl le_rfl (Collection.filter_conducts called r _ hitems)
  case map => exact hcall rfl le_rfl le_rfl (Collection.map_conducts called r _ hitems)
  case forEach => exact hcall rfl le_rfl le_rfl (Collection.forEach_conducts called r _ hitems)
  case reduce =>
    exact fun identity => hcall rfl (Nat.le_succ 1) le_rfl
      (Collection.reduce_conducts called r _ hitems identity)
  case reduce_head =>
    exact hcall rfl le_rfl (Nat.le_succ 1) (Collection.reduce_head_conducts called r _ hitems)
  case anyMatch => exact hcall rfl le_rfl le_rfl (Collection.anyMatch_conducts called r _ hitems)
  case allMatch => exact hcall rfl le_rfl le_rfl (Collection.allMatch_conducts called r _ hitems)

/-- The lambda writes the double of its argument to the last element.  The call still asks about the
last element as it was at first, and the list ends up with what the lambda has written last. -/
theorem map_doubles_in_place :
    let context := Context.standard {}
    let double : Closure :=
      ⟨["x"], .assign (.index (.ident "xs") (.int 2)) (.binary .add (.ident "x") (.ident "x")),
        .empty⟩
    let holding (lists : Array (List Value)) : World :=
      { (default : World) with heap := ⟨lists, #[], #[], #[double]⟩ }.define "xs" (.list 0)
    let items : List Value := [.long 1, .long 2, .long 3]
    let call : Action Value :=
      invokeMethod context (within context 1) (.list 0) "map" [.lambda 0]
    call (holding #[items]) =
        .ok (.list 1) (holding #[[.long 1, .long 2, .long 6], [.long 2, .long 4, .long 6]]) ∧
      (Survey.map items).Conducts (apply (within context 1) 0) (.list 0) items call
        (holding #[items]) := by
  intro context double holding items call
  have hresolver : context.resolver = chain (standard {}) := rfl
  have hitems : (holding #[items]).heap.items? (.list 0) = some items := rfl
  exact ⟨rfl, (methods_work_on_snapshot hresolver (within context 1) hitems 0).2.1⟩

end Evaluation
end ExprLang
