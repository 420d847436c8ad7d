import Mathlib.Data.List.Forall2
import ExprLang.Proofs.Conversion.Projection
import ExprLang.Proofs.Evaluation.Library
import ExprLang.Proofs.Store.Standard

/-!
# Calls of host functions

The body of a host function runs on values that conform to the types of its parameters, or it does
not run.  A call is refused for the number of its arguments, or for the first of them that does not
convert.  The methods of the default classes look at no more arguments than they declare, so that
they find each of them.
-/

namespace ExprLang

/-- A traversal that may fail answers for every element, or it stops at the first that fails. -/
theorem mapM_cases {α β ε : Type} (f : α → Except ε β) (xs : List α) :
    (∃ ys, xs.mapM f = .ok ys ∧ List.Forall₂ (fun x y => f x = .ok y) xs ys) ∨
      ∃ before x after error, xs = before ++ x :: after ∧ (∀ y ∈ before, ∃ b, f y = .ok b) ∧
        f x = .error error ∧ xs.mapM f = .error error := by
  induction xs with
  | nil => exact .inl ⟨[], rfl, .nil⟩
  | cons x rest ih =>
      rw [List.mapM_cons]
      cases hx : f x with
      | error error => exact .inr ⟨[], x, rest, error, rfl, List.forall_mem_nil _, hx, rfl⟩
      | ok b =>
          rcases ih with ⟨ys, hrest, hys⟩ | ⟨before, y, after, error, rfl, hbefore, hy, hrest⟩
          · rw [hrest]
            exact .inl ⟨b :: ys, rfl, .cons hx hys⟩
          · rw [hrest]
            exact .inr ⟨x :: before, y, after, error, rfl,
              List.forall_mem_cons.mpr ⟨⟨b, hx⟩, hbefore⟩, hy, rfl⟩

namespace HostFunction

/-!
## Parameters
-/

/-- The type of a parameter for the argument at a position.  The last parameter of a variadic
function is there for all the arguments behind it. -/
inductive Declares (function : HostFunction) (position : Nat) (type : ValueType) : Prop
  | own : function.params[position]? = some type → Declares function position type
  | tail :
      function.variadic → function.params.length ≤ position →
      function.params.getLast? = some type → Declares function position type

variable {function : HostFunction} {position : Nat} {type : ValueType}

theorem paramType_of_declares (h : function.Declares position type) :
    function.paramType position = type := by
  unfold paramType
  cases h with
  | own htype => rw [htype]
  | tail hvariadic hlength htype =>
      rw [List.getElem?_eq_none hlength, if_pos hvariadic, htype]
      rfl

/-- Among as many arguments as the function accepts, each has a parameter if there are any. -/
theorem exists_declares {count : Nat} (haccepts : function.accepts count)
    (hparams : function.params ≠ []) (hposition : position < count) :
    ∃ type, function.Declares position type := by
  rcases Nat.lt_or_ge position function.params.length with hlt | hge
  · exact ⟨_, .own (List.getElem?_eq_getElem hlt)⟩
  · unfold accepts at haccepts
    split at haccepts
    · rename_i hvariadic
      exact ⟨_, .tail hvariadic hge (List.getLast?_eq_some_getLast hparams)⟩
    · rw [decide_eq_true_eq] at haccepts
      lia

/-!
## Arguments
-/

/-- The values are the arguments, each converted to the type for its position. -/
structure Converts (function : HostFunction) (heap : Heap) (args values : List Value) : Prop where
  length : values.length = args.length
  coerce : ∀ {position arg value}, args[position]? = some arg → values[position]? = some value →
    heap.coerce .empty arg (function.paramType position) = .ok value

/-- The error is that of the first argument that does not convert. -/
def Blames (function : HostFunction) (heap : Heap) (args : List Value) (error : EvalError) : Prop :=
  ∃ position arg, args[position]? = some arg ∧
    heap.coerce .empty arg (function.paramType position) = .error error ∧
    ∀ earlier < position, ∀ other, args[earlier]? = some other →
      ∃ value, heap.coerce .empty other (function.paramType earlier) = .ok value

variable {heap : Heap} {args values : List Value} {error : EvalError}

theorem zipIdx_getElem? {position : Nat} {arg : Value} (h : args[position]? = some arg) :
    args.zipIdx[position]? = some (arg, position) := by
  rw [List.getElem?_zipIdx, h, Option.map_some, Nat.zero_add]

theorem convertArgs_cases (function : HostFunction) (heap : Heap) (args : List Value) :
    (∃ values, function.convertArgs heap .empty args = .ok values ∧
        function.Converts heap args values) ∨
      ∃ error, function.convertArgs heap .empty args = .error error ∧
        function.Blames heap args error := by
  rcases mapM_cases (fun pair : Value × Nat =>
      heap.coerce .empty pair.1 (function.paramType pair.2)) args.zipIdx with
    ⟨values, hvalues, hconverts⟩ | ⟨before, pair, after, error, hargs, hbefore, hpair, herror⟩
  · have hlength : args.length = values.length := by simpa using hconverts.length_eq
    refine .inl ⟨values, hvalues, hlength.symm, ?_⟩
    intro position arg value harg hvalue
    obtain ⟨hleft, hpairAt⟩ := List.getElem?_eq_some_iff.mp (zipIdx_getElem? harg)
    obtain ⟨hright, hvalueAt⟩ := List.getElem?_eq_some_iff.mp hvalue
    have hcoerce := hconverts.get hleft hright
    rwa [List.get_eq_getElem, List.get_eq_getElem, hpairAt, hvalueAt] at hcoerce
  · have hfound : args.zipIdx[before.length]? = some pair := by
      rw [hargs]
      simp
    rw [List.getElem?_zipIdx, Nat.zero_add] at hfound
    obtain ⟨arg, harg, rfl⟩ := Option.map_eq_some_iff.mp hfound
    refine .inr ⟨error, herror, before.length, arg, harg, hpair, ?_⟩
    intro earlier hearlier other hother
    have hotherAt := zipIdx_getElem? hother
    rw [hargs, List.getElem?_append_left hearlier] at hotherAt
    exact hbefore _ (List.mem_of_getElem? hotherAt)

theorem Converts.unique {values' : List Value} (h : function.Converts heap args values)
    (h' : function.Converts heap args values') : values = values' := by
  refine List.ext_getElem (h.length.trans h'.length.symm) fun position hleft hright => ?_
  have harg := List.getElem?_eq_getElem (h.length ▸ hleft : position < args.length)
  have hvalue := h.coerce harg (List.getElem?_eq_getElem hleft)
  rw [h'.coerce harg (List.getElem?_eq_getElem hright)] at hvalue
  exact (Except.ok.inj hvalue).symm

theorem Converts.not_blames (h : function.Converts heap args values) :
    ¬ function.Blames heap args error := by
  rintro ⟨position, arg, harg, herror, -⟩
  obtain ⟨hlt, -⟩ := List.getElem?_eq_some_iff.mp harg
  have hvalue := h.coerce harg (List.getElem?_eq_getElem (h.length ▸ hlt))
  rw [herror] at hvalue
  cases hvalue

theorem convertArgs_eq_ok_iff :
    function.convertArgs heap .empty args = .ok values ↔ function.Converts heap args values := by
  constructor
  · intro hvalues
    rcases function.convertArgs_cases heap args with
      ⟨values', hvalues', hconverts⟩ | ⟨error, herror, -⟩
    · rw [hvalues] at hvalues'
      cases hvalues'
      exact hconverts
    · rw [hvalues] at herror
      cases herror
  · intro hconverts
    rcases function.convertArgs_cases heap args with
      ⟨values', hvalues', hconverts'⟩ | ⟨error, -, hblames⟩
    · rwa [hconverts.unique hconverts']
    · exact absurd hblames hconverts.not_blames

/-- Each value conforms to the type of its parameter. -/
theorem Converts.conforms (h : function.Converts heap args values) {position : Nat} {value : Value}
    (hvalue : values[position]? = some value) :
    heap.Conforms value (function.paramType position) := by
  obtain ⟨hlt, -⟩ := List.getElem?_eq_some_iff.mp hvalue
  exact Heap.conforms_of_coerce
    (h.coerce (List.getElem?_eq_getElem (h.length ▸ hlt : position < args.length)) hvalue)

/-!
## Calls
-/

/-- What a call answers, given what the body answered. -/
def conclude (function : HostFunction) (world : World) :
    EStateM.Result EvalError Heap Value → EStateM.Result Failure World Value
  | .ok result heap =>
    Action.ofExcept (heap.coerce .empty result function.returns) { world with heap }
  | .error error heap => .error (.error error) { world with heap }

/-- The call runs the body, whatever it does, on these values and converts its answer. -/
def RunsOn (function : HostFunction) (args : List Value) (world : World) (values : List Value) :
    Prop :=
  ∀ body, { function with body }.call .empty args world =
    function.conclude world (body values world.heap)

/-- The call fails with the error and leaves the world alone, whatever the body does. -/
def Refuses (function : HostFunction) (args : List Value) (world : World) (error : EvalError) :
    Prop :=
  ∀ body, { function with body }.call .empty args world = .error (.error error) world

variable {world : World}

theorem call_of_not_accepts (function : HostFunction) (h : ¬ function.accepts args.length) :
    function.call .empty args world =
      .error (.error (.of (.arityMismatch function.name function.params.length args.length)))
        world := by
  unfold call
  rw [if_pos (by simpa using h)]
  rfl

theorem call_of_error (function : HostFunction) (haccepts : function.accepts args.length)
    (herror : function.convertArgs world.heap .empty args = .error error) :
    function.call .empty args world = .error (.error error) world := by
  unfold call
  rw [if_neg (by simpa using haccepts)]
  have hheap : World.heapNow world = .ok world.heap world := rfl
  refine (Resolver.bind_of_ok hheap).trans (Resolver.bind_of_error ?_)
  rw [herror]
  rfl

theorem call_of_ok (function : HostFunction) (haccepts : function.accepts args.length)
    (hvalues : function.convertArgs world.heap .empty args = .ok values) :
    function.call .empty args world =
      function.conclude world (function.body values world.heap) := by
  unfold call
  rw [if_neg (by simpa using haccepts)]
  have hheap : World.heapNow world = .ok world.heap world := rfl
  have hconvert : Action.ofExcept (function.convertArgs world.heap .empty args) world =
      .ok values world := by
    rw [hvalues]
    rfl
  refine (Resolver.bind_of_ok hheap).trans ((Resolver.bind_of_ok hconvert).trans ?_)
  cases hrun : function.body values world.heap with
  | ok result heap =>
      have hbody : World.onHeap (function.body values) world = .ok result { world with heap } := by
        rw [World.onHeap, hrun]
      exact Resolver.bind_of_ok hbody
  | error error heap =>
      have hbody : World.onHeap (function.body values) world =
          .error (.error error) { world with heap } := by
        rw [World.onHeap, hrun]
      exact Resolver.bind_of_error hbody

/-- A call runs the body on the converted arguments, or it refuses them. -/
theorem runsOn_or_refuses (function : HostFunction) (args : List Value) (world : World) :
    (∃ values, function.accepts args.length ∧ function.Converts world.heap args values ∧
        function.RunsOn args world values) ∨
      ∃ error, function.Refuses args world error ∧
        if function.accepts args.length then function.Blames world.heap args error
        else error = .of (.arityMismatch function.name function.params.length args.length) := by
  by_cases haccepts : function.accepts args.length
  · rcases function.convertArgs_cases world.heap args with
      ⟨values, hvalues, hconverts⟩ | ⟨error, herror, hblames⟩
    · exact .inl ⟨values, haccepts, hconverts, fun body =>
        call_of_ok { function with body } haccepts hvalues⟩
    · refine .inr ⟨error, fun body => ?_, by rwa [if_pos haccepts]⟩
      exact call_of_error { function with body } haccepts herror
  · refine .inr ⟨_, fun body => ?_, by rw [if_neg haccepts]⟩
    exact call_of_not_accepts { function with body } haccepts

/-- Which values a body gets shows in the error that it fails with. -/
theorem RunsOn.throwing (h : function.RunsOn args world values) (choose : List Value → EvalError) :
    { function with body := fun given => throw (choose given) }.call .empty args world =
      .error (.error (choose values)) world :=
  h fun given => throw (choose given)

theorem RunsOn.not_refuses (h : function.RunsOn args world values) :
    ¬ function.Refuses args world error := by
  intro hrefuses
  have hrun := h.throwing fun _ => error.withNote ""
  rw [hrefuses] at hrun
  obtain ⟨hfailure, -⟩ := EStateM.Result.error.inj hrun
  have hnotes : error.notes = error.notes ++ [""] :=
    congrArg EvalError.notes (Failure.error.inj hfailure)
  simp at hnotes

theorem RunsOn.unique {values' : List Value} (h : function.RunsOn args world values)
    (h' : function.RunsOn args world values') : values = values' := by
  classical
  by_contra hne
  let choose (given : List Value) : EvalError :=
    .of (.custom (if given = values then "" else " "))
  have hrun := h.throwing choose
  rw [h'.throwing choose] at hrun
  simp [choose, Ne.symm hne, EvalError.of] at hrun

theorem runsOn_iff :
    function.RunsOn args world values ↔
      function.accepts args.length ∧ function.Converts world.heap args values := by
  constructor
  · intro hruns
    rcases function.runsOn_or_refuses args world with
      ⟨values', haccepts, hconverts, hruns'⟩ | ⟨error, hrefuses, -⟩
    · rw [hruns.unique hruns']
      exact ⟨haccepts, hconverts⟩
    · exact absurd hrefuses hruns.not_refuses
  · rintro ⟨haccepts, hconverts⟩
    have hvalues := convertArgs_eq_ok_iff.mpr hconverts
    exact fun body => call_of_ok { function with body } haccepts hvalues

theorem conforms_of_conclude {outcome : EStateM.Result EvalError Heap Value} {result : Value}
    {after : World} (h : function.conclude world outcome = .ok result after) :
    after.heap.Conforms result function.returns := by
  cases outcome with
  | error error heap => cases h
  | ok answer heap =>
      unfold conclude at h
      dsimp only at h
      cases hcoerce : heap.coerce .empty answer function.returns with
      | error error =>
          rw [hcoerce] at h
          cases h
      | ok converted =>
          rw [hcoerce] at h
          cases h
          exact Heap.conforms_of_coerce hcoerce

/-- A call runs the body exactly if the count of the arguments is accepted and each of them
converts.  The body gets one value for each argument, of the type of its parameter; a result is of
the type that the function returns; and without the body, the call is refused for the count or for
the first argument that does not convert. -/
structure ChecksCall (function : HostFunction) (args : List Value) (world : World) : Prop where
  runs : ∀ values, function.RunsOn args world values ↔
    function.accepts args.length ∧ function.Converts world.heap args values
  typed : ∀ values, function.RunsOn args world values →
    values.length = args.length ∧
      (function.params ≠ [] → ∀ position value, values[position]? = some value →
        ∃ type, function.Declares position type ∧ world.heap.Conforms value type)
  result : ∀ result after, function.call .empty args world = .ok result after →
    after.heap.Conforms result function.returns
  refused : (∀ values, ¬ function.RunsOn args world values) →
    ∃ error, function.Refuses args world error ∧
      if function.accepts args.length then function.Blames world.heap args error
      else error = .of (.arityMismatch function.name function.params.length args.length)

theorem checksCall (function : HostFunction) (args : List Value) (world : World) :
    function.ChecksCall args world := by
  constructor
  case runs => exact fun values => runsOn_iff
  case typed =>
    intro values hruns
    obtain ⟨haccepts, hconverts⟩ := runsOn_iff.mp hruns
    refine ⟨hconverts.length, fun hparams position value hvalue => ?_⟩
    obtain ⟨hlt, -⟩ := List.getElem?_eq_some_iff.mp hvalue
    obtain ⟨type, htype⟩ := exists_declares haccepts hparams (hconverts.length ▸ hlt)
    have hconforms := hconverts.conforms hvalue
    rw [paramType_of_declares htype] at hconforms
    exact ⟨type, htype, hconforms⟩
  case result =>
    intro result after hresult
    rcases function.runsOn_or_refuses args world with ⟨values, -, -, hruns⟩ | ⟨error, hrefuses, -⟩
    · rw [hruns function.body] at hresult
      exact conforms_of_conclude hresult
    · rw [hrefuses function.body] at hresult
      cases hresult
  case refused =>
    intro hnone
    rcases function.runsOn_or_refuses args world with ⟨values, -, -, hruns⟩ | hrefused
    · exact absurd hruns (hnone values)
    · exact hrefused

/-!
## The default classes
-/

/-- The function takes a fixed number of arguments, and its body looks at no more of them. -/
structure Bounded (function : HostFunction) : Prop where
  fixed : function.variadic = false
  body : ∀ values, function.body values = function.body (values.take function.params.length)

end HostFunction

/-- All methods of the class are bounded. -/
def ClassDef.Bounded (c : ClassDef) : Prop :=
  ∀ name function, c.method? name = some function → function.Bounded

namespace ClassDef.Bounded

variable {c : ClassDef}

theorem named (name : String) : (ClassDef.named name).Bounded := by
  intro method function hmethod
  simp [method?, ClassDef.named] at hmethod

theorem withField (hc : c.Bounded) (name : String) (value : Value) :
    (c.withField name value).Bounded := hc

theorem withMethod (hc : c.Bounded) {function : HostFunction} (hfunction : function.Bounded) :
    (c.withMethod function).Bounded := by
  intro name other hmethod
  rcases method?_withMethod hmethod with rfl | hrest
  · exact hfunction
  · exact hc name other hrest

end ClassDef.Bounded

namespace Library

theorem arg_take {position count : Nat} (h : position < count) (values : List Value) :
    arg (values.take count) position = arg values position := by
  simp only [arg, List.getD_eq_getElem?_getD, List.getElem?_take_of_lt h]

theorem reading_bounded {name : String} {params : List ValueType} {returns : ValueType}
    {body : Heap → List Value → Except EvalError Value}
    (h : ∀ heap values, body heap values = body heap (values.take params.length)) :
    (reading name params returns body).Bounded where
  fixed := rfl
  body values := by
    change (reading name params returns body).body values =
      (reading name params returns body).body (values.take params.length)
    simp only [reading, ← h]

theorem wrapper_bounded (kind : Primitive) (reader : String) (least greatest : Value) :
    (wrapper kind reader least greatest).Bounded := by
  iterate 2
    refine ClassDef.Bounded.withMethod ?_ (reading_bounded fun _ _ => by simp [arg_take])
  exact ((ClassDef.Bounded.named _).withField _ _).withField _ _

theorem booleanClass_bounded : booleanClass.Bounded := by
  iterate 2
    refine ClassDef.Bounded.withMethod ?_ (reading_bounded fun _ _ => by simp [arg_take])
  exact ((ClassDef.Bounded.named _).withField _ _).withField _ _

theorem characterClass_bounded : characterClass.Bounded := by
  iterate 5
    refine ClassDef.Bounded.withMethod ?_ (reading_bounded fun _ _ => by simp [arg_take])
  exact ((ClassDef.Bounded.named _).withField _ _).withField _ _

theorem mathClass_bounded : mathClass.Bounded := by
  iterate 9
    refine ClassDef.Bounded.withMethod ?_ (reading_bounded fun _ _ => by simp [arg_take])
  exact ((ClassDef.Bounded.named _).withField _ _).withField _ _

theorem stringClass_bounded : stringClass.Bounded :=
  (ClassDef.Bounded.named _).withMethod (reading_bounded fun _ _ => by simp [arg_take])

theorem classes_bounded (number : Nat) : (classes.getD number default).Bounded := by
  match number with
  | 0 => exact booleanClass_bounded
  | 1 => exact characterClass_bounded
  | 2 | 3 | 4 | 5 | 6 | 7 => exact wrapper_bounded _ _ _ _
  | 8 => exact mathClass_bounded
  | 9 => exact stringClass_bounded
  | _ + 10 => exact ClassDef.Bounded.named _

end Library
/-- A host function gets the arguments in the types that it declares, as many as there are, or its
body does not run.  A method of a default class looks at the arguments that it declares, and it gets
each of them whenever it runs. -/
theorem HostFunction.calls_checked :
    (∀ (function : HostFunction) (args : List Value) (world : World),
      function.ChecksCall args world) ∧
    ∀ number name function, (Library.classes.getD number default).method? name = some function →
      (∀ values, function.body values = function.body (values.take function.params.length)) ∧
        ∀ args world values, function.RunsOn args world values →
          values.length = function.params.length := by
  refine ⟨checksCall, fun number name function hmethod => ?_⟩
  obtain ⟨hfixed, hbody⟩ := Library.classes_bounded number name function hmethod
  refine ⟨hbody, fun args world values hruns => ?_⟩
  obtain ⟨haccepts, hconverts⟩ := runsOn_iff.mp hruns
  rw [accepts, if_neg (by simp [hfixed]), decide_eq_true_eq] at haccepts
  exact hconverts.length.trans haccepts

/-- A variadic function runs on its arguments and is refused without them, and a method of a default
class is given both of its arguments. -/
theorem HostFunction.calls_checked_variadic :
    let world : World := default
    let function : HostFunction :=
      ⟨"f", [.string, .primitive .int], true, .any, fun values => return values.headD .null⟩
    let args : List Value := [.string "x", .null, .int 4]
    (function.RunsOn args world [.string "x", .int 0, .int 4] ∧
      function.call .empty args world = .ok (.string "x") world ∧
      ∃ type, function.Declares 2 type ∧ world.heap.Conforms (.int 4) type) ∧
    ((∀ values, ¬ function.RunsOn [] world values) ∧
      ∃ error, function.Refuses [] world error) ∧
    ∃ max, (Library.classes.getD 8 default).method? "max" = some max ∧
      max.RunsOn [.int 4, .int 5] world [.int 4, .int 5] ∧ max.params.length = 2 := by
  intro world function args
  obtain ⟨hchecks, hlibrary⟩ := calls_checked
  have hruns : function.RunsOn args world [.string "x", .int 0, .int 4] :=
    ((hchecks function args world).runs _).mpr ⟨rfl, convertArgs_eq_ok_iff.mp rfl⟩
  have hnone : ∀ values, ¬ function.RunsOn [] world values := by
    intro values hruns
    have haccepts := (((hchecks function [] world).runs values).mp hruns).1
    cases haccepts
  obtain ⟨error, hrefuses, -⟩ := (hchecks function [] world).refused hnone
  have htyped := ((hchecks function args world).typed _ hruns).2 (List.cons_ne_nil _ _) 2 _ rfl
  obtain ⟨max, hmax, hrunsMax⟩ : ∃ max,
      (Library.classes.getD 8 default).method? "max" = some max ∧
        max.RunsOn [.int 4, .int 5] world [.int 4, .int 5] :=
    ⟨_, rfl, ((hchecks _ _ world).runs _).mpr ⟨rfl, convertArgs_eq_ok_iff.mp rfl⟩⟩
  have hcount := (hlibrary 8 "max" max hmax).2 _ _ _ hrunsMax
  exact ⟨⟨hruns, hruns function.body, htyped⟩, ⟨hnone, error, hrefuses⟩,
    max, hmax, hrunsMax, hcount.symm⟩

end ExprLang
