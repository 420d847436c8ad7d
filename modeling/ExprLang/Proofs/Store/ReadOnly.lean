import ExprLang.Proofs.Conversion.Failure
import ExprLang.Proofs.Evaluation.Target
import ExprLang.Proofs.Store.NullBase
import ExprLang.Proofs.Store.Standard

/-!
# Read-only checks foretell stores

Each standard resolver refuses a store for want of permission exactly where its check says so,
and a refused store changes nothing.  A store that the check lets pass may still fail, because
the value does not convert or because there is no such element.
-/

namespace ExprLang

/-- The store has to look into the map that it has locked, and never ends. -/
def Target.Waits (value : Value) (world : World) : Target → Prop
  | .member (.map r) key =>
    Assoc.insert? (world.heap.equalBeside? r) key value (world.heap.entries r) = none
  | _ => False

/-- The results of a store from `world` that a check foretells: refused for want of permission
if the check answers that the target is read-only, and otherwise anything but that.  A store
that fails changes nothing. -/
inductive Foretold {α : Type} (done : α) (world : World) (waits : Prop) :
    Bool → EStateM.Result Failure World α → Prop
  | refused {error : EvalError} : error.category = .propertyNotWritable →
      Foretold done world waits true (.error (.error error) world)
  | stored (last : World) : Foretold done world waits false (.ok done last)
  | unfit {error : EvalError} :
      error.category = .cannotConvert ∨ error.category = .propertyNotFound →
      Foretold done world waits false (.error (.error error) world)
  | waiting : waits → Foretold done world waits false (.error .tooDeep world)

namespace Resolver

variable {options : ResolverOptions} {services : Services} {key value : Value}
  {before after : World} {answer : Bool}

/-!
## The resolver of each base
-/

/-- What a resolver answers about a property foretells a store in it. -/
def Foretells (r : Resolver) (services : Services) (base key value : Value) (before : World) :
    Prop :=
  ∀ answer after, r.readOnly services base key before = .ok (.resolved answer) after →
    after = before ∧
      Foretold (.resolved ()) before ((Target.member base key).Waits value before) answer
        (r.set services base key value before)

theorem names_foretell : (names options).Foretells services .null key value before := by
  intro answer after hask
  have hreadOnly : (names options).readOnly services .null key before =
      .ok (if (bean? before .null key).isSome then .resolved options.readOnly else .unresolved)
        before := by
    change (if (bean? before .null key).isSome then _ else _ : Action (Resolution Bool)) before = _
    cases (bean? before .null key).isSome <;> rfl
  rw [hreadOnly] at hask
  cases hbean : bean? before .null key with
  | none =>
      rw [hbean] at hask
      cases hask
  | some bean =>
      rw [hbean] at hask
      cases hask
      cases key with
      | string name =>
          have hcontains : mayDefine options before name = true := by
            have hfound : before.beans.find? name = some bean := hbean
            simp [mayDefine, Table.contains, hfound]
          rw [names_set_string, if_pos hcontains]
          refine ⟨rfl, ?_⟩
          cases options.readOnly with
          | true => exact .refused rfl
          | false => exact .stored _
      | _ => cases hbean

theorem classMembers_foretell {name : String} {number : Nat} :
    classMembers.Foretells services (.classRef name number) key value before := by
  intro answer after hask
  cases hask
  exact ⟨rfl, .refused rfl⟩

theorem mapEntries_foretell {readOnly : Bool} {r : Ref} :
    (mapEntries readOnly).Foretells services (.map r) key value before := by
  intro answer after hask
  cases hask
  refine ⟨rfl, ?_⟩
  rw [mapEntries_set]
  cases readOnly with
  | true => exact .refused rfl
  | false =>
      rw [if_neg Bool.false_ne_true]
      cases hinsert : Assoc.insert? (before.heap.equalBeside? r) key value
          (before.heap.entries r) with
      | none => exact .waiting hinsert
      | some entries => exact .stored _

/-- A store at a position succeeds or finds no element there. -/
theorem storeAt_foretold (typeName : String) (r : Ref) (position : Int64) (waits : Prop) :
    Foretold (Resolution.resolved ()) before waits false
      ((do return .resolved (← storeAt typeName r position value) : Action (Resolution Unit))
        before) := by
  have hstore := storeAt_eq typeName r position value before
  cases hwithin : within? position (before.heap.sequence r).length with
  | none =>
      rw [hwithin] at hstore
      rw [bind_of_error hstore]
      exact .unfit (Or.inr rfl)
  | some i =>
      rw [hwithin] at hstore
      rw [bind_of_ok hstore]
      exact .stored _

theorem positionIn_foretold {typeName : String} {waits : Prop}
    {next : Int64 → Action (Resolution Unit)}
    (hnext : ∀ position, Foretold (Resolution.resolved ()) before waits false
      (next position before)) :
    Foretold (Resolution.resolved ()) before waits false
      ((positionIn typeName key >>= next) before) := by
  have hposition := positionIn_eq typeName key before
  cases hfound : before.heap.position key with
  | error error =>
      rw [hfound] at hposition
      rw [bind_of_error hposition]
      exact .unfit (Or.inr rfl)
  | ok position =>
      rw [hfound] at hposition
      rw [bind_of_ok hposition]
      exact hnext position

theorem listElements_foretell {readOnly : Bool} {r : Ref} :
    (listElements readOnly).Foretells services (.list r) key value before := by
  intro answer after hask
  cases hask
  refine ⟨rfl, ?_⟩
  cases readOnly with
  | true => exact .refused rfl
  | false => exact positionIn_foretold fun position => storeAt_foretold "List" r position _

theorem arrayElements_foretell (hconverters : services.converters = .empty) {readOnly : Bool}
    {component : ValueType} {r : Ref} :
    (arrayElements readOnly).Foretells services (.array component r) key value before := by
  intro answer after hask
  cases hask
  refine ⟨rfl, ?_⟩
  rw [arrayElements_set]
  cases readOnly || isLength key with
  | true => exact .refused rfl
  | false =>
      apply positionIn_foretold
      intro position
      have hcoerce := coerce_eq services value component before
      cases hconverted : before.heap.coerce services.converters value component with
      | error error =>
          rw [hconverted] at hcoerce
          rw [hconverters] at hconverted
          rw [bind_of_error hcoerce]
          exact .unfit (Or.inl (FailsToConvert.coerce component error hconverted))
      | ok w =>
          rw [hconverted] at hcoerce
          rw [bind_of_ok hcoerce]
          exact storeAt_foretold "Array" r position _

theorem beanProperties_foretell (hconverters : services.converters = .empty) {readOnly : Bool}
    {r : Ref} : (beanProperties readOnly).Foretells services (.bean r) key value before := by
  intro answer after hask
  have hplace := beanProperty_eq r key before
  cases hp : (before.heap.object r).property? (before.heap.text key) with
  | none =>
      rw [hp] at hplace
      have hmissing : (beanProperties readOnly).readOnly services (.bean r) key before = _ :=
        bind_of_error hplace
      rw [hmissing] at hask
      cases hask
  | some p =>
      rw [hp] at hplace
      have hanswer : (beanProperties readOnly).readOnly services (.bean r) key before =
          .ok (.resolved (readOnly || p.readOnly)) before := bind_of_ok hplace
      rw [hanswer] at hask
      cases hask
      refine ⟨rfl, ?_⟩
      rw [beanProperties_set hp]
      cases readOnly || p.readOnly with
      | true => exact .refused rfl
      | false =>
          rw [if_neg Bool.false_ne_true]
          cases hcoerce : before.heap.coerce services.converters value p.type with
          | error error =>
              rw [hconverters] at hcoerce
              exact .unfit (Or.inl (FailsToConvert.coerce p.type error hcoerce))
          | ok w => exact .stored _

theorem handler_foretells (hconverters : services.converters = .empty) (base : Value) :
    (handler options base).Foretells services base key value before := by
  cases base with
  | null => exact names_foretell
  | classRef => exact classMembers_foretell
  | map => exact mapEntries_foretell
  | list => exact listElements_foretell
  | array => exact arrayElements_foretell hconverters
  | bean => exact beanProperties_foretell hconverters
  | _ =>
      intro answer after hask
      cases hask

end Resolver

namespace Evaluation

open Resolver

variable {context : Context} {deeper : Deeper} {options : ResolverOptions} {value : Value}
  {before after : World} {answer : Bool}

/-!
## Targets
-/

/-- An answer comes from the resolver if what follows has none without it. -/
theorem resolved_of_ok {α : Type} {ask : Action (Resolution α)}
    {next : Resolution α → Action α} {a : α} (hresolved : ∀ a, next (.resolved a) = pure a)
    (hunresolved : ∀ world a last, next .unresolved world ≠ .ok a last)
    (h : (ask >>= next) before = .ok a after) : ask before = .ok (.resolved a) after := by
  cases hask : ask before with
  | error failure last =>
      rw [bind_of_error hask] at h
      cases h
  | ok resolution last =>
      rw [bind_of_ok hask] at h
      cases resolution with
      | resolved other =>
          rw [hresolved] at h
          cases h
          rfl
      | unresolved => exact absurd h (hunresolved last a after)

theorem missing_fails {α : Type} {base key : Value} {world last : World} {a : α} :
    (missing base key >>= fun fault => Action.fail fault) world ≠ .ok a last := by
  intro h
  unfold missing at h
  cases hnull : base.isNull <;> rw [hnull] at h <;> cases h

section Standard

variable (hresolver : context.resolver = chain (standard options))
  (hconverters : context.converters = .empty)

include hresolver

/-- A store fails as the resolver does, and for want of the property if no resolver knows it. -/
theorem store_foretold {base key : Value} {waits : Prop}
    (h : Foretold (.resolved ()) before waits answer
      ((handler options base).set (services context deeper) base key value before)) :
    Foretold () before waits answer (store context deeper base key value before) := by
  have hset : context.resolver.set (services context deeper) base key value before =
      (handler options base).set (services context deeper) base key value before := by
    rw [hresolver, standard_set]
  generalize (handler options base).set (services context deeper) base key value before = result
    at h hset
  unfold store
  cases h with
  | refused hcategory =>
      rw [bind_of_error hset]
      exact .refused hcategory
  | stored last =>
      rw [bind_of_ok hset]
      exact .stored last
  | unfit hcategory =>
      rw [bind_of_error hset]
      exact .unfit hcategory
  | waiting hwaits =>
      rw [bind_of_error hset]
      exact .waiting hwaits

include hconverters

theorem storeTarget_foretold (value : Value) {found : Target}
    (hask : readOnlyTarget context deeper found before = .ok answer after) :
    after = before ∧ Foretold () before (found.Waits value before) answer
      (storeTarget context deeper value found before) := by
  have hforetells (base key : Value) :
      (handler options base).Foretells (services context deeper) base key value before :=
    handler_foretells hconverters base
  cases found with
  | bound name =>
      cases hask
      exact ⟨rfl, .refused rfl⟩
  | nothing =>
      cases hask
      exact ⟨rfl, .refused rfl⟩
  | name name =>
      have hanswer : context.resolver.readOnly (services context deeper) .null (.string name)
          before = .ok (.resolved answer) after := by
        refine resolved_of_ok (fun _ => rfl) ?_ hask
        intro _ _ _ hfail
        cases hfail
      rw [hresolver, standard_readOnly] at hanswer
      have hforetold := hforetells .null (.string name) answer after hanswer
      exact ⟨hforetold.1, store_foretold hresolver hforetold.2⟩
  | member base key =>
      simp only [readOnlyTarget, askMember] at hask
      by_cases hnull : base.isNull
      · rw [if_pos hnull] at hask
        exact absurd hask missing_fails
      · rw [if_neg hnull] at hask
        have hanswer := resolved_of_ok (fun _ => rfl) (fun _ _ _ => missing_fails) hask
        rw [hresolver, standard_readOnly] at hanswer
        have hforetold := hforetells base key answer after hanswer
        exact ⟨hforetold.1, store_foretold hresolver hforetold.2⟩

end Standard

end Evaluation
end ExprLang
