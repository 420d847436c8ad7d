import Mathlib.Tactic.Common
import ExprLang.Evaluation

/-!
# Dispatch

The standard resolvers divide the base values among themselves: every base has one resolver
that may answer for its properties, and the chain answers as that resolver does.
-/

namespace ExprLang
namespace Resolver

/-!
## One speaker in a chain
-/

/-- The resolver leaves the properties of a base to others. -/
structure Leaves (r : Resolver) (base : Value) : Prop where
  get : ∀ services property, r.get services base property = pure .unresolved
  type : ∀ services property, r.type services base property = pure .unresolved
  set : ∀ services property value, r.set services base property value = pure .unresolved
  readOnly : ∀ services property, r.readOnly services base property = pure .unresolved

section Chain

variable {α : Type} {ask : Resolver → Action (Resolution α)} {before after : List Resolver}

theorem first_silent (h : ∀ r ∈ after, ask r = pure .unresolved) :
    first (after.map ask) = pure .unresolved := by
  induction after with
  | nil => rfl
  | cons r rest ih =>
      funext world
      rw [List.map_cons, first_cons_unresolved (congrFun (h r List.mem_cons_self) world)]
      exact congrFun (ih fun s hs => h s (List.mem_cons_of_mem r hs)) world

theorem first_speaker {r : Resolver} (hbefore : ∀ s ∈ before, ask s = pure .unresolved)
    (hafter : ∀ s ∈ after, ask s = pure .unresolved) :
    first ((before ++ r :: after).map ask) = ask r := by
  funext world
  induction before with
  | nil =>
      cases hask : ask r world with
      | error failure world' => exact first_cons_error hask
      | ok answer world' =>
          cases answer with
          | resolved answer => exact first_cons_resolved hask
          | unresolved =>
              rw [List.nil_append, List.map_cons, first_cons_unresolved hask,
                first_silent hafter]
              rfl
  | cons s rest ih =>
      rw [List.cons_append, List.map_cons,
        first_cons_unresolved (congrFun (hbefore s List.mem_cons_self) world)]
      exact ih fun s' hs' => hbefore s' (List.mem_cons_of_mem s hs')

end Chain

/-!
## The resolver of a base
-/

@[simp]
theorem names_leaves {options : ResolverOptions} {base : Value} (h : base ≠ .null) :
    (names options).Leaves base := by
  cases base with
  | null => exact absurd rfl h
  | _ => exact ⟨fun _ _ => rfl, fun _ _ => rfl, fun _ _ _ => rfl, fun _ _ => rfl⟩

@[simp]
theorem classMembers_leaves {base : Value} (h : ∀ name number, base ≠ .classRef name number) :
    classMembers.Leaves base := by
  cases base with
  | classRef name number => exact absurd rfl (h name number)
  | _ => exact ⟨fun _ _ => rfl, fun _ _ => rfl, fun _ _ _ => rfl, fun _ _ => rfl⟩

@[simp]
theorem mapEntries_leaves {readOnly : Bool} {base : Value} (h : ∀ r, base ≠ .map r) :
    (mapEntries readOnly).Leaves base := by
  cases base with
  | map r => exact absurd rfl (h r)
  | _ => exact ⟨fun _ _ => rfl, fun _ _ => rfl, fun _ _ _ => rfl, fun _ _ => rfl⟩

@[simp]
theorem listElements_leaves {readOnly : Bool} {base : Value} (h : ∀ r, base ≠ .list r) :
    (listElements readOnly).Leaves base := by
  cases base with
  | list r => exact absurd rfl (h r)
  | _ => exact ⟨fun _ _ => rfl, fun _ _ => rfl, fun _ _ _ => rfl, fun _ _ => rfl⟩

@[simp]
theorem arrayElements_leaves {readOnly : Bool} {base : Value}
    (h : ∀ component r, base ≠ .array component r) : (arrayElements readOnly).Leaves base := by
  cases base with
  | array component r => exact absurd rfl (h component r)
  | _ => exact ⟨fun _ _ => rfl, fun _ _ => rfl, fun _ _ _ => rfl, fun _ _ => rfl⟩

@[simp]
theorem collectionMethods_leaves (base : Value) : collectionMethods.Leaves base :=
  ⟨fun _ _ => rfl, fun _ _ => rfl, fun _ _ _ => rfl, fun _ _ => rfl⟩

@[simp]
theorem textMethods_leaves (base : Value) : textMethods.Leaves base :=
  ⟨fun _ _ => rfl, fun _ _ => rfl, fun _ _ _ => rfl, fun _ _ => rfl⟩

@[simp]
theorem beanProperties_leaves {readOnly : Bool} {base : Value} (h : ∀ r, base ≠ .bean r) :
    (beanProperties readOnly).Leaves base := by
  cases base with
  | bean r => exact absurd rfl (h r)
  | _ => exact ⟨fun _ _ => rfl, fun _ _ => rfl, fun _ _ _ => rfl, fun _ _ => rfl⟩

/-- The standard resolver that handles a base.  Values without properties fall to one that
has none. -/
def handler (options : ResolverOptions) : Value → Resolver
  | .null => names options
  | .classRef .. => classMembers
  | .map _ => mapEntries options.readOnly
  | .list _ => listElements options.readOnly
  | .array .. => arrayElements options.readOnly
  | .bean _ => beanProperties options.readOnly
  | _ => textMethods

theorem split_at {l : List Resolver} {k : Nat} {r : Resolver} {base : Value}
    (hk : l[k]? = some r) (hleaves : ∀ s ∈ l.eraseIdx k, s.Leaves base) :
    ∃ before after, l = before ++ r :: after ∧
      (∀ s ∈ before, s.Leaves base) ∧ ∀ s ∈ after, s.Leaves base := by
  rcases List.getElem?_eq_some_iff.mp hk with ⟨hlt, rfl⟩
  rw [List.eraseIdx_eq_take_drop_succ] at hleaves
  refine ⟨l.take k, l.drop (k + 1), ?_, ?_, ?_⟩
  · rw [← List.drop_eq_getElem_cons hlt, List.take_append_drop]
  · exact fun s hs => hleaves s (List.mem_append_left _ hs)
  · exact fun s hs => hleaves s (List.mem_append_right _ hs)

/-- The resolver of a base is the only standard one that does not leave it to others. -/
theorem standard_split (options : ResolverOptions) (base : Value) :
    ∃ before after, standard options = before ++ handler options base :: after ∧
      (∀ s ∈ before, s.Leaves base) ∧ ∀ s ∈ after, s.Leaves base := by
  cases base with
  | null => exact split_at (k := 0) rfl (by simp [standard, ofValues])
  | classRef => exact split_at (k := 1) rfl (by simp [standard, ofValues])
  | map => exact split_at (k := 2) rfl (by simp [standard, ofValues])
  | list => exact split_at (k := 3) rfl (by simp [standard, ofValues])
  | array => exact split_at (k := 4) rfl (by simp [standard, ofValues])
  | bean => exact split_at (k := 7) rfl (by simp [standard, ofValues])
  | _ => exact split_at (k := 6) rfl (by simp [standard, ofValues])

section Standard

variable (options : ResolverOptions) (services : Services) (base property : Value)

/-- A question that resolvers leave to others along with the base is answered by the resolver of
the base. -/
theorem first_standard {α : Type} {ask : Resolver → Action (Resolution α)}
    (h : ∀ r : Resolver, r.Leaves base → ask r = pure .unresolved) :
    first ((standard options).map ask) = ask (handler options base) := by
  rcases standard_split options base with ⟨before, after, hsplit, hbefore, hafter⟩
  rw [hsplit]
  exact first_speaker (fun s hs => h s (hbefore s hs)) (fun s hs => h s (hafter s hs))

theorem standard_get : (chain (standard options)).get services base property =
    (handler options base).get services base property :=
  first_standard options base fun _ hr => hr.get services property

theorem standard_type : (chain (standard options)).type services base property =
    (handler options base).type services base property :=
  first_standard options base fun _ hr => hr.type services property

theorem standard_readOnly : (chain (standard options)).readOnly services base property =
    (handler options base).readOnly services base property :=
  first_standard options base fun _ hr => hr.readOnly services property

theorem standard_set (value : Value) :
    (chain (standard options)).set services base property value =
      (handler options base).set services base property value :=
  first_standard options base fun _ hr => hr.set services property value

end Standard

/-!
## Top-level names
-/

section Names

variable {options : ResolverOptions} {services : Services} {value : Value} {world : World}

/-- Whether a store under a top-level name is accepted, apart from the read-only option. -/
def mayDefine (options : ResolverOptions) (world : World) (name : String) : Bool :=
  world.beans.contains name || options.allowCreation

theorem names_set_other {property : Value} (h : ∀ name, property ≠ .string name) :
    (names options).set services .null property value world = .ok .unresolved world := by
  cases property with
  | string name => exact absurd rfl (h name)
  | _ => rfl

theorem names_set_string (name : String) :
    (names options).set services .null (.string name) value world =
      if mayDefine options world name then
        if options.readOnly then .error (.error (.of (.propertyNotWritable name))) world
        else .ok (.resolved ()) (world.define name value)
      else .ok .unresolved world := by
  have hset : (names options).set services .null (.string name) value world =
      (if !world.beans.contains name && !options.allowCreation then return .unresolved
        else if options.readOnly then .fail (.propertyNotWritable name)
        else do
          modify fun world => world.define name value
          return .resolved () : Action (Resolution Unit)) world := rfl
  rw [hset, mayDefine]
  cases world.beans.contains name <;> cases options.allowCreation <;>
    cases options.readOnly <;> rfl

end Names

end Resolver
end ExprLang
