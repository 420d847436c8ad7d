import ExprLang.Proofs.Store.Dispatch

/-!
# Members of null

The resolvers are asked for a top-level name as a property of null.  Reading a member of null,
its type or whether it is read-only never reaches them.  A store in such a member does, so a
key that is the text of a bean's name stores in the bean.
-/

namespace ExprLang
namespace Evaluation

open Resolver

variable {context : Context} {deeper : Deeper} {options : ResolverOptions}

/-- The target is a member or an element of an expression whose value is null.  The key is the
value by which the resolvers are asked for it, once object and key have been evaluated. -/
inductive NullMember (context : Context) (deeper : Deeper) :
    Expr → World → Value → World → Prop
  | member {object : Expr} {name : String} {before after : World} :
      eval context deeper object before = .ok .null after →
      NullMember context deeper (.member object name) before (.string name) after
  | index {object keyExpr : Expr} {key : Value} {before mid after : World} :
      eval context deeper object before = .ok .null mid →
      eval context deeper keyExpr mid = .ok key after →
      NullMember context deeper (.index object keyExpr) before key after

/-- The key is the name of a bean, or of one that a store may create. -/
def NamesBean (options : ResolverOptions) (world : World) (key : Value) : Prop :=
  ∃ name, key = .string name ∧ mayDefine options world name = true

/-- The action fails for want of a property and leaves the beans as they are in `after`. -/
def FailsNotFound {α : Type} (action : Action α) (before after : World) : Prop :=
  ∃ error world, action before = .error (.error error) world ∧
    error.category = .propertyNotFound ∧ world.beans = after.beans

/-!
## Asking about a member of null
-/

/-- The failure of a property that null does not have. -/
def missingNull (world : World) (key : Value) : Failure :=
  .error (.of (.propertyNotFound (world.heap.text key) none))

theorem typeOf_nullMember {target : Expr} {before after : World} {key : Value}
    (h : NullMember context deeper target before key after) :
    typeOf context deeper target before = .error (missingNull after key) after := by
  cases h with
  | member hobject =>
      simp only [typeOf, bind, EStateM.bind, hobject]
      rfl
  | index hobject hkey =>
      simp only [typeOf, bind, EStateM.bind, hobject, hkey]
      rfl

theorem readOnly_nullMember {target : Expr} {before after : World} {key : Value}
    (h : NullMember context deeper target before key after) :
    readOnly context deeper target before = .error (missingNull after key) after := by
  cases h with
  | member hobject =>
      simp only [readOnly, bind, EStateM.bind, hobject]
      rfl
  | index hobject hkey =>
      simp only [readOnly, bind, EStateM.bind, hobject, hkey]
      rfl

/-!
## Storing in a member of null
-/

theorem assign_nullMember {target : Expr} {before after : World} {key value : Value}
    (h : NullMember context deeper target before key after) :
    assign context deeper target value before = store context deeper .null key value after := by
  cases h with
  | member hobject => simp only [assign, bind, EStateM.bind, hobject]
  | index hobject hkey => simp only [assign, bind, EStateM.bind, hobject, hkey]

theorem store_null_missing (hresolver : context.resolver = chain (standard options))
    {world : World} {key value : Value} (h : ¬ NamesBean options world key) :
    store context deeper .null key value world = .error (missingNull world key) world := by
  have hset : context.resolver.set (services context deeper) .null key value world =
      .ok .unresolved world := by
    rw [hresolver, standard_set]
    cases key with
    | string name =>
        have hname : ¬ mayDefine options world name = true := fun hname => h ⟨name, rfl, hname⟩
        exact (names_set_string name).trans (if_neg hname)
    | _ => exact names_set_other (by simp)
  simp only [store, bind, EStateM.bind, hset]
  rfl

theorem store_null_bean (hresolver : context.resolver = chain (standard options))
    {world : World} {name : String} {value : Value} (h : mayDefine options world name = true) :
    store context deeper .null (.string name) value world =
      if options.readOnly then .error (.error (.of (.propertyNotWritable name))) world
      else .ok () (world.define name value) := by
  have hset : context.resolver.set (services context deeper) .null (.string name) value world =
      if options.readOnly then .error (.error (.of (.propertyNotWritable name))) world
      else .ok (.resolved ()) (world.define name value) := by
    rw [hresolver, standard_set]
    exact (names_set_string name).trans (if_pos h)
  cases hreadOnly : options.readOnly with
  | true =>
      simp only [hreadOnly, if_true] at hset
      simp only [store, bind, EStateM.bind, hset, if_true]
  | false =>
      simp only [hreadOnly, Bool.false_eq_true, if_false] at hset
      simp only [store, bind, EStateM.bind, hset, Bool.false_eq_true, if_false]
      rfl

/-- A store in a member of null fails as it should unless the key names a bean. -/
theorem failsNotFound_assign_iff (hresolver : context.resolver = chain (standard options))
    {target : Expr} {before after : World} {key : Value}
    (h : NullMember context deeper target before key after) (value : Value) :
    FailsNotFound (assign context deeper target value) before after ↔
      ¬ NamesBean options after key := by
  unfold FailsNotFound
  rw [assign_nullMember h]
  constructor
  · rintro ⟨error, world, hfails, hcategory, _⟩ ⟨name, rfl, hname⟩
    rw [store_null_bean hresolver hname] at hfails
    split at hfails
    · cases hfails
      cases hcategory
    · cases hfails
  · intro hkey
    exact ⟨_, after, store_null_missing hresolver hkey, rfl, rfl⟩

/-- Asked for its type or whether it is read-only, a member of null is always missing.  Stored
in, by itself or through an assignment, it is missing exactly when the key is not the name of
a bean. -/
theorem failsNotFound_nullMember (hresolver : context.resolver = chain (standard options))
    {target : Expr} {before after : World} {key : Value}
    (h : NullMember context deeper target before key after) :
    FailsNotFound (typeOf context deeper target) before after ∧
      FailsNotFound (readOnly context deeper target) before after ∧
      (∀ value, FailsNotFound (assign context deeper target value) before after ↔
        ¬ NamesBean options after key) ∧
      ∀ source start value, eval context deeper source start = .ok value before →
        (FailsNotFound (eval context deeper (.assign target source)) start after ↔
          ¬ NamesBean options after key) := by
  refine ⟨⟨_, after, typeOf_nullMember h, rfl, rfl⟩, ⟨_, after, readOnly_nullMember h, rfl, rfl⟩,
    failsNotFound_assign_iff hresolver h, ?_⟩
  intro source start value hsource
  rw [← failsNotFound_assign_iff hresolver h value]
  unfold FailsNotFound
  simp only [eval, bind, EStateM.bind, hsource]
  cases assign context deeper target value before with
  | error failure world => simp
  | ok _ world => simp [pure, EStateM.pure]

/-- Without beans a store in a member of null fails as it should. -/
theorem null_member_missing :
    FailsNotFound (assign (.standard {}) (Context.standard {}).operations (.member .null "x")
      (.long 5)) ⟨.empty, .empty, .empty⟩ ⟨.empty, .empty, .empty⟩ := by
  have hmember : NullMember (.standard {}) (Context.standard {}).operations
      (.member .null "x") ⟨.empty, .empty, .empty⟩ (.string "x") ⟨.empty, .empty, .empty⟩ :=
    .member rfl
  have hresolver : (Context.standard {}).resolver = chain (standard {}) := rfl
  refine ((failsNotFound_nullMember hresolver hmember).2.2.1 (.long 5)).mpr ?_
  intro hread
  rcases hread with ⟨name, _, hname⟩
  exact absurd hname (by simp [mayDefine, Table.contains])

/-- A store in a member of null overwrites the bean of that name. -/
theorem null_member_overwrites_bean :
    ∃ after, (Context.standard {}).assign (.member .null "x") (.long 5)
        ⟨.empty, .ofList [("x", .long 1)], .empty⟩ = .ok () after ∧
      after.beans.find? "x" = some (.long 5) := by
  exact ⟨_, rfl, by simp [World.define, Value.isNull]⟩

end Evaluation
end ExprLang
