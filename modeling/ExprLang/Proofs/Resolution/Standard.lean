import Mathlib.Data.List.Nodup
import ExprLang.Proofs.Evaluation.Law
import ExprLang.Proofs.Resolution.FirstMatch
import ExprLang.Proofs.Store.Dispatch
import ExprLang.Resolver.Probe

/-!
# The order of the standard resolvers

Every question has one standard resolver that may speak to it, by the base value and by whether a
property or a method is asked for.  The others pass the question on, and a resolver that passes a
question on leaves the world as it was.  So the order in which the standard resolvers are asked
makes no difference.
-/

namespace ExprLang
namespace Resolver

variable {α : Type}

/-!
## One speaker for each question
-/

/-- The resolver passes the question on in every world, which it leaves as it is. -/
def Ignores (r : Resolver) (query : Query α) : Prop :=
  ∀ services, r.ask services query = pure .unresolved

section Methods

variable {options : ResolverOptions} {refuses : Bool} {base : Value} {method : String}
  {args : List Value}

@[simp]
theorem names_ignores_invoke : (names options).Ignores (.invoke base method args) :=
  fun _ => rfl

@[simp]
theorem listElements_ignores_invoke : (listElements refuses).Ignores (.invoke base method args) :=
  fun _ => rfl

@[simp]
theorem arrayElements_ignores_invoke :
    (arrayElements refuses).Ignores (.invoke base method args) :=
  fun _ => rfl

@[simp]
theorem classMembers_ignores_invoke (h : ∀ name number, base ≠ .classRef name number) :
    classMembers.Ignores (.invoke base method args) := by
  cases base with
  | classRef name number => exact absurd rfl (h name number)
  | _ => exact fun _ => rfl

@[simp]
theorem mapEntries_ignores_invoke (h : ∀ r, base ≠ .map r) :
    (mapEntries refuses).Ignores (.invoke base method args) := by
  cases base with
  | map r => exact absurd rfl (h r)
  | _ => exact fun _ => rfl

@[simp]
theorem collectionMethods_ignores_invoke (hlist : ∀ r, base ≠ .list r) (hset : ∀ r, base ≠ .set r)
    (harray : ∀ component r, base ≠ .array component r) :
    collectionMethods.Ignores (.invoke base method args) := by
  cases base with
  | list r => exact absurd rfl (hlist r)
  | set r => exact absurd rfl (hset r)
  | array component r => exact absurd rfl (harray component r)
  | _ => exact fun _ => rfl

@[simp]
theorem textMethods_ignores_invoke (h : ∀ s, base ≠ .string s) :
    textMethods.Ignores (.invoke base method args) := by
  cases base with
  | string s => exact absurd rfl (h s)
  | _ => exact fun _ => rfl

@[simp]
theorem beanProperties_ignores_invoke (h : ∀ r, base ≠ .bean r) :
    (beanProperties refuses).Ignores (.invoke base method args) := by
  cases base with
  | bean r => exact absurd rfl (h r)
  | _ => exact fun _ => rfl

/-- The standard resolver that handles the methods of a base.  Values without methods fall to one
that has none for them. -/
def methodHandler (options : ResolverOptions) : Value → Resolver
  | .classRef .. => classMembers
  | .map _ => mapEntries options.readOnly
  | .list _ | .set _ | .array .. => collectionMethods
  | .bean _ => beanProperties options.readOnly
  | _ => textMethods

theorem standard_ignores_invoke (options : ResolverOptions) (base : Value) (method : String)
    (args : List Value) :
    ∀ r ∈ standard options,
      r = methodHandler options base ∨ r.Ignores (.invoke base method args) := by
  cases base <;> simp [standard, ofValues, methodHandler]

end Methods

/-- The standard resolver that may speak to a question. -/
def speaker (options : ResolverOptions) : Query α → Resolver
  | .get base _ | .type base _ | .set base _ _ | .readOnly base _ => handler options base
  | .invoke base _ _ => methodHandler options base

theorem standard_leaves (options : ResolverOptions) (base : Value) :
    ∀ r ∈ standard options, r = handler options base ∨ r.Leaves base := by
  rcases standard_split options base with ⟨before, after, hsplit, hbefore, hafter⟩
  intro r hr
  rw [hsplit, List.mem_append, List.mem_cons] at hr
  rcases hr with hr | rfl | hr
  · exact Or.inr (hbefore r hr)
  · exact Or.inl rfl
  · exact Or.inr (hafter r hr)

theorem standard_ignores (options : ResolverOptions) (query : Query α) :
    ∀ r ∈ standard options, r = speaker options query ∨ r.Ignores query := by
  intro r hr
  cases query with
  | get base property =>
      exact (standard_leaves options base r hr).imp_right fun h services => h.get services property
  | type base property =>
      exact (standard_leaves options base r hr).imp_right fun h services => h.type services property
  | set base property value =>
      exact (standard_leaves options base r hr).imp_right fun h services =>
        h.set services property value
  | readOnly base property =>
      exact (standard_leaves options base r hr).imp_right fun h services =>
        h.readOnly services property
  | invoke base method args => exact standard_ignores_invoke options base method args r hr

theorem standard_nodup (options : ResolverOptions) : (standard options).Nodup := by
  have hnames : ((standard options).map Resolver.name).Nodup := by
    change ["bean-name", "static-field", "map", "list", "array", "stream", "string", "bean"].Nodup
    decide
  exact List.Nodup.of_map _ hnames

/-!
## Passing on leaves the world alone
-/

/-- If the action leaves a question to others, it has not changed the world. -/
def Quiet (action : Action (Resolution α)) : Prop :=
  ∀ before after, action before = .ok .unresolved after → after = before

/-- The action never leaves a question to others. -/
def Commits (action : Action (Resolution α)) : Prop :=
  ∀ before after, action before ≠ .ok .unresolved after

theorem Commits.resolved (answer : α) : Commits (pure (.resolved answer)) := by
  intro before after h
  cases h

theorem Commits.throw (failure : Failure) :
    Commits (throw failure : Action (Resolution α)) := by
  intro before after h
  cases h

theorem Commits.bind {β : Type} {action : Action β} {next : β → Action (Resolution α)}
    (h : ∀ b, Commits (next b)) : Commits (action >>= next) := by
  intro before after
  simp only [Bind.bind, EStateM.bind]
  cases action before with
  | ok b mid => exact h b mid after
  | error failure mid => exact nofun

theorem Commits.map {β : Type} {action : Action β} (answer : β → α) :
    Commits (action >>= fun b => pure (.resolved (answer b))) :=
  .bind fun b => .resolved (answer b)

theorem Commits.heapNow {ask : Heap → Action (Resolution α)} (h : ∀ heap, Commits (ask heap)) :
    Commits (World.heapNow >>= ask) :=
  .bind h

theorem Commits.ite {condition : Prop} [Decidable condition] {yes no : Action (Resolution α)}
    (hyes : Commits yes) (hno : Commits no) : Commits (if condition then yes else no) := by
  split
  · exact hyes
  · exact hno

theorem Commits.quiet {action : Action (Resolution α)} (h : Commits action) : Quiet action :=
  fun before after hrun => absurd hrun (h before after)

theorem Quiet.unresolved : Quiet (pure .unresolved : Action (Resolution α)) := by
  intro before after h
  cases h
  rfl

theorem Quiet.now {ask : World → Action (Resolution α)} (h : ∀ world, Quiet (ask world)) :
    Quiet (World.now >>= ask) :=
  fun before => h before before

theorem Quiet.heapNow {ask : Heap → Action (Resolution α)} (h : ∀ heap, Quiet (ask heap)) :
    Quiet (World.heapNow >>= ask) :=
  fun before => h before.heap before

theorem Ignores.quiet {r : Resolver} {query : Query α} (h : r.Ignores query)
    (services : Services) : Quiet (r.ask services query) :=
  h services ▸ .unresolved

/-- Top-level names are passed on after a look at the beans, if at all. -/
theorem names_quiet (options : ResolverOptions) (services : Services) (query : Query α) :
    Quiet ((names options).ask services query) := by
  cases query with
  | get base property =>
      apply Quiet.now
      intro world
      cases bean? world base property with
      | some bean => exact (Commits.resolved bean).quiet
      | none => exact .unresolved
  | type base property =>
      apply Quiet.now
      intro world
      cases bean? world base property with
      | some bean => exact (Commits.map fun heap : Heap => heap.typeOf bean).quiet
      | none => exact .unresolved
  | set base property value =>
      unfold ask names
      dsimp only
      cases topName? base property with
      | none => exact .unresolved
      | some name =>
          apply Quiet.now
          intro world
          split
          · exact .unresolved
          · split
            · exact (Commits.throw _).quiet
            · exact (Commits.map fun _ => ()).quiet
  | readOnly base property =>
      apply Quiet.now
      intro world
      split
      · exact (Commits.resolved _).quiet
      · exact .unresolved
  | invoke => exact .unresolved

section Speaker

variable (options : ResolverOptions) (services : Services)

theorem handler_get_quiet (base property : Value) :
    Quiet ((handler options base).get services base property) := by
  cases base with
  | null => exact names_quiet options services (.get .null property)
  | classRef => exact (Commits.map id).quiet
  | map => exact (Commits.map _).quiet
  | list => exact (Commits.map id).quiet
  | array => exact (Commits.ite (.map _) (.map id)).quiet
  | bean => exact (Commits.map _).quiet
  | _ => exact .unresolved

theorem handler_type_quiet (base property : Value) :
    Quiet ((handler options base).type services base property) := by
  cases base with
  | null => exact names_quiet options services (.type .null property)
  | classRef => exact (Commits.bind fun _ => .map _).quiet
  | map => exact (Commits.resolved _).quiet
  | list => exact (Commits.map id).quiet
  | array => exact (Commits.ite (.resolved _) (.map id)).quiet
  | bean => exact (Commits.map _).quiet
  | _ => exact .unresolved

theorem handler_set_quiet (base property value : Value) :
    Quiet ((handler options base).set services base property value) := by
  cases base with
  | null => exact names_quiet options services (.set .null property value)
  | classRef => exact (Commits.bind fun _ => .throw _).quiet
  | map r =>
      apply Commits.quiet
      apply Commits.ite
      · exact .bind fun _ => .throw _
      · apply Commits.heapNow
        intro heap
        split
        · exact .map _
        · exact .throw _
  | list => exact (Commits.ite (.bind fun _ => .throw _) (.bind fun _ => .map id)).quiet
  | array =>
      exact (Commits.ite (.bind fun _ => .throw _) (.bind fun _ => .bind fun _ => .map id)).quiet
  | bean =>
      apply Commits.quiet
      apply Commits.bind
      intro place
      exact .ite (.throw _) (.bind fun _ => .heapNow fun _ => .bind fun _ => .map _)
  | _ => exact .unresolved

theorem handler_readOnly_quiet (base property : Value) :
    Quiet ((handler options base).readOnly services base property) := by
  cases base with
  | null => exact names_quiet options services (.readOnly .null property)
  | classRef | map | list | array => exact (Commits.resolved _).quiet
  | bean => exact (Commits.map _).quiet
  | _ => exact .unresolved

/-- Methods of an unknown name are an error for classes, maps and beans; for collections and text
they are left to others. -/
theorem methodHandler_quiet (base : Value) (method : String) (args : List Value) :
    Quiet ((methodHandler options base).invoke services base method args) := by
  have hcollection (base : Value) :
      Quiet (collectionMethods.invoke services base method args) := by
    apply Quiet.heapNow
    intro heap
    split
    · dsimp only
      split
      · exact (Commits.throw _).quiet
      · exact (Commits.map id).quiet
    · exact .unresolved
  cases base with
  | classRef name number =>
      unfold methodHandler classMembers
      dsimp only
      split
      · exact (Commits.map id).quiet
      · exact (Commits.throw _).quiet
  | map => exact (Commits.heapNow fun _ => .map id).quiet
  | list | set | array => exact hcollection _
  | bean =>
      apply Quiet.heapNow
      intro heap
      dsimp only
      split
      · exact (Commits.map id).quiet
      · exact (Commits.throw _).quiet
  | string s =>
      unfold methodHandler textMethods
      dsimp only
      split
      · exact (Commits.heapNow fun _ => .map id).quiet
      · exact .unresolved
  | _ => exact .unresolved

end Speaker

theorem standard_quiet {options : ResolverOptions} {r : Resolver} (hr : r ∈ standard options)
    (services : Services) (query : Query α) : Quiet (r.ask services query) := by
  rcases standard_ignores options query r hr with rfl | hignores
  · cases query with
    | get base property => exact handler_get_quiet options services base property
    | type base property => exact handler_type_quiet options services base property
    | set base property value => exact handler_set_quiet options services base property value
    | readOnly base property => exact handler_readOnly_quiet options services base property
    | invoke base method args => exact methodHandler_quiet options services base method args
  · exact hignores.quiet services

/-!
## The order makes no difference
-/

/-- Of two resolvers, one passes the question on in every world. -/
def Disjoint (r s : Resolver) : Prop :=
  ∀ (α : Type) (services : Services) (query : Query α) (world : World),
    r.ask services query world = .ok .unresolved world ∨
      s.ask services query world = .ok .unresolved world

theorem Disjoint.symm {r s : Resolver} (h : r.Disjoint s) : s.Disjoint r :=
  fun α services query world => (h α services query world).symm

theorem standard_disjoint (options : ResolverOptions) :
    (standard options).Pairwise Disjoint := by
  apply (standard_nodup options).pairwise_of_forall_ne
  intro r hr s hs hne α services query world
  rcases standard_ignores options query r hr with rfl | hignores
  · rcases standard_ignores options query s hs with rfl | hignores
    · exact absurd rfl hne
    · exact Or.inr (congrFun (hignores services) world)
  · exact Or.inl (congrFun (hignores services) world)

section Order

variable {services : Services} {query : Query α} {world : World}

theorem chain_cons_of_unresolved {r : Resolver} {rest : List Resolver} {mid : World}
    (h : r.ask services query world = .ok .unresolved mid) :
    (chain (r :: rest)).ask services query world = (chain rest).ask services query mid :=
  (PassOn.cons h (.nil mid)).chain_append

/-- A first resolver may be put in front of two chains that answer alike. -/
theorem chain_cons_congr {r : Resolver} {resolvers others : List Resolver}
    (h : ∀ mid, (chain resolvers).ask services query mid = (chain others).ask services query mid) :
    (chain (r :: resolvers)).ask services query world =
      (chain (r :: others)).ask services query world := by
  by_cases hask : ∃ mid, r.ask services query world = .ok .unresolved mid
  · rcases hask with ⟨mid, hask⟩
    rw [chain_cons_of_unresolved hask, chain_cons_of_unresolved hask, h]
  · have hfinal : IsFinal (r.ask services query world) := fun mid hmid => hask ⟨mid, hmid⟩
    rw [chain_cons_of_isFinal hfinal, chain_cons_of_isFinal hfinal]

theorem chain_swap_of_unresolved {r s : Resolver} {rest : List Resolver}
    (hr : r.ask services query world = .ok .unresolved world)
    (hs : Quiet (s.ask services query)) :
    (chain (r :: s :: rest)).ask services query world =
      (chain (s :: r :: rest)).ask services query world := by
  rw [chain_cons_of_unresolved hr]
  by_cases hask : ∃ mid, s.ask services query world = .ok .unresolved mid
  · rcases hask with ⟨mid, hask⟩
    cases hs world mid hask
    rw [chain_cons_of_unresolved hask, chain_cons_of_unresolved hask, chain_cons_of_unresolved hr]
  · have hfinal : IsFinal (s.ask services query world) := fun mid hmid => hask ⟨mid, hmid⟩
    rw [chain_cons_of_isFinal hfinal, chain_cons_of_isFinal hfinal]

/-- Resolvers of which at most one speaks to a question, and which leave the world alone as long as
they pass it on, answer alike in every order. -/
theorem chain_perm {resolvers others : List Resolver} (hperm : resolvers.Perm others)
    (hdisjoint : resolvers.Pairwise Disjoint)
    (hquiet : ∀ r ∈ resolvers, Quiet (r.ask services query)) :
    (chain resolvers).ask services query world = (chain others).ask services query world := by
  induction hperm generalizing world with
  | nil => rfl
  | cons r _ ih =>
      apply chain_cons_congr
      intro mid
      exact ih hdisjoint.of_cons fun s hs => hquiet s (List.mem_cons_of_mem r hs)
  | swap s r rest =>
      have hr := hquiet r List.mem_cons_self
      have hs := hquiet s (List.mem_cons_of_mem r List.mem_cons_self)
      rcases List.rel_of_pairwise_cons hdisjoint List.mem_cons_self α services query world with
        hpass | hpass
      · exact chain_swap_of_unresolved hpass hs
      · exact (chain_swap_of_unresolved hpass hr).symm
  | trans hfirst _ ihfirst ihsecond =>
      have hdisjoint' := hfirst.pairwise hdisjoint Disjoint.symm
      have hquiet' := fun r hr => hquiet r (hfirst.mem_iff.mpr hr)
      exact (ihfirst hdisjoint hquiet).trans (ihsecond hdisjoint' hquiet')

end Order

theorem chain_ext {resolvers others : List Resolver}
    (h : ∀ (α : Type) (services : Services) (query : Query α) (world : World),
      (chain resolvers).ask services query world = (chain others).ask services query world) :
    chain resolvers = chain others := by
  have hget : (chain resolvers).get = (chain others).get := by
    funext services base property world
    exact h Value services (.get base property) world
  have htype : (chain resolvers).type = (chain others).type := by
    funext services base property world
    exact h ValueType services (.type base property) world
  have hset : (chain resolvers).set = (chain others).set := by
    funext services base property value world
    exact h Unit services (.set base property value) world
  have hreadOnly : (chain resolvers).readOnly = (chain others).readOnly := by
    funext services base property world
    exact h Bool services (.readOnly base property) world
  have hinvoke : (chain resolvers).invoke = (chain others).invoke := by
    funext services base method args world
    exact h Value services (.invoke base method args) world
  show Resolver.mk "composite" (chain resolvers).get (chain resolvers).type
    (chain resolvers).set (chain resolvers).readOnly (chain resolvers).invoke = _
  rw [hget, htype, hset, hreadOnly, hinvoke]
  rfl

/-- The composite answers every question as the first resolver does that does not pass it on, asked
in the world in which those before it leave it, whatever stands behind. -/
structure AnswersFirst (composite : Resolver) (resolvers : List Resolver) : Prop where
  first : ∀ (α : Type) (services : Services) (query : Query α) (passed rest : List Resolver)
    (r : Resolver) (before mid : World), resolvers = passed ++ r :: rest →
    PassOn services query passed before mid → IsFinal (r.ask services query mid) →
    composite.ask services query before = r.ask services query mid
  /-- One of the resolvers ends the search unless all pass the question on. -/
  search : ∀ (α : Type) (services : Services) (query : Query α) (before : World),
    (∃ after, PassOn services query resolvers before after) ∨
      ∃ passed r rest mid, resolvers = passed ++ r :: rest ∧
        PassOn services query passed before mid ∧ IsFinal (r.ask services query mid)
  unresolved : ∀ (α : Type) (services : Services) (query : Query α) (before after : World),
    composite.ask services query before = .ok .unresolved after ↔
      PassOn services query resolvers before after

/-- At most one of the resolvers speaks to a question, the others change nothing, and a chain of
them is the same in every order. -/
structure OrderFree (resolvers : List Resolver) : Prop where
  disjoint : resolvers.Pairwise Disjoint
  quiet : ∀ r ∈ resolvers, ∀ (α : Type) (services : Services) (query : Query α),
    Quiet (r.ask services query)
  permuted : ∀ others : List Resolver, others.Perm resolvers → chain others = chain resolvers

theorem chain_answersFirst (resolvers : List Resolver) :
    (chain resolvers).AnswersFirst resolvers where
  first := by
    intro α services query passed rest r before mid hsplit hpass hfinal
    rw [hsplit, hpass.chain_append, chain_cons_of_isFinal hfinal]
  search _ services query before := passOn_or_isFinal services query resolvers before
  unresolved _ _ _ _ _ := chain_unresolved_iff

theorem orderFree_of_disjoint {resolvers : List Resolver}
    (hdisjoint : resolvers.Pairwise Disjoint)
    (hquiet : ∀ r ∈ resolvers, ∀ (α : Type) (services : Services) (query : Query α),
      Quiet (r.ask services query)) :
    OrderFree resolvers where
  disjoint := hdisjoint
  quiet := hquiet
  permuted := by
    intro others hperm
    apply chain_ext
    intro α services query world
    exact (chain_perm hperm.symm hdisjoint fun r hr => hquiet r hr α services query).symm

/-- Every chain is a search for the first answer, and in the standard chain the order is free. -/
theorem chain_first_match_standard_order_free :
    (∀ resolvers : List Resolver, (chain resolvers).AnswersFirst resolvers) ∧
      ∀ options : ResolverOptions, OrderFree (standard options) := by
  constructor
  · exact chain_answersFirst
  · intro options
    apply orderFree_of_disjoint (standard_disjoint options)
    intro r hr α services query
    exact standard_quiet hr services query

/-- The second of three probes answers and the third leaves no mark; the standard chain may be
turned around. -/
theorem chain_first_match_probes :
    (chain [probe 0 none, probe 0 (some (.int 7)), probe 0 none]).ask
        ⟨.empty, #[], .empty, fun _ _ => throw .tooDeep⟩ (.get .null .null)
        { (default : World) with heap := (Heap.empty.addSequence []).2 } =
      .ok (.resolved (.int 7))
        { (default : World) with heap := (Heap.empty.addSequence [.null, .null]).2 } ∧
      chain (standard {}).reverse = chain (standard {}) := by
  rcases chain_first_match_standard_order_free with ⟨hfirst, hfree⟩
  constructor
  · exact (hfirst _).first _ _ _ [probe 0 none] [probe 0 none] (probe 0 (some (.int 7))) _
      { (default : World) with heap := (Heap.empty.addSequence [.null]).2 } rfl
      (.cons rfl (.nil _)) nofun
  · exact (hfree {}).permuted _ (List.reverse_perm _)

end Resolver
end ExprLang
