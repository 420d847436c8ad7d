import ExprLang.Proofs.Assoc.Occurrences
import ExprLang.Proofs.Collection.Methods
import ExprLang.Proofs.Equality.Growth

/-!
# Repetitions left out

A new set, the method `distinct` and the keys of a map leave out what is equal to something kept
before.  Each has a loop of its own, yet they keep the same elements in the same order.  What is
kept of a list needs no law of equality to be a part of it that has an equal of every element and no
element equal to a later one.  That it consists of the first occurrences needs equality to be
transitive, and that no two of its elements are equal in either direction needs it to be symmetric.
-/

namespace ExprLang
namespace Assoc

section Repetition

variable {α β : Type} {same same' : α → α → Bool} {xs : List α}

/-!
## What is kept
-/

theorem distinct_sublist : (distinct same xs).Sublist xs := by
  induction xs using List.reverseRecOn with
  | nil => exact .slnil
  | append_singleton xs item ih =>
      rw [distinct_concat]
      split
      · exact ih.trans (List.sublist_append_left xs [item])
      · exact ih.append_right [item]

theorem exists_mem_distinct (hrefl : ∀ a, same a a = true) {a : α} (ha : a ∈ xs) :
    ∃ kept ∈ distinct same xs, same kept a = true := by
  induction xs using List.reverseRecOn with
  | nil => cases ha
  | append_singleton xs item ih =>
      rw [distinct_concat]
      rcases List.mem_append.mp ha with hbefore | hlast
      · rcases ih hbefore with ⟨kept, hkept, hsame⟩
        exists kept
        split
        · exact ⟨hkept, hsame⟩
        · exact ⟨List.mem_append_left _ hkept, hsame⟩
      · rw [List.mem_singleton.mp hlast]
        split
        · rename_i hseen
          exact List.any_eq_true.mp hseen
        · exact ⟨item, List.mem_concat_self, hrefl item⟩

theorem distinct_eq_self (h : xs.Pairwise fun x y => same x y = false) :
    distinct same xs = xs := by
  induction xs using List.reverseRecOn with
  | nil => rfl
  | append_singleton xs item ih =>
      rcases List.pairwise_append.mp h with ⟨hbefore, -, hnew⟩
      have hany : xs.any (same · item) = false := by
        rw [List.any_eq_false]
        intro x hx hsame
        rw [hnew x hx item List.mem_cons_self] at hsame
        cases hsame
      rw [distinct_concat, ih hbefore, hany]
      rfl

/-- What is kept stays as it is under any relation that agrees about it. -/
theorem distinct_distinct
    (h : ∀ a ∈ distinct same xs, ∀ b ∈ distinct same xs, same' a b = same a b) :
    distinct same' (distinct same xs) = distinct same xs := by
  apply distinct_eq_self
  refine pairwise_distinct.imp_of_mem ?_
  intro a b ha hb hdifferent
  rw [h a ha b hb, hdifferent]

/-!
## Keys of entries inserted in turn
-/

theorem keys_insert (key : α) (value : β) (entries : List (α × β)) :
    (Assoc.insert same key value entries).map Prod.fst =
      if (entries.map Prod.fst).any (same · key) then entries.map Prod.fst
      else entries.map Prod.fst ++ [key] := by
  induction entries with
  | nil => rfl
  | cons head rest ih =>
      rcases head with ⟨k, v⟩
      rw [Assoc.insert, List.map_cons, List.any_cons]
      cases hsame : same k key with
      | true => rfl
      | false =>
          rw [if_neg Bool.false_ne_true, List.map_cons, ih, Bool.false_or]
          exact apply_ite (List.cons k) _ _ _

theorem keys_ofList (entries : List (α × β)) :
    (ofList same entries).map Prod.fst = distinct same (entries.map Prod.fst) := by
  induction entries using List.reverseRecOn with
  | nil => rfl
  | append_singleton entries entry ih =>
      have hconcat : ofList same (entries ++ [entry]) =
          Assoc.insert same entry.1 entry.2 (ofList same entries) := by
        unfold ofList
        rw [List.foldl_append]
        rfl
      rw [hconcat, keys_insert, ih, List.map_append]
      exact (distinct_concat entry.1).symm

/-!
## First occurrences
-/

/-- The elements that no element before them is the same as. -/
def firstOccurrences (same : α → α → Bool) (items : List α) : List α :=
  (items.zipIdx.filter fun entry => !(items.take entry.2).any (same · entry.1)).map Prod.fst

theorem firstOccurrences_concat (item : α) : firstOccurrences same (xs ++ [item]) =
    firstOccurrences same xs ++ if xs.any (same · item) then [] else [item] := by
  have hbefore : xs.zipIdx.filter
        (fun entry => !((xs ++ [item]).take entry.2).any (same · entry.1)) =
      xs.zipIdx.filter fun entry => !(xs.take entry.2).any (same · entry.1) := by
    apply List.filter_congr
    intro entry hentry
    have hposition : entry.2 < xs.length := by
      have hbound := List.snd_lt_add_of_mem_zipIdx hentry
      omega
    rw [List.take_append_of_le_length (Nat.le_of_lt hposition)]
  unfold firstOccurrences
  rw [List.zipIdx_append, List.filter_append, List.map_append, hbefore]
  congr 1
  simp only [List.zipIdx_singleton, List.filter_cons, List.filter_nil, Nat.zero_add, List.take_left]
  cases xs.any (same · item) <;> rfl

/-- What is dropped is the same as something kept, so by transitivity it is not missed. -/
theorem any_distinct_of_trans {item : α} (hrefl : ∀ a, same a a = true)
    (htrans : ∀ a ∈ xs, ∀ b ∈ xs, same a b = true → same b item = true → same a item = true) :
    (distinct same xs).any (same · item) = xs.any (same · item) := by
  rw [Bool.eq_iff_iff, List.any_eq_true, List.any_eq_true]
  constructor
  · rintro ⟨kept, hkept, hsame⟩
    exact ⟨kept, mem_of_mem_distinct hkept, hsame⟩
  · rintro ⟨x, hx, hsame⟩
    rcases exists_mem_distinct hrefl hx with ⟨kept, hkept, hkeptx⟩
    exact ⟨kept, hkept, htrans kept (mem_of_mem_distinct hkept) x hx hkeptx hsame⟩

theorem distinct_eq_firstOccurrences (hrefl : ∀ a, same a a = true)
    (htrans : ∀ a ∈ xs, ∀ b ∈ xs, ∀ c ∈ xs, same a b = true → same b c = true → same a c = true) :
    distinct same xs = firstOccurrences same xs := by
  induction xs using List.reverseRecOn with
  | nil => rfl
  | append_singleton xs item ih =>
      have hbefore {a : α} (ha : a ∈ xs) : a ∈ xs ++ [item] := List.mem_append_left [item] ha
      have hany : (distinct same xs).any (same · item) = xs.any (same · item) :=
        any_distinct_of_trans hrefl fun a ha b hb =>
          htrans a (hbefore ha) b (hbefore hb) item List.mem_concat_self
      rw [distinct_concat, firstOccurrences_concat, hany,
        ih fun a ha b hb c hc => htrans a (hbefore ha) b (hbefore hb) c (hbefore hc)]
      cases xs.any (same · item) with
      | true => exact (List.append_nil _).symm
      | false => rfl

end Repetition
end Assoc

namespace Heap

/-- What is kept of some items when repetitions are left out. -/
structure WithoutRepetition (heap : Heap) (items kept : List Value) : Prop where
  sublist : kept.Sublist items
  different : kept.Pairwise fun a b => heap.equal a b = false
  covers : ∀ item ∈ items, ∃ a ∈ kept, heap.equal a item = true
  first : (∀ a ∈ items, ∀ b ∈ items, ∀ c ∈ items,
    heap.equal a b = true → heap.equal b c = true → heap.equal a c = true) →
      kept = Assoc.firstOccurrences heap.equal items
  neverEqual : (∀ a ∈ items, ∀ b ∈ items, heap.equal a b = true → heap.equal b a = true) →
    kept.Pairwise fun a b => heap.equal a b = false ∧ heap.equal b a = false

theorem withoutRepetition_distinct (heap : Heap) (items : List Value) :
    heap.WithoutRepetition items (heap.distinct items) := by
  constructor
  case sublist => exact Assoc.distinct_sublist
  case different => exact Assoc.pairwise_distinct
  case covers =>
    intro item hitem
    exact Assoc.exists_mem_distinct heap.equal_self hitem
  case first => exact Assoc.distinct_eq_firstOccurrences heap.equal_self
  case neverEqual =>
    intro hsymm
    refine Assoc.pairwise_distinct.imp_of_mem ?_
    intro a b ha hb hdifferent
    constructor
    · exact hdifferent
    · rw [Bool.eq_false_iff]
      intro hsame
      have hback := hsymm b (Assoc.mem_of_mem_distinct hb) a (Assoc.mem_of_mem_distinct ha) hsame
      rw [hdifferent] at hback
      cases hback

theorem distinct_eq_firstOccurrences_of_proper {heap : Heap} {items : List Value}
    (hitems : ∀ item ∈ items, heap.Proper item) :
    heap.distinct items = Assoc.firstOccurrences heap.equal items ∧
      (heap.distinct items).Pairwise fun a b =>
        heap.equal a b = false ∧ heap.equal b a = false := by
  have hequal := heap.equal_isEquivalenceOn
  have hkept := heap.withoutRepetition_distinct items
  constructor
  · exact hkept.first fun a ha b hb c hc =>
      hequal.trans a b c (hitems a ha) (hitems b hb) (hitems c hc)
  · exact hkept.neverEqual fun a ha b hb => hequal.symm a b (hitems a ha) (hitems b hb)

end Heap

/-!
## The three ways to leave out repetitions
-/

namespace Evaluation

open Resolver

variable {context : Context} {deeper : Deeper} {options : ResolverOptions}

/-- The action answers a new collection of these elements and changes nothing else. -/
def Makes (world : World) (collection : Ref → Value) (elements : List Value)
    (action : Action Value) : Prop :=
  ∃ r after, action world = .ok (collection r) after ∧ after.heap.sequence r = elements ∧
    after = { world with heap := (world.heap.addSequence elements).2 }

theorem makes_of_add {world : World} {collection : Ref → Value} {elements : List Value}
    {action : Action Value}
    (h : action world = .ok (collection world.heap.sequences.size)
      { world with heap := (world.heap.addSequence elements).2 }) :
    Makes world collection elements action :=
  ⟨_, _, h, Heap.sequence_size_of_extends (.refl _), rfl⟩

/-- A new set of some items, the method `distinct` of a collection that holds them, and the key set
of a map that had entries with these keys inserted in turn, all keep the same elements. -/
structure Keep (context : Context) (deeper : Deeper) (world : World) (items kept : List Value) :
    Prop where
  set : Makes world .set kept (World.newSet items)
  distinct : ∀ base, world.heap.items? base = some items →
    Makes world .list kept (invokeMethod context deeper base "distinct" [])
  keySet : ∀ r entries, entries.map Prod.fst = items →
    world.heap.entries r = Assoc.ofList world.heap.equal entries →
      Makes world .set kept (invokeMethod context deeper (.map r) "keySet" [])

theorem invokeMethod_keySet (hresolver : context.resolver = chain (standard options))
    (world : World) (r : Ref) :
    invokeMethod context deeper (.map r) "keySet" [] world =
      World.newSet ((world.heap.entries r).map Prod.fst) world := by
  unfold invokeMethod
  rw [hresolver, standard_invoke]
  rfl

theorem keep_distinct (hresolver : context.resolver = chain (standard options)) (world : World)
    (items : List Value) : Keep context deeper world items (world.heap.distinct items) := by
  constructor
  case set => exact makes_of_add rfl
  case distinct =>
    intro base hitems
    have hname : CollectionMethod.ofName? "distinct" = some .distinct := rfl
    apply makes_of_add
    rw [invokeMethod_collection hresolver hitems hname le_rfl le_rfl]
    rfl
  case keySet =>
    intro r entries hkeys hentries
    have hsame : world.heap.distinct ((world.heap.entries r).map Prod.fst) =
        world.heap.distinct items := by
      rw [hentries, Assoc.keys_ofList, hkeys]
      exact Assoc.distinct_distinct fun _ _ _ _ => rfl
    apply makes_of_add
    rw [invokeMethod_keySet hresolver, ← hsame]
    rfl

/-- A new set of some items, `distinct` and the key set of a map keep the same elements in the same
order, whatever the items are: a part of the items in which no element is equal to a later one and
which has an equal of every item.  Among values that contain neither themselves nor a map with equal
keys these are the first occurrences, and no two of them are equal.  As long as equality among them
stays as it is, and it does while only new objects are made, leaving out repetitions again in any of
the three ways keeps them all. -/
theorem repetitions_left_out_alike (hresolver : context.resolver = chain (standard options))
    (deeper : Deeper) (world : World) (items : List Value) :
    let kept := world.heap.distinct items
    Keep context deeper world items kept ∧ world.heap.WithoutRepetition items kept ∧
      ((∀ item ∈ items, world.heap.Proper item) →
        kept = Assoc.firstOccurrences world.heap.equal items ∧ kept.Pairwise fun a b =>
          world.heap.equal a b = false ∧ world.heap.equal b a = false) ∧
      ∀ later : World,
        ((∀ a ∈ kept, ∀ b ∈ kept, later.heap.equal a b = world.heap.equal a b) →
          Keep context deeper later kept kept) ∧
        (world.heap.Extends later.heap →
          (∀ item ∈ items, world.heap.Settled item ∧ world.heap.Finite item) →
            ∀ a ∈ kept, ∀ b ∈ kept, later.heap.equal a b = world.heap.equal a b) := by
  intro kept
  refine ⟨?keep, ?kept, ?proper, fun later => ⟨?again, ?grown⟩⟩
  case keep => exact keep_distinct hresolver world items
  case kept => exact world.heap.withoutRepetition_distinct items
  case proper => exact Heap.distinct_eq_firstOccurrences_of_proper
  case again =>
    intro hsame
    have hkept : later.heap.distinct kept = kept := Assoc.distinct_distinct hsame
    have hagain : Keep context deeper later kept (later.heap.distinct kept) :=
      keep_distinct hresolver later kept
    rwa [hkept] at hagain
  case grown =>
    intro hextends hitems a ha b hb
    rcases hitems a (Assoc.mem_of_mem_distinct ha) with ⟨hsettled, hfinite⟩
    rcases hitems b (Assoc.mem_of_mem_distinct hb) with ⟨hsettled', hfinite'⟩
    exact Heap.equal_eq_of_extends hextends hsettled hsettled' (hfinite.extend hextends hsettled)
      (hfinite'.extend hextends hsettled')

/-- Two lists of decimals that differ in scale, and a text, are kept once each, and making a set of
what is kept keeps it. -/
theorem equal_lists_left_out_alike :
    let context := Context.standard {}
    let world : World := { (default : World) with heap := Heap.twoOrders }
    let items : List Value := [.list 0, .string "a", .list 1, .list 0]
    let kept : List Value := [.list 0, .string "a"]
    let later : World := { world with heap := (world.heap.addSequence kept).2 }
    Keep context (within context 1) world items kept ∧
      kept = Assoc.firstOccurrences world.heap.equal items ∧
      Keep context (within context 1) later kept kept := by
  intro context world items kept later
  have hparts : ∀ item ∈ items, ∀ part ∈ world.heap.parts item, part.place? = none := by decide
  have hplaces : ∀ item ∈ items, ∀ place ∈ item.place?, place ∈ world.heap.places := by decide
  have hproper : ∀ item ∈ items, world.heap.Proper item := by
    intro item hitem
    apply Heap.Proper.of_parts
    · exact fun part hpart => .of_place?_eq_none (hparts item hitem part hpart)
    · rintro r rfl
      simp [items] at hitem
  have hsettled : ∀ item ∈ items, world.heap.Settled item := by
    intro item hitem part hpart place hplace
    rcases Relation.ReflTransGen.cases_head hpart with rfl | ⟨inner, hinner, hrest⟩
    · exact hplaces item hitem place hplace
    · exact Heap.Settled.of_place?_eq_none (hparts item hitem inner hinner) part hrest place hplace
  have hresolver : context.resolver = chain (standard {}) := rfl
  rcases repetitions_left_out_alike hresolver (within context 1) world items with
    ⟨hkeep, -, hfirst, hlater⟩
  refine ⟨hkeep, (hfirst hproper).1, (hlater later).1 ((hlater later).2 ?_ ?_)⟩
  · exact Heap.extends_addSequence _ _
  · exact fun item hitem => ⟨hsettled item hitem, (hproper item hitem).finite⟩

/-- A list becomes equal to another key of a map when its element is stored.  Then the first map is
equal to the second but not the other way, and `distinct` keeps both if the second comes first. -/
theorem changed_key_kept_twice :
    let context := Context.standard {}
    let world := (({ (default : World) with heap := (Heap.empty.addSequence [.int 2]).2 }).define
      "b" (.list 0)).define "m" (.int 0)
    let one : Expr := .list [.int 1]
    let make : Expr := .assign (.ident "m") (.map [(one, .int 1), (.ident "b", .int 1)])
    let change : Expr := .assign (.index (.ident "b") (.int 0)) (.int 1)
    let items : Expr := .list [.map [(one, .int 1), (.int 5, .int 5)], .ident "m"]
    let program : Expr := .seq make (.seq change (.call (.member items "distinct") []))
    ∃ r after, (within context 1).eval program world = .ok (.list r) after ∧
      after.heap.sequence r = [.map 1, .map 0] ∧
      after.heap.equal (.map 0) (.map 1) = true ∧ after.heap.equal (.map 1) (.map 0) = false :=
  ⟨_, _, rfl, rfl, rfl, rfl⟩

end Evaluation
end ExprLang
