import Mathlib.Data.List.Sort
import Mathlib.Data.String.Basic
import ExprLang.Proofs.Collection.Methods
import ExprLang.Proofs.Equality.Growth
import ExprLang.Proofs.Operator.Agreement

/-!
# Sorting and extremes of ordered elements

Exact numbers of any kinds are ordered as the rational numbers that they are, and texts as their
characters are.  So elements that are all exact numbers, or all texts, have ranks in a linear
order, and the comparisons of `sorted`, `min` and `max` compare these ranks.  Sorting is then an
insertion sort by rank that leaves elements of one rank as they stand, and the extremes are found
by two searches that keep the earliest of the candidates.
-/

namespace ExprLang

variable {K : Type} [LinearOrder K]

/-!
## The earliest of the best elements
-/

/-- The earliest of the elements that no element precedes. -/
structure Earliest (precedes : Value → Value → Prop) (items : List Value) (best : Value) :
    Prop where
  unpreceded : ∀ x ∈ items, ¬ precedes x best
  first : ∃ before after, items = before ++ best :: after ∧ ∀ x ∈ before, precedes best x

namespace Earliest

variable {precedes : Value → Value → Prop} {items : List Value} {item best head : Value}
  {rank : Value → K}

theorem mem (h : Earliest precedes items best) : best ∈ items := by
  obtain ⟨before, after, rfl, -⟩ := h.first
  exact List.mem_append_right before List.mem_cons_self

theorem congr {precedes' : Value → Value → Prop} (h : Earliest precedes items best)
    (hiff : ∀ a ∈ items, ∀ b ∈ items, (precedes a b ↔ precedes' a b)) :
    Earliest precedes' items best := by
  have hbest := h.mem
  constructor
  case unpreceded =>
    intro x hx
    rw [← hiff x hx best hbest]
    exact h.unpreceded x hx
  case first =>
    obtain ⟨before, after, hitems, hbefore⟩ := h.first
    refine ⟨before, after, hitems, fun x hx => ?_⟩
    have hmem : x ∈ items := by
      rw [hitems]
      exact List.mem_append_left (best :: after) hx
    rw [← hiff best hbest x hmem]
    exact hbefore x hx

theorem singleton : Earliest (fun a b => rank a < rank b) [item] item where
  unpreceded x hx := by
    rw [List.mem_singleton.mp hx]
    exact lt_irrefl (rank item)
  first := ⟨[], [], rfl, fun _ hx => absurd hx List.not_mem_nil⟩

/-- An element that is worse than the best one may be put before all. -/
theorem cons (h : Earliest (fun a b => rank a < rank b) items best)
    (hitem : rank best < rank item) :
    Earliest (fun a b => rank a < rank b) (item :: items) best := by
  obtain ⟨before, after, hitems, hbefore⟩ := h.first
  constructor
  case unpreceded => exact List.forall_mem_cons.mpr ⟨hitem.not_gt, h.unpreceded⟩
  case first =>
    refine ⟨item :: before, after, ?_, List.forall_mem_cons.mpr ⟨hitem, hbefore⟩⟩
    rw [hitems, List.cons_append]

/-- An element that is no better than the first one may be put behind it. -/
theorem insert (h : Earliest (fun a b => rank a < rank b) (head :: items) best)
    (hitem : rank head ≤ rank item) :
    Earliest (fun a b => rank a < rank b) (head :: item :: items) best := by
  obtain ⟨hhead, hrest⟩ := List.forall_mem_cons.mp h.unpreceded
  have hitem' : rank best ≤ rank item := (not_lt.mp hhead).trans hitem
  constructor
  case unpreceded =>
    exact List.forall_mem_cons.mpr ⟨hhead, List.forall_mem_cons.mpr ⟨hitem'.not_gt, hrest⟩⟩
  case first =>
    obtain ⟨before, after, hitems, hbefore⟩ := h.first
    cases before with
    | nil =>
        obtain ⟨rfl, rfl⟩ := List.cons.inj hitems
        exact ⟨[], item :: items, rfl, hbefore⟩
    | cons first before =>
        obtain ⟨rfl, rfl⟩ := List.cons.inj hitems
        obtain ⟨hfirst, hbefore⟩ := List.forall_mem_cons.mp hbefore
        exact ⟨head :: item :: before, after, rfl, List.forall_mem_cons.mpr
          ⟨hfirst, List.forall_mem_cons.mpr ⟨hfirst.trans_le hitem, hbefore⟩⟩⟩

end Earliest

/-- The earliest of the elements that no element precedes, or null where there are none. -/
inductive Extreme (precedes : Value → Value → Prop) : List Value → Value → Prop
  | none : Extreme precedes [] .null
  | some {items : List Value} {best : Value} :
      Earliest precedes items best → Extreme precedes items best

theorem Extreme.eq_null_iff {precedes : Value → Value → Prop} {items : List Value} {best : Value}
    (h : Extreme precedes items best) (hnull : ∀ item ∈ items, item ≠ .null) :
    best = .null ↔ items = [] := by
  cases h with
  | none => exact ⟨fun _ => rfl, fun _ => rfl⟩
  | some hbest =>
      have hmem := hbest.mem
      exact ⟨fun heq => absurd heq (hnull best hmem), fun heq => absurd (heq ▸ hmem) (by simp)⟩

/-!
## Ranks of elements
-/

/-- The elements are all exact numbers, of any kinds, or they are all texts. -/
def AllOrdered (items : List Value) : Prop :=
  (∀ item ∈ items, ∃ x, item.exactNumber? = some x) ∨ ∀ item ∈ items, ∃ s, item = .string s

theorem AllOrdered.ne_null {items : List Value} (h : AllOrdered items) :
    ∀ item ∈ items, item ≠ .null := by
  rintro item hitem rfl
  rcases h with hnumbers | htexts
  · obtain ⟨x, hx⟩ := hnumbers .null hitem
    cases hx
  · obtain ⟨s, hs⟩ := htexts .null hitem
    cases hs

namespace Heap

variable {heap : Heap} {rank : Value → K} {items : List Value} {a b : Value}

/-- Comparisons of the elements compare their ranks. -/
def RankedBy (heap : Heap) (rank : Value → K) (items : List Value) : Prop :=
  ∀ a ∈ items, ∀ b ∈ items, heap.OrdersBy a b (.ok (cmp (rank a) (rank b)))

theorem rankedBy_of_exactNumber? (heap : Heap)
    (hitems : ∀ item ∈ items, ∃ x, item.exactNumber? = some x) :
    heap.RankedBy (fun item => item.exactNumber?.getD 0) items := by
  intro a ha b hb
  obtain ⟨x, hx⟩ := hitems a ha
  obtain ⟨y, hy⟩ := hitems b hb
  change heap.OrdersBy a b (.ok (cmp (a.exactNumber?.getD 0) (b.exactNumber?.getD 0)))
  rw [hx, hy, Option.getD_some, Option.getD_some]
  constructor
  case compare => exact fun op => heap.compare_of_exactNumber? op hx hy
  case equals =>
    have heq : decide (x = y) = (cmp x y == .eq) := by
      rw [beq_eq_decide]
      exact decide_eq_decide.mpr (cmp_eq_eq_iff x y).symm
    rw [heap.equals_of_exactNumber? hx hy, heq]
    rfl

theorem rankedBy_of_text (heap : Heap) (hitems : ∀ item ∈ items, ∃ s, item = .string s) :
    heap.RankedBy heap.text items := by
  intro a ha b hb
  obtain ⟨s, rfl⟩ := hitems a ha
  obtain ⟨t, rfl⟩ := hitems b hb
  have hsuits (s t : String) : (Value.string s).SuitsBeside (.string t) :=
    ⟨rfl, rfl, fun _ => rfl, fun h => nomatch h⟩
  have hkind : Comparand.of (.string s) (.string t) = .text := by
    simp [Comparand.of_eq, Value.isFloating, Value.isNumber, Value.isBigInteger,
      Value.isBigDecimal, Value.isIntegral, Value.isChar, Value.isText]
  rw [cmp_eq_compare]
  exact ordersBy_text (hsuits s t) (hsuits t s) hkind (.inl rfl)

theorem exists_rankedBy (heap : Heap) (hordered : AllOrdered items) :
    ∃ (K : Type) (_ : LinearOrder K) (rank : Value → K), heap.RankedBy rank items := by
  rcases hordered with hnumbers | htexts
  · exact ⟨ℚ, inferInstance, _, heap.rankedBy_of_exactNumber? hnumbers⟩
  · exact ⟨String, inferInstance, _, heap.rankedBy_of_text htexts⟩

namespace RankedBy

theorem holds_lt (h : heap.RankedBy rank items) (ha : a ∈ items) (hb : b ∈ items) :
    heap.Holds .lt a b ↔ rank a < rank b := by
  rw [(h a ha b hb).holds_iff (by decide), BinaryOp.accepts, beq_iff_eq, cmp_eq_lt_iff]

theorem holds_eq (h : heap.RankedBy rank items) (ha : a ∈ items) (hb : b ∈ items) :
    heap.Holds .eq a b ↔ rank a = rank b := by
  rw [(h a ha b hb).holds_iff (by decide), BinaryOp.accepts, beq_iff_eq, cmp_eq_eq_iff]

theorem order_eq {world : World} (h : world.heap.RankedBy rank items) (ha : a ∈ items)
    (hb : b ∈ items) : Collection.order none a b world = .ok (cmp (rank a) (rank b)) world := by
  unfold Collection.order
  dsimp only
  rw [World.heapNow_bind, (h a ha b hb).compare]
  rfl

end RankedBy

/-- The elements in ascending order, equal ones in the order in which they were. -/
structure SortsStably (heap : Heap) (items sorted : List Value) : Prop where
  perm : sorted.Perm items
  ascending : sorted.Pairwise fun a b => ¬ heap.Holds .lt b a
  stable : ∀ part : List Value,
    part.Sublist items → part.Pairwise (heap.Holds .eq) → part.Sublist sorted

end Heap

/-!
## Runs of the methods
-/

section Runs

variable {world : World} {rank : Value → K} {items : List Value}

/-- The order in which sorted elements are held while others are placed among them. -/
def Descending (rank : Value → K) (a b : Value) : Prop := rank b ≤ rank a

instance (rank : Value → K) : DecidableRel (Descending rank) :=
  fun a b => inferInstanceAs (Decidable (rank b ≤ rank a))

instance (rank : Value → K) : Std.Total (Descending rank) :=
  ⟨fun a b => le_total (rank b) (rank a)⟩

instance (rank : Value → K) : IsTrans Value (Descending rank) :=
  ⟨fun _ _ _ hab hbc => le_trans hbc hab⟩

namespace Collection

/-- Placing an element is the insertion into a sorted list, by rank. -/
theorem place_eq (h : world.heap.RankedBy rank items) {item : Value} (hitem : item ∈ items)
    (failure : Option EvalError) {reversed : List Value} (hreversed : reversed ⊆ items) :
    place none item failure reversed world =
      .ok ⟨reversed.orderedInsert (Descending rank) item, failure⟩ world := by
  induction reversed with
  | nil => rfl
  | cons greatest rest ih =>
      obtain ⟨hgreatest, hrest⟩ := List.cons_subset.mp hreversed
      have horder : (order none item greatest).attempt world =
          .ok (.ok (cmp (rank item) (rank greatest))) world := by
        rw [Action.attempt, h.order_eq hitem hgreatest]
      rw [place, Resolver.bind_of_ok horder]
      cases hcmp : cmp (rank item) (rank greatest) with
      | lt =>
          have hlt : ¬ Descending rank item greatest :=
            ((cmp_eq_lt_iff _ _).mp hcmp).not_ge
          rw [List.orderedInsert_of_not_le _ rest hlt]
          dsimp only
          rw [Resolver.bind_of_ok (ih hrest)]
          rfl
      | eq =>
          have hle : Descending rank item greatest := ((cmp_eq_eq_iff _ _).mp hcmp).ge
          rw [List.orderedInsert_cons_of_le _ rest hle]
          rfl
      | gt =>
          have hle : Descending rank item greatest := ((cmp_eq_gt_iff _ _).mp hcmp).le
          rw [List.orderedInsert_cons_of_le _ rest hle]
          rfl

/-- The induction is on the elements that are not placed yet. -/
theorem foldlM_place_eq (h : world.heap.RankedBy rank items) {unsorted reversed : List Value}
    (hunsorted : unsorted ⊆ items) (hreversed : reversed ⊆ items) :
    unsorted.foldlM (fun sorting item => place none item sorting.failure sorting.reversed)
        ⟨reversed, none⟩ world =
      .ok ⟨unsorted.foldl (fun sorted item => sorted.orderedInsert (Descending rank) item) reversed,
        none⟩ world := by
  induction unsorted generalizing reversed with
  | nil => rfl
  | cons item rest ih =>
      obtain ⟨hitem, hrest⟩ := List.cons_subset.mp hunsorted
      have hplaced : reversed.orderedInsert (Descending rank) item ⊆ items := by
        intro x hx
        rcases (List.mem_orderedInsert _).mp hx with rfl | hx
        · exact hitem
        · exact hreversed hx
      rw [List.foldlM_cons, Resolver.bind_of_ok (place_eq h hitem none hreversed)]
      exact ih hrest hplaced

/-- The elements by rank, those of one rank as they stand.  An insertion sort begins with the last
element, so it is given the elements from the last to the first. -/
def byRank (rank : Value → K) (items : List Value) : List Value :=
  (items.reverse.insertionSort (Descending rank)).reverse

theorem sorted_eq (h : world.heap.RankedBy rank items) :
    sorted none items world = .ok (byRank rank items) world := by
  have hfold : items.foldl (fun sorted item => sorted.orderedInsert (Descending rank) item) [] =
      items.reverse.insertionSort (Descending rank) := List.foldl_eq_foldr_reverse
  have hplaced := foldlM_place_eq h (List.Subset.refl items) (List.nil_subset items)
  rw [hfold] at hplaced
  rw [sorted, Resolver.bind_of_ok hplaced]
  rfl

/-- A search among elements that the comparison sorts by priority. -/
theorem exists_extreme (priority : Value → K) (wanted : Ordering)
    (hpriority : ∀ a ∈ items, ∀ b ∈ items, ∃ here, order none a b world = .ok here world ∧
      (here = wanted ↔ priority a < priority b))
    {best : Value} {rest : List Value} (hsub : best :: rest ⊆ items) :
    ∃ found, extreme none wanted best rest world = .ok found world ∧
      Earliest (fun a b => priority a < priority b) (best :: rest) found := by
  induction rest generalizing best with
  | nil => exact ⟨best, rfl, .singleton⟩
  | cons item rest ih =>
      obtain ⟨hbest, hothers⟩ := List.cons_subset.mp hsub
      obtain ⟨hitem, hrest⟩ := List.cons_subset.mp hothers
      obtain ⟨here, horder, hwanted⟩ := hpriority item hitem best hbest
      rw [extreme, Resolver.bind_of_ok horder]
      by_cases hbetter : here = wanted
      · obtain ⟨found, hrun, hfound⟩ := ih hothers
        rw [if_pos hbetter]
        have hle : priority found ≤ priority item := not_lt.mp
          (hfound.unpreceded item List.mem_cons_self)
        exact ⟨found, hrun, hfound.cons (hle.trans_lt (hwanted.mp hbetter))⟩
      · obtain ⟨found, hrun, hfound⟩ := ih (List.cons_subset.mpr ⟨hbest, hrest⟩)
        rw [if_neg hbetter]
        exact ⟨found, hrun, hfound.insert (not_lt.mp fun hlt => hbetter (hwanted.mpr hlt))⟩

theorem exists_searched (priority : Value → K) (wanted : Ordering)
    {precedes : Value → Value → Prop}
    (hpriority : ∀ a ∈ items, ∀ b ∈ items, ∃ here, order none a b world = .ok here world ∧
      (here = wanted ↔ priority a < priority b))
    (hprecedes : ∀ a ∈ items, ∀ b ∈ items, (priority a < priority b ↔ precedes a b)) :
    ∃ found, (match items with
      | [] => return .null
      | head :: rest => extreme none wanted head rest : Action Value) world = .ok found world ∧
        Extreme precedes items found := by
  cases items with
  | nil => exact ⟨.null, rfl, .none⟩
  | cons head rest =>
      obtain ⟨found, hrun, hfound⟩ :=
        exists_extreme priority wanted hpriority (List.Subset.refl (head :: rest))
      exact ⟨found, hrun, .some (hfound.congr hprecedes)⟩

end Collection
end Runs

namespace Heap.RankedBy

variable {heap : Heap} {rank : Value → K} {items : List Value}

theorem sortsStably (h : heap.RankedBy rank items) :
    heap.SortsStably items (Collection.byRank rank items) := by
  have hperm : (Collection.byRank rank items).Perm items :=
    (List.reverse_perm _).trans ((List.perm_insertionSort _ _).trans (List.reverse_perm _))
  constructor
  case perm => exact hperm
  case ascending =>
    have hdescending := List.pairwise_insertionSort (Descending rank) items.reverse
    refine (List.pairwise_reverse.mpr hdescending).imp_of_mem ?_
    intro a b ha hb hle
    rw [h.holds_lt (hperm.subset hb) (hperm.subset ha)]
    exact not_lt_of_ge hle
  case stable =>
    intro part hpart heq
    have hdescending : part.reverse.Pairwise (Descending rank) := by
      refine List.pairwise_reverse.mpr (heq.imp_of_mem ?_)
      intro a b ha hb hab
      exact ((h.holds_eq (hpart.subset ha) (hpart.subset hb)).mp hab).le
    have hsub := List.sublist_insertionSort hdescending hpart.reverse
    rw [← part.reverse_reverse]
    exact hsub.reverse

/-- The elements of one rank stand in the sorted elements as they stand among all. -/
theorem filter_eq (h : heap.RankedBy rank items) {sorted : List Value}
    (hsorted : heap.SortsStably items sorted) (r : K) :
    items.filter (rank · = r) = sorted.filter (rank · = r) := by
  have hequal : (items.filter (rank · = r)).Pairwise (heap.Holds .eq) := by
    refine List.pairwise_of_forall_mem_list fun a ha b hb => ?_
    obtain ⟨ha, hra⟩ := List.mem_filter.mp ha
    obtain ⟨hb, hrb⟩ := List.mem_filter.mp hb
    rw [h.holds_eq ha hb, of_decide_eq_true hra, of_decide_eq_true hrb]
  have hsub := (hsorted.stable _ List.filter_sublist hequal).filter (rank · = r)
  simp only [List.filter_filter, Bool.and_self] at hsub
  exact hsub.eq_of_length (hsorted.perm.filter _).length_eq.symm

/-- The earliest of the least elements is the first one of the sorted elements: only elements of
its rank may come first there. -/
theorem eq_head (h : heap.RankedBy rank items) {head best : Value} {rest : List Value}
    (hsorted : heap.SortsStably items (head :: rest))
    (hbest : Earliest (heap.Holds .lt) items best) : best = head := by
  have hhead : head ∈ items := hsorted.perm.subset List.mem_cons_self
  have hle : rank best ≤ rank head :=
    not_lt.mp ((h.holds_lt hhead hbest.mem).not.mp (hbest.unpreceded head hhead))
  have hge : rank head ≤ rank best := by
    rcases List.mem_cons.mp (hsorted.perm.symm.subset hbest.mem) with rfl | hlater
    · exact le_rfl
    · have hnot := (List.pairwise_cons.mp hsorted.ascending).1 best hlater
      exact not_lt.mp ((h.holds_lt hbest.mem hhead).not.mp hnot)
  obtain ⟨before, after, hitems, hbefore⟩ := hbest.first
  have hnone : before.filter (rank · = rank best) = [] := by
    refine List.filter_eq_nil_iff.mpr fun x hx => decide_eq_true_iff.not.mpr ?_
    have hmem : x ∈ items := by
      rw [hitems]
      exact List.mem_append_left (best :: after) hx
    exact ((h.holds_lt hbest.mem hmem).mp (hbefore x hx)).ne'
  have hequal := h.filter_eq hsorted (rank best)
  rw [hitems, List.filter_append, hnone, List.nil_append, List.filter_cons, List.filter_cons,
    if_pos (decide_eq_true rfl), if_pos (decide_eq_true (hge.antisymm hle))] at hequal
  exact (List.cons.inj hequal).1

end Heap.RankedBy

/-!
## The methods
-/

namespace Heap

/-- What `sorted`, `min` and `max` find in elements of which any two can be compared. -/
structure Finds (heap : Heap) (items sorted : List Value) (least greatest : Value) : Prop where
  compares : ∀ a ∈ items, ∀ b ∈ items, heap.Trichotomy a b
  sorts : heap.SortsStably items sorted
  least_eq_head : least = sorted.headD .null
  least_extreme : Extreme (heap.Holds .lt) items least
  greatest_extreme : Extreme (fun a b => heap.Holds .lt b a) items greatest
  least_null : least = .null ↔ items = []
  greatest_null : greatest = .null ↔ items = []

end Heap

namespace Collection

variable {world : World} {rank : Value → K} {items : List Value}

/-- The extremes of ranked elements, and the elements by rank. -/
theorem exists_finds (h : world.heap.RankedBy rank items) (hnull : ∀ item ∈ items, item ≠ .null)
    (services : Services) : ∃ sorted least greatest,
      run services .sorted "sorted" items [] world =
        .ok (.list world.heap.sequences.size)
          { world with heap := (world.heap.addSequence sorted).2 } ∧
      run services .min "min" items [] world = .ok least world ∧
      run services .max "max" items [] world = .ok greatest world ∧
      world.heap.Finds items sorted least greatest := by
  obtain ⟨least, hmin, hleast⟩ := exists_searched rank .lt
    (fun a ha b hb => ⟨_, h.order_eq ha hb, cmp_eq_lt_iff _ _⟩)
    (fun a ha b hb => (h.holds_lt ha hb).symm)
  -- the greatest element is the least one in the dual order
  obtain ⟨greatest, hmax, hgreatest⟩ := exists_searched (fun x => OrderDual.toDual (rank x)) .gt
    (fun a ha b hb => ⟨_, h.order_eq ha hb, cmp_eq_gt_iff _ _⟩)
    (fun a ha b hb => (h.holds_lt hb ha).symm)
  have hsorts := h.sortsStably
  have hsorted : run services .sorted "sorted" items [] world =
      (World.newList (byRank rank items)) world := Resolver.bind_of_ok (sorted_eq h)
  have hhead : least = (byRank rank items).headD .null := by
    cases hleast with
    | none => rfl
    | some hbest =>
        generalize byRank rank items = sorted at hsorts
        cases sorted with
        | nil => exact absurd (hsorts.perm.symm.subset hbest.mem) List.not_mem_nil
        | cons head rest => exact h.eq_head hsorts hbest
  exact ⟨byRank rank items, least, greatest, hsorted, hmin, hmax,
    { compares := fun a ha b hb => (h a ha b hb).trichotomy
      sorts := hsorts
      least_eq_head := hhead
      least_extreme := hleast
      greatest_extreme := hgreatest
      least_null := hleast.eq_null_iff hnull
      greatest_null := hgreatest.eq_null_iff hnull }⟩

end Collection

namespace Evaluation

open Resolver

variable {context : Context} {options : ResolverOptions}

/-- In a collection of exact numbers of any kinds, or of texts, `sorted` finds a new list with the
elements in ascending order, where equal ones stand as they did, `min` the first of these and the
earliest of the least elements, and `max` the earliest of those that are not less than any other.
The extremes are null for a collection without elements only, and the collection itself keeps its
elements, as do all others. -/
theorem sorted_min_max_agree (hresolver : context.resolver = chain (standard options))
    (deeper : Deeper) {world : World} {base : Value} {items : List Value}
    (hitems : world.heap.items? base = some items) (hordered : AllOrdered items) :
    ∃ sorted least greatest heap,
      invokeMethod context deeper base "sorted" [] world =
        .ok (.list world.heap.sequences.size) { world with heap } ∧
      heap.items? (.list world.heap.sequences.size) = some sorted ∧
      heap.items? base = some items ∧ world.heap.Extends heap ∧
      invokeMethod context deeper base "min" [] world = .ok least world ∧
      invokeMethod context deeper base "max" [] world = .ok greatest world ∧
      world.heap.Finds items sorted least greatest := by
  obtain ⟨K, _, rank, hranked⟩ := world.heap.exists_rankedBy hordered
  obtain ⟨sorted, least, greatest, hsorted, hmin, hmax, hfinds⟩ :=
    Collection.exists_finds hranked hordered.ne_null (services context deeper)
  have hnil : items = [] → sorted = [] := by
    rintro rfl
    exact hfinds.sorts.perm.eq_nil
  refine ⟨sorted, least, greatest, (world.heap.addSequence sorted).2, ?_, ?_,
    Heap.items?_addSequence hitems hnil, world.heap.extends_addSequence sorted, ?_, ?_, hfinds⟩
  · rw [invokeMethod_collection hresolver hitems rfl (by decide) (by decide)]
    exact hsorted
  · exact congrArg some (Heap.sequence_size_of_extends (.refl _))
  · rw [invokeMethod_collection hresolver hitems rfl (by decide) (by decide)]
    exact hmin
  · rw [invokeMethod_collection hresolver hitems rfl (by decide) (by decide)]
    exact hmax

/-- The decimal one stands before the integer one, so it is sorted before it and is the least
element, and of two threes the earlier one is the greatest element. -/
theorem mixed_numbers_sorted :
    let one : Value := .bigDecimal ⟨10, 1⟩
    let items : List Value := [.long 2, one, .byte 1, .bigInteger 3, .long 3]
    let sorted : List Value := [one, .byte 1, .long 2, .bigInteger 3, .long 3]
    let world : World := { (default : World) with heap := (Heap.empty.addSequence items).2 }
    let call (method : String) : Action Value :=
      invokeMethod (.standard {}) (within (.standard {}) 1) (.list 0) method []
    call "sorted" world =
        .ok (.list 1) { world with heap := (world.heap.addSequence sorted).2 } ∧
      call "min" world = .ok one world ∧ call "max" world = .ok (.bigInteger 3) world ∧
      world.heap.Finds items sorted one (.bigInteger 3) := by
  intro one items sorted world call
  have hordered : AllOrdered items := by
    refine .inl fun item hitem => ?_
    simp only [items, List.mem_cons, List.not_mem_nil, or_false] at hitem
    rcases hitem with rfl | rfl | rfl | rfl | rfl <;> exact ⟨_, rfl⟩
  have hresolver : (Context.standard {}).resolver = chain (standard {}) := rfl
  have hitems : world.heap.items? (.list 0) = some items := rfl
  obtain ⟨found, least, greatest, heap, hsorted, hfound, -, -, hmin, hmax, hfinds⟩ :=
    sorted_min_max_agree hresolver (within (.standard {}) 1) hitems hordered
  have hrun : call "sorted" world =
      .ok (.list 1) { world with heap := (world.heap.addSequence sorted).2 } := rfl
  have hleast : call "min" world = .ok one world := rfl
  have hgreatest : call "max" world = .ok (.bigInteger 3) world := rfl
  cases hsorted.symm.trans hrun
  cases hmin.symm.trans hleast
  cases hmax.symm.trans hgreatest
  cases hfound
  exact ⟨hrun, hleast, hgreatest, hfinds⟩

end Evaluation
end ExprLang
