import Mathlib.Data.List.DropRight
import ExprLang.Proofs.Collection.Methods
import ExprLang.Proofs.Operator.Exactness
import ExprLang.Proofs.Operator.Order

/-!
# Sums of the elements

The sum of a collection adds one element after the other.  Each addition is carried out in the kind
of numbers that the sum so far and the element have in common: in 64 bits as long as all elements
are integers of a fixed width, and exactly from the first larger number on.  Null makes the sum zero
again.  So the order of the elements matters in two ways only: where null stands among them, and
whether the integers that stand in front of the first larger number have room in 64 bits.
-/

namespace ExprLang

namespace Value

/-- An integer of any width, a decimal, or null. -/
def IsSummand (value : Value) : Prop := value = null ∨ ∃ x, value.exactNumber? = some x

/-- The number of a summand; null counts as zero. -/
def summand (value : Value) : ℚ := value.exactNumber?.getD 0

/-- An integer of any size or a decimal. -/
def isLarge (value : Value) : Bool := value.isBigInteger || value.isBigDecimal

end Value

section Kinds

variable {value : Value} {x : ℚ}

theorem Value.eq_null_of_isNull (h : value.isNull) : value = .null := by
  cases value <;> first | rfl | cases h

theorem Value.IsSummand.exists_number (h : value.IsSummand) (hne : value ≠ .null) :
    ∃ x, value.exactNumber? = some x :=
  h.resolve_left hne

theorem Value.summand_eq (h : value.exactNumber? = some x) : value.summand = x := by
  rw [summand, h, Option.getD_some]

theorem Value.isLarge_iff (h : value.exactNumber? = some x) :
    value.isLarge ↔ ¬ value.isIntegral := by
  cases value with
  | byte | short | int | long | bigInteger | bigDecimal =>
      simp [isLarge, isBigInteger, isBigDecimal, isIntegral]
  | _ => cases h

theorem Value.isNull_of_isIntegral (h : value.isIntegral) : value.isNull = false := by
  cases value <;> first | rfl | cases h

/-- An integer of a fixed width has room in 64 bits. -/
theorem Value.exists_int_of_isIntegral (h : value.isIntegral) : ∃ n : Int,
    value.exactNumber? = some (n : ℚ) ∧ -2 ^ 63 ≤ n ∧ n < 2 ^ 63 := by
  cases value with
  | byte n | short n | int n | long n =>
      have hlow := n.le_toInt
      have hhigh := n.toInt_lt
      exact ⟨_, rfl, by omega, by omega⟩
  | _ => cases h

end Kinds

namespace Collection

/-- The sum of the numbers, whatever their kinds. -/
def numbers (items : List Value) : ℚ := (items.map Value.summand).sum

/-- The elements behind the last null. -/
def counted (items : List Value) : List Value := items.rtakeWhile (!·.isNull)

/-- What a summation in the given order comes to.  It forgets what stands in front of the last
null and keeps 64 bits of the integers in front of the first larger number. -/
def sumOf (items : List Value) : ℚ :=
  Conversion.long.kept (numbers ((counted items).takeWhile Value.isIntegral)) +
    numbers ((counted items).dropWhile Value.isIntegral)

/-- Elements that come to the same sum in every order. -/
structure OrderFree (items : List Value) : Prop where
  null : .null ∈ items → ∀ item ∈ items, item.summand = 0
  room : (∃ item ∈ items, item.isLarge) → ∀ part : List Value, part.Sublist items →
    (∀ item ∈ part, item.isIntegral) → -2 ^ 63 ≤ numbers part ∧ numbers part < 2 ^ 63

end Collection

/-!
## Sixty-four bits
-/

namespace Conversion

theorem kept_long_intCast (n : Int) : long.kept n = (n.bmod (2 ^ 64) : Int) := by
  rw [kept, if_pos rfl, Int.floor_intCast]

theorem kept_long_bounds (x : ℚ) : -2 ^ 63 ≤ long.kept x ∧ long.kept x < 2 ^ 63 := by
  have hlow := Int.le_bmod (x := ⌊x⌋) (m := 2 ^ 64) (by decide)
  have hhigh := Int.bmod_lt (x := ⌊x⌋) (m := 2 ^ 64) (by decide)
  rw [kept, if_pos rfl]
  constructor
  · exact_mod_cast hlow
  · exact_mod_cast hhigh

theorem kept_long_of_bounds {n : Int} (hlow : (-2 ^ 63 : ℚ) ≤ n) (hhigh : (n : ℚ) < 2 ^ 63) :
    long.kept n = n := by
  have hlow' : -2 ^ 63 ≤ n := by exact_mod_cast hlow
  have hhigh' : n < 2 ^ 63 := by exact_mod_cast hhigh
  rw [kept_long_intCast, Int.bmod_eq_of_le (by omega) (by omega)]

/-- Bits that are lost now are not missed later. -/
theorem kept_long_add (x : ℚ) (n : Int) : long.kept (long.kept x + n) = long.kept (x + n) := by
  simp only [kept, if_pos, Int.floor_add_intCast, Int.floor_intCast, Int.bmod_add_bmod]

end Conversion

/-!
## One addition
-/

section Addition

variable {heap : Heap} {acc item : Value} {x y : ℚ} {kind : Conversion}

theorem Conversion.Holds.exactNumber? (h : kind.Holds acc x) : acc.exactNumber? = some x := by
  cases h <;> rfl

theorem Conversion.Holds.isIntegral (h : Conversion.long.Holds acc x) : acc.isIntegral := by
  cases h
  rfl

theorem Conversion.of_integral (hacc : acc.isIntegral) (hitem : item.isIntegral) :
    of acc item = .long := by
  cases acc <;> cases hacc <;> cases item <;> cases hitem <;> rfl

theorem Conversion.of_ne_long (hlarge : acc.isLarge ∨ item.isLarge) : of acc item ≠ .long := by
  unfold of Value.isLarge at *
  grind

/-- A kind with room for larger numbers than 64 bits has larger numbers only. -/
theorem Conversion.Holds.isLarge (h : kind.Holds acc x) (hkind : kind ≠ .long) : acc.isLarge := by
  cases h with
  | long => exact absurd rfl hkind
  | bigInteger => rfl
  | bigDecimal => rfl

namespace Heap

theorem add_null (heap : Heap) (acc : Value) : heap.arithmetic .add acc .null = .ok (.long 0) := by
  have hkind : Conversion.of acc .null = .zero := by
    unfold Conversion.of
    rw [show Value.null.isNull = true from rfl, Bool.or_true, if_pos rfl]
  rw [arithmetic, Arithmetic.conversion_of_ne_div (by decide), hkind]

theorem exists_add (heap : Heap) (hacc : acc.exactNumber? = some x)
    (hitem : item.exactNumber? = some y) :
    ∃ sum, heap.arithmetic .add acc item = .ok sum ∧
      (Conversion.of acc item).Holds sum ((Conversion.of acc item).kept (x + y)) := by
  have hadd : Arithmetic.add ≠ .div := by decide
  have hanswers := arithmetic_answers heap hadd
    (Value.traits_of_exactNumber? hacc).not_floating
    (Value.traits_of_exactNumber? hitem).not_floating
    (comparand_of_exactNumber? hacc hitem).1
  have hcomputes := hanswers.computes x y (Value.number?_of_exactNumber? hacc _)
    (Value.number?_of_exactNumber? hitem _)
  generalize heap.arithmetic .add acc item = answer at hcomputes
  cases hcomputes with
  | add hsum => exact ⟨_, rfl, hsum⟩

/-- Integers of fixed widths are added in 64 bits. -/
theorem exists_add_integral (heap : Heap) (hacc : acc.isIntegral) (hx : acc.exactNumber? = some x)
    (hitem : item.isIntegral) (hy : item.exactNumber? = some y) :
    ∃ sum, heap.arithmetic .add acc item = .ok sum ∧ sum.isIntegral ∧
      sum.exactNumber? = some (Conversion.long.kept (x + y)) := by
  obtain ⟨sum, hsum, hholds⟩ := heap.exists_add hx hy
  rw [Conversion.of_integral hacc hitem] at hholds
  exact ⟨sum, hsum, hholds.isIntegral, hholds.exactNumber?⟩

/-- With a larger number the sum is exact and is a larger number itself. -/
theorem exists_add_large (heap : Heap) (hx : acc.exactNumber? = some x)
    (hy : item.exactNumber? = some y) (hlarge : acc.isLarge ∨ item.isLarge) :
    ∃ sum, heap.arithmetic .add acc item = .ok sum ∧ sum.isLarge ∧
      sum.exactNumber? = some (x + y) := by
  obtain ⟨sum, hsum, hholds⟩ := heap.exists_add hx hy
  have hkind := Conversion.of_ne_long hlarge
  refine ⟨sum, hsum, hholds.isLarge hkind, ?_⟩
  rw [hholds.exactNumber?, Conversion.kept, if_neg hkind]

end Heap
end Addition

/-!
## The summation
-/

namespace Collection

variable {heap : Heap} {items : List Value} {item : Value}

theorem numbers_append (items more : List Value) :
    numbers (items ++ more) = numbers items + numbers more := by
  simp [numbers]

theorem numbers_cons (item : Value) (items : List Value) :
    numbers (item :: items) = item.summand + numbers items := by
  simp [numbers]

theorem numbers_nil : numbers [] = 0 := rfl

theorem numbers_perm {items' : List Value} (h : items.Perm items') :
    numbers items = numbers items' :=
  (h.map _).sum_eq

theorem numbers_takeWhile_add (items : List Value) (p : Value → Bool) :
    numbers (items.takeWhile p) + numbers (items.dropWhile p) = numbers items := by
  rw [← numbers_append, List.takeWhile_append_dropWhile]

/-- The sum so far adds in 64 bits. -/
def InWords (items : List Value) : Prop := ∀ item ∈ counted items, item.isIntegral

theorem counted_concat_null (items : List Value) : counted (items ++ [.null]) = [] :=
  List.rtakeWhile_concat_neg _ _ _ (by decide)

theorem counted_concat (hitem : item.isNull = false) :
    counted (items ++ [item]) = counted items ++ [item] :=
  List.rtakeWhile_concat_pos _ _ _ (by rw [hitem]; rfl)

theorem sumOf_of_counted_nil (h : counted items = []) : sumOf items = 0 := by
  rw [sumOf, h, List.takeWhile_nil, List.dropWhile_nil, numbers_nil, add_zero]
  exact Conversion.kept_long_intCast 0

theorem sumOf_concat_null (items : List Value) : sumOf (items ++ [.null]) = 0 :=
  sumOf_of_counted_nil (counted_concat_null items)

theorem sumOf_of_inWords (h : InWords items) :
    sumOf items = Conversion.long.kept (numbers (counted items)) := by
  rw [sumOf, List.takeWhile_eq_self_iff.mpr h, List.dropWhile_eq_nil_iff.mpr h, numbers_nil,
    add_zero]

/-- From the first larger number on the summation is exact. -/
theorem sumOf_concat_exact (hitem : item.isNull = false)
    (hexact : InWords items → item.isIntegral = false) :
    sumOf (items ++ [item]) = sumOf items + item.summand := by
  obtain ⟨htake, hdrop⟩ : (counted items ++ [item]).takeWhile Value.isIntegral =
        (counted items).takeWhile Value.isIntegral ∧
      (counted items ++ [item]).dropWhile Value.isIntegral =
        (counted items).dropWhile Value.isIntegral ++ [item] := by
    rw [List.takeWhile_append, List.dropWhile_append]
    by_cases hwords : InWords items
    · rw [List.takeWhile_eq_self_iff.mpr hwords, List.dropWhile_eq_nil_iff.mpr hwords]
      simp [hexact hwords]
    · have hlength : ((counted items).takeWhile Value.isIntegral).length ≠
          (counted items).length := fun hlength =>
        hwords (List.takeWhile_eq_self_iff.mp
          ((List.takeWhile_sublist _).eq_of_length hlength))
      have hrest : ((counted items).dropWhile Value.isIntegral).isEmpty = false :=
        List.isEmpty_eq_false_iff.mpr (mt List.dropWhile_eq_nil_iff.mp hwords)
      rw [if_neg hlength, hrest, if_neg Bool.false_ne_true]
      exact ⟨rfl, rfl⟩
  rw [sumOf, counted_concat hitem, htake, hdrop, numbers_append, numbers_cons, numbers_nil,
    add_zero, ← add_assoc]
  rfl

theorem inWords_concat (hitem : item.isNull = false) :
    InWords (items ++ [item]) ↔ InWords items ∧ item.isIntegral := by
  rw [InWords, counted_concat hitem, List.forall_mem_append, List.forall_mem_singleton]
  rfl

theorem sumOf_concat_word (hwords : InWords items) (hitem : item.isIntegral) :
    sumOf (items ++ [item]) = Conversion.long.kept (sumOf items + item.summand) := by
  have hnull := Value.isNull_of_isIntegral hitem
  obtain ⟨n, hn, -⟩ := Value.exists_int_of_isIntegral hitem
  rw [Value.summand_eq hn]
  rw [sumOf_of_inWords hwords, sumOf_of_inWords ((inWords_concat hnull).mpr ⟨hwords, hitem⟩),
    counted_concat hnull, numbers_append, numbers_cons, numbers_nil, add_zero,
    Value.summand_eq hn, Conversion.kept_long_add]

/-- Behind null the summation begins with the next number. -/
theorem sumOf_concat_null_one (hitem : item.IsSummand) (hne : item ≠ .null)
    (items : List Value) : sumOf (items ++ [.null] ++ [item]) = item.summand := by
  obtain ⟨x, hx⟩ := hitem.exists_number hne
  have hwords : InWords (items ++ [.null]) := by
    rw [InWords, counted_concat_null]
    exact nofun
  by_cases hintegral : item.isIntegral
  · obtain ⟨n, hn, hlow, hhigh⟩ := Value.exists_int_of_isIntegral hintegral
    rw [sumOf_concat_word hwords hintegral, sumOf_concat_null, zero_add, Value.summand_eq hn]
    exact Conversion.kept_long_of_bounds (by exact_mod_cast hlow) (by exact_mod_cast hhigh)
  · rw [sumOf_concat_exact (Value.traits_of_exactNumber? hx).not_null
      fun _ => Bool.eq_false_iff.mpr hintegral, sumOf_concat_null, zero_add]

theorem total_concat (heap : Heap) (items : List Value) (item : Value) :
    total heap (items ++ [item]) =
      total heap items >>= fun acc => heap.arithmetic .add acc item := by
  rw [total, List.foldlM_append]
  simp only [List.foldlM_cons, List.foldlM_nil, bind_pure]
  rfl

/-- A value that a summation of the elements may have come to: it has the number, and it is an
integer of a fixed width as long as the summation adds in 64 bits. -/
structure Carries (items : List Value) (sum : Value) : Prop where
  number : sum.exactNumber? = some (sumOf items)
  kind : sum.isIntegral ↔ InWords items

/-- One more element. -/
theorem Carries.concat {acc : Value} (h : Carries items acc) (hitem : item.IsSummand)
    (heap : Heap) :
    ∃ sum, heap.arithmetic .add acc item = .ok sum ∧ Carries (items ++ [item]) sum := by
  rcases hitem with rfl | ⟨y, hy⟩
  · refine ⟨_, heap.add_null acc, ?_, ?_⟩
    · rw [sumOf_concat_null]
      exact congrArg some Int.cast_zero
    · rw [InWords, counted_concat_null]
      exact ⟨fun _ => nofun, fun _ => rfl⟩
  · have hnull := (Value.traits_of_exactNumber? hy).not_null
    by_cases hwords : InWords items ∧ item.isIntegral
    · obtain ⟨sum, hsum, hintegral, hnumber⟩ :=
        heap.exists_add_integral (h.kind.mpr hwords.1) h.number hwords.2 hy
      refine ⟨sum, hsum, ?_, ?_⟩
      · rw [hnumber, sumOf_concat_word hwords.1 hwords.2, Value.summand_eq hy]
      · rw [inWords_concat hnull]
        exact ⟨fun _ => hwords, fun _ => hintegral⟩
    · have hlarge : acc.isLarge ∨ item.isLarge := by
        rw [Value.isLarge_iff h.number, Value.isLarge_iff hy, h.kind, ← not_and_or]
        exact hwords
      obtain ⟨sum, hsum, hlarge, hnumber⟩ := heap.exists_add_large h.number hy hlarge
      refine ⟨sum, hsum, ?_, ?_⟩
      · rw [hnumber, ← Value.summand_eq hy, sumOf_concat_exact hnull fun hin =>
          Bool.eq_false_iff.mpr fun hintegral => hwords ⟨hin, hintegral⟩]
      · rw [inWords_concat hnull]
        exact iff_of_false ((Value.isLarge_iff hnumber).mp hlarge) hwords

/-- A summation answers a value with the number that it comes to.  The induction is on the elements
from the last one on. -/
theorem exists_total (heap : Heap) (hitems : ∀ item ∈ items, item.IsSummand) :
    ∃ sum, total heap items = .ok sum ∧ Carries items sum := by
  induction items using List.reverseRecOn with
  | nil =>
      refine ⟨.long 0, rfl, ?_, fun _ => nofun, fun _ => rfl⟩
      rw [sumOf_of_counted_nil rfl]
      exact congrArg some Int.cast_zero
  | append_singleton items item ih =>
      obtain ⟨hitems, hitem⟩ := List.forall_mem_append.mp hitems
      obtain ⟨acc, hacc, hcarries⟩ := ih hitems
      rw [total_concat, hacc]
      exact hcarries.concat (List.forall_mem_singleton.mp hitem) heap

/-!
## Orders of the elements
-/

theorem exists_int_numbers (h : ∀ item ∈ items, item.isIntegral) :
    ∃ n : Int, numbers items = n := by
  induction items with
  | nil => exact ⟨0, Int.cast_zero.symm⟩
  | cons item rest ih =>
      obtain ⟨hitem, hrest⟩ := List.forall_mem_cons.mp h
      obtain ⟨n, hn, -⟩ := Value.exists_int_of_isIntegral hitem
      obtain ⟨m, hm⟩ := ih hrest
      exact ⟨n + m, by rw [numbers_cons, Value.summand_eq hn, hm, Int.cast_add]⟩

theorem numbers_eq_zero (h : ∀ item ∈ items, item.summand = 0) : numbers items = 0 := by
  refine List.sum_eq_zero fun x hx => ?_
  obtain ⟨item, hitem, rfl⟩ := List.mem_map.mp hx
  exact h item hitem

theorem counted_subset (items : List Value) : counted items ⊆ items :=
  (List.rtakeWhile_suffix _ items).subset

theorem counted_eq_self (hnull : .null ∉ items) : counted items = items := by
  refine List.rtakeWhile_eq_self_iff.mpr fun item hitem => ?_
  rw [Bool.not_eq_true', Bool.eq_false_iff]
  intro h
  exact hnull (Value.eq_null_of_isNull h ▸ hitem)

theorem sumOf_of_zero (h : ∀ item ∈ items, item.summand = 0) : sumOf items = 0 := by
  have hcounted : ∀ item ∈ counted items, item.summand = 0 :=
    fun item hitem => h item (counted_subset items hitem)
  rw [sumOf, numbers_eq_zero fun item hitem => hcounted item (List.takeWhile_subset _ hitem),
    numbers_eq_zero fun item hitem => hcounted item (List.dropWhile_subset _ hitem), add_zero]
  exact Conversion.kept_long_intCast 0

/-- Integers of fixed widths in front of a larger number are added in 64 bits. -/
theorem sumOf_append_large {part rest : List Value} {large : Value}
    (hnull : .null ∉ part ++ large :: rest) (hpart : ∀ item ∈ part, item.isIntegral)
    (hlarge : large.isIntegral = false) :
    sumOf (part ++ large :: rest) =
      Conversion.long.kept (numbers part) + numbers (large :: rest) := by
  rw [sumOf, counted_eq_self hnull, List.takeWhile_append_of_pos hpart,
    List.dropWhile_append_of_pos hpart, List.takeWhile_cons_of_neg (Bool.eq_false_iff.mp hlarge),
    List.dropWhile_cons_of_neg (Bool.eq_false_iff.mp hlarge), List.append_nil]

namespace OrderFree

variable {permuted : List Value}

theorem perm (h : OrderFree items) (hperm : permuted.Perm items) : OrderFree permuted where
  null hnull item hitem := h.null (hperm.subset hnull) item (hperm.subset hitem)
  room := by
    rintro ⟨large, hmem, hlarge⟩ part hpart hintegral
    obtain ⟨part', hperm', hpart'⟩ := hpart.subperm.trans hperm.subperm
    rw [← numbers_perm hperm']
    exact h.room ⟨large, hperm.subset hmem, hlarge⟩ part' hpart'
      fun item hitem => hintegral item (hperm'.subset hitem)

/-- The sum of elements whose order does not matter. -/
theorem sumOf_eq (h : OrderFree items) (hitems : ∀ item ∈ items, item.IsSummand) :
    sumOf items = if ∃ item ∈ items, item.isLarge then numbers items
      else Conversion.long.kept (numbers items) := by
  by_cases hnull : .null ∈ items
  · have hzero := h.null hnull
    rw [sumOf_of_zero hzero, numbers_eq_zero hzero]
    split
    · rfl
    · exact (Conversion.kept_long_intCast 0).symm
  · rw [sumOf, counted_eq_self hnull]
    split
    · rename_i hlarge
      have hwords : ∀ item ∈ items.takeWhile Value.isIntegral, item.isIntegral :=
        fun _ => List.mem_takeWhile_imp
      obtain ⟨n, hn⟩ := exists_int_numbers hwords
      obtain ⟨hlow, hhigh⟩ := h.room hlarge _ (List.takeWhile_sublist _) hwords
      rw [← numbers_takeWhile_add items Value.isIntegral, hn] at *
      rw [Conversion.kept_long_of_bounds hlow hhigh]
    · rename_i hlarge
      have hwords : ∀ item ∈ items, item.isIntegral := by
        intro item hitem
        obtain ⟨x, hx⟩ := (hitems item hitem).exists_number fun heq => hnull (heq ▸ hitem)
        by_contra hintegral
        exact hlarge ⟨item, hitem, (Value.isLarge_iff hx).mpr hintegral⟩
      rw [List.takeWhile_eq_self_iff.mpr hwords, List.dropWhile_eq_nil_iff.mpr hwords, numbers_nil,
        add_zero]

theorem sumOf_perm (h : OrderFree items) (hitems : ∀ item ∈ items, item.IsSummand)
    (hperm : permuted.Perm items) : sumOf permuted = sumOf items := by
  have hlarge : (∃ item ∈ permuted, item.isLarge) ↔ ∃ item ∈ items, item.isLarge :=
    exists_congr fun item => and_congr_left fun _ => hperm.mem_iff
  rw [(h.perm hperm).sumOf_eq fun item hitem => hitems item (hperm.subset hitem),
    h.sumOf_eq hitems, numbers_perm hperm, if_congr hlarge rfl rfl]

end OrderFree

section Orders

variable (hsum : ∀ permuted : List Value, permuted.Perm items → sumOf permuted = sumOf items)

include hsum

/-- Null may stand before a number, which alone is counted then, or behind it. -/
theorem summand_eq_zero_of_null (hitem : item.IsSummand) (hmem : item ∈ items)
    (hnull : .null ∈ items) : item.summand = 0 := by
  by_cases heq : item = .null
  · rw [heq]
    rfl
  · have hrest : item ∈ items.erase Value.null := (List.mem_erase_of_ne heq).mpr hmem
    obtain ⟨rest, hperm⟩ : ∃ rest, items.Perm (.null :: item :: rest) :=
      ⟨_, (List.perm_cons_erase hnull).trans ((List.perm_cons_erase hrest).cons .null)⟩
    have hbefore : (rest ++ [Value.null] ++ [item]).Perm items := by
      rw [List.append_assoc]
      exact List.perm_append_comm.trans hperm.symm
    have hbehind : (rest ++ [item] ++ [Value.null]).Perm items := by
      rw [List.append_assoc]
      exact List.perm_append_comm.trans ((List.Perm.swap _ _ _).trans hperm.symm)
    rw [← sumOf_concat_null_one hitem heq rest, hsum _ hbefore, ← hsum _ hbehind,
      sumOf_concat_null]

/-- The integers of a part may stand before a larger number, where they are added in 64 bits, or
behind it. -/
theorem kept_numbers_of_large {part : List Value} {large : Value} (hnull : .null ∉ items)
    (hmem : large ∈ items) (hlarge : large.isIntegral = false) (hpart : part.Sublist items)
    (hintegral : ∀ item ∈ part, item.isIntegral) :
    Conversion.long.kept (numbers part) = numbers part := by
  obtain ⟨others, hothers⟩ := hpart.exists_perm_append
  have hmem' : large ∈ others := by
    rcases List.mem_append.mp (hothers.subset hmem) with hin | hin
    · rw [hintegral large hin] at hlarge
      cases hlarge
    · exact hin
  obtain ⟨rest, hperm⟩ : ∃ rest, items.Perm (part ++ large :: rest) :=
    ⟨_, hothers.trans ((List.perm_cons_erase hmem').append_left part)⟩
  have hbefore := hsum _ hperm.symm
  have hbehind := hsum ([] ++ large :: (part ++ rest))
    (List.perm_middle.symm.trans hperm.symm)
  have hnull' : .null ∉ part ++ large :: rest := fun h => hnull (hperm.symm.subset h)
  have hnull'' : .null ∉ [] ++ large :: (part ++ rest) := fun h =>
    hnull' (List.perm_middle.symm.subset h)
  rw [sumOf_append_large hnull' hintegral hlarge] at hbefore
  rw [sumOf_append_large hnull'' nofun hlarge, numbers_nil, numbers_cons, numbers_append] at hbehind
  have hzero : Conversion.long.kept 0 = 0 := Conversion.kept_long_intCast 0
  rw [numbers_cons] at hbefore
  linarith

theorem orderFree_of_sumOf_perm (hitems : ∀ item ∈ items, item.IsSummand) : OrderFree items where
  null hnull item hitem := summand_eq_zero_of_null hsum (hitems item hitem) hitem hnull
  room := by
    rintro ⟨large, hmem, hlarge⟩ part hpart hintegral
    by_cases hnull : Value.null ∈ items
    · have hzero : numbers part = 0 := numbers_eq_zero fun item hitem =>
        summand_eq_zero_of_null hsum (hitems item (hpart.subset hitem)) (hpart.subset hitem) hnull
      rw [hzero]
      norm_num
    · obtain ⟨x, hx⟩ := (hitems large hmem).exists_number fun heq => hnull (heq ▸ hmem)
      have hlarge' := Bool.eq_false_iff.mpr ((Value.isLarge_iff hx).mp hlarge)
      rw [← kept_numbers_of_large hsum hnull hmem hlarge' hpart hintegral]
      exact Conversion.kept_long_bounds _

end Orders

theorem sumOf_perm_iff (hitems : ∀ item ∈ items, item.IsSummand) :
    (∀ permuted : List Value, permuted.Perm items → sumOf permuted = sumOf items) ↔
      OrderFree items :=
  ⟨fun hsum => orderFree_of_sumOf_perm hsum hitems, fun h _ hperm => h.sumOf_perm hitems hperm⟩

end Collection

/-!
## The method
-/

namespace Evaluation

open Resolver

variable {context : Context} {options : ResolverOptions} {deeper : Deeper} {items : List Value}

/-- A collection with the elements, whatever its kind and wherever it is, has the sum. -/
def SumsTo (context : Context) (deeper : Deeper) (items : List Value) (x : ℚ) : Prop :=
  ∀ (world : World) (base : Value), world.heap.items? base = some items →
    ∃ sum, invokeMethod context deeper base "sum" [] world = .ok sum world ∧
      sum.exactNumber? = some x

theorem sumsTo_sumOf (hresolver : context.resolver = chain (standard options)) (deeper : Deeper)
    (hitems : ∀ item ∈ items, item.IsSummand) :
    SumsTo context deeper items (Collection.sumOf items) := by
  intro world base hbase
  obtain ⟨sum, hsum, hcarries⟩ := Collection.exists_total world.heap hitems
  refine ⟨sum, ?_, hcarries.number⟩
  rw [invokeMethod_collection hresolver hbase rfl le_rfl le_rfl]
  change Action.ofExcept (Collection.total world.heap items) world = _
  rw [hsum]
  rfl

/-- There are collections with the elements, so they have one sum only. -/
theorem SumsTo.unique {x y : ℚ} (hx : SumsTo context deeper items x)
    (hy : SumsTo context deeper items y) : x = y := by
  let world : World := { (default : World) with heap := (Heap.empty.addSequence items).2 }
  have hitems : world.heap.items? (.list 0) = some items := rfl
  obtain ⟨sum, hsum, hnumber⟩ := hx world (.list 0) hitems
  obtain ⟨sum', hsum', hnumber'⟩ := hy world (.list 0) hitems
  cases hsum.symm.trans hsum'
  exact Option.some_inj.mp (hnumber.symm.trans hnumber')

/-- `sum` of integers, decimals and nulls answers what a summation in the order of the elements
comes to.  This is the same number for every order of the elements if and only if no element is null
or all are zero, and none is larger than an integer of a fixed width or all sums of integers of
fixed widths among them have room in 64 bits. -/
theorem sum_orderFree_iff (hresolver : context.resolver = chain (standard options))
    (deeper : Deeper) (hitems : ∀ item ∈ items, item.IsSummand) :
    (∀ permuted : List Value, permuted.Perm items →
        SumsTo context deeper permuted (Collection.sumOf permuted)) ∧
      ((∀ permuted : List Value, permuted.Perm items →
          SumsTo context deeper permuted (Collection.sumOf items)) ↔
        Collection.OrderFree items) := by
  have hsums : ∀ permuted : List Value, permuted.Perm items →
      SumsTo context deeper permuted (Collection.sumOf permuted) := fun permuted hperm =>
    sumsTo_sumOf hresolver deeper fun item hitem => hitems item (hperm.subset hitem)
  refine ⟨hsums, ?_⟩
  rw [← Collection.sumOf_perm_iff hitems]
  refine forall_congr' fun permuted => forall_congr' fun hperm => ?_
  constructor
  · exact (hsums permuted hperm).unique
  · intro heq
    rw [← heq]
    exact hsums permuted hperm

/-- A list with the elements, and the call of `sum` on it. -/
def sumOfList (items : List Value) : EStateM.Result Failure World Value :=
  invokeMethod (.standard {}) (within (.standard {}) 1) (.list 0) "sum" []
    { (default : World) with heap := (Heap.empty.addSequence items).2 }

/-- The greatest 64-bit integer and a large one: their sum has no room in 64 bits, but it is never
formed there. -/
theorem sum_orderFree_greatest :
    let greatest : Value := .long Int64.maxValue
    let items : List Value := [greatest, .bigInteger 1]
    Collection.OrderFree items ∧
      ∀ permuted : List Value, permuted.Perm items →
        SumsTo (.standard {}) (within (.standard {}) 1) permuted (2 ^ 63) := by
  intro greatest items
  have hgreatest : greatest.summand = 2 ^ 63 - 1 := by
    have hvalue : Int64.maxValue.toInt = 2 ^ 63 - 1 := rfl
    rw [Value.summand_eq (x := (Int64.maxValue.toInt : ℚ)) rfl, hvalue]
    norm_num
  have hlarge : (Value.bigInteger 1).summand = 1 := Value.summand_eq (congrArg some Int.cast_one)
  have hitems : ∀ item ∈ items, item.IsSummand :=
    List.forall_mem_cons.mpr ⟨.inr ⟨_, rfl⟩, List.forall_mem_singleton.mpr (.inr ⟨_, rfl⟩)⟩
  have hfree : Collection.OrderFree items := by
    constructor
    case null => simp [items, greatest]
    case room =>
      intro _ part hpart hintegral
      have hwords := hpart.filter Value.isIntegral
      rw [List.filter_eq_self.mpr hintegral] at hwords
      rcases List.sublist_singleton.mp hwords with rfl | rfl
      · rw [Collection.numbers_nil]
        norm_num
      · rw [Collection.numbers_cons, Collection.numbers_nil, hgreatest]
        norm_num
  have hsum : Collection.sumOf items = 2 ^ 63 := by
    rw [hfree.sumOf_eq hitems, if_pos ⟨.bigInteger 1, by simp [items], rfl⟩,
      Collection.numbers_cons, Collection.numbers_cons, Collection.numbers_nil, hgreatest, hlarge]
    norm_num
  have hresolver : (Context.standard {}).resolver = chain (standard {}) := rfl
  rw [← hsum]
  exact ⟨hfree, (sum_orderFree_iff hresolver (within (.standard {}) 1) hitems).2.mpr hfree⟩

/-- Null forgets the one in front of it, and the sum of the two integers has no room in 64 bits
if it is formed before the large integer is added. -/
theorem sum_depends_on_order :
    let greatest : Value := .long Int64.maxValue
    let large : Value := .bigInteger (2 ^ 63)
    let call (items : List Value) : Option Value :=
      match sumOfList items with
      | .ok sum _ => some sum
      | .error _ _ => none
    [Value.null, .long 1].Perm [.long 1, .null] ∧
      call [.null, .long 1] = some (.long 1) ∧ call [.long 1, .null] = some (.long 0) ∧
      [greatest, .long 1, large].Perm [large, greatest, .long 1] ∧
      call [greatest, .long 1, large] = some (.bigInteger 0) ∧
      call [large, greatest, .long 1] = some (.bigInteger (2 ^ 64)) := by
  intro greatest large call
  refine ⟨.swap _ _ _, rfl, rfl, ?_, rfl, rfl⟩
  have hperm : ([greatest, .long 1] ++ [large]).Perm ([large] ++ [greatest, .long 1]) :=
    List.perm_append_comm
  exact hperm

end Evaluation
end ExprLang
