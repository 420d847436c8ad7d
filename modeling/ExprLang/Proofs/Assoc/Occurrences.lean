import ExprLang.Proofs.Equality.Equivalence
import ExprLang.Proofs.Evaluation.Answers

/-!
# First occurrences

Leaving out of a list what is the same as an element before leaves every first occurrence, in its
order.  Two lists without repetition that have the same elements in the same order are the same
element by element.
-/

namespace ExprLang
namespace Assoc

section Occurrences

variable {α : Type} (same : α → α → Bool)

/-- Where something the same as a thing first stands in a list; the length if it stands nowhere. -/
def firstIndex (items : List α) (a : α) : Nat := items.findIdx (same · a)

/-- Each list has something the same as every element of the other. -/
def SameElements (xs ys : List α) : Prop :=
  (∀ x ∈ xs, ys.any (same · x) = true) ∧ ∀ y ∈ ys, xs.any (same · y) = true

/-- Of any two elements, the same one first stands before the other in both lists. -/
def SameOrder (xs ys : List α) : Prop :=
  ∀ a ∈ xs, ∀ b ∈ xs, firstIndex same xs a < firstIndex same xs b ↔
    firstIndex same ys a < firstIndex same ys b

instance (xs ys : List α) : Decidable (SameElements same xs ys) :=
  inferInstanceAs (Decidable ((∀ x ∈ xs, ys.any (same · x) = true) ∧
    ∀ y ∈ ys, xs.any (same · y) = true))

instance (xs ys : List α) : Decidable (SameOrder same xs ys) :=
  inferInstanceAs (Decidable (∀ a ∈ xs, ∀ b ∈ xs, firstIndex same xs a < firstIndex same xs b ↔
    firstIndex same ys a < firstIndex same ys b))

theorem firstIndex_lt_length (xs : List α) (a : α) : firstIndex same xs a < xs.length ↔ xs.any (same · a) = true := by
  rw [firstIndex, List.findIdx_lt_length, List.any_eq_true]

variable {same} {xs ys : List α} {a b : α}

theorem firstIndex_cons (x : α) : firstIndex same (x :: xs) a =
    if same x a then 0 else firstIndex same xs a + 1 := by
  rw [firstIndex, List.findIdx_cons, Bool.cond_eq_ite]
  rfl

theorem firstIndex_append : firstIndex same (xs ++ ys) a =
    if xs.any (same · a) then firstIndex same xs a else xs.length + firstIndex same ys a := by
  unfold firstIndex
  rw [List.findIdx_append]
  simp [List.findIdx_lt_length, Nat.add_comm]

/-- What is in the first of two lists comes before what is not, and only there the order of the
others matters. -/
theorem firstIndex_append_lt_iff :
    firstIndex same (xs ++ ys) a < firstIndex same (xs ++ ys) b ↔
      if xs.any (same · a) then
        xs.any (same · b) = true → firstIndex same xs a < firstIndex same xs b
      else xs.any (same · b) = false ∧ firstIndex same ys a < firstIndex same ys b := by
  have ha := firstIndex_lt_length same xs a
  have hb := firstIndex_lt_length same xs b
  rw [firstIndex_append, firstIndex_append]
  cases ha' : xs.any (same · a) <;> cases hb' : xs.any (same · b) <;> simp [ha', hb'] at ha hb ⊢ <;>
    omega

theorem any_congr {p q : α → Bool} (h : ∀ x ∈ xs, p x = q x) : xs.any p = xs.any q := by
  rw [Bool.eq_iff_iff, List.any_eq_true, List.any_eq_true]
  apply exists_congr
  intro x
  apply and_congr_right
  intro hx
  rw [h x hx]

/-!
## First occurrences
-/

theorem distinctFrom_append (seen : List α) :
    distinctFrom same seen (xs ++ ys) = distinctFrom same (distinctFrom same seen xs) ys := by
  fun_induction distinctFrom same seen xs with
  | case1 seen => rfl
  | case2 seen item rest hseen ih => rw [List.cons_append, distinctFrom, if_pos hseen, ih]
  | case3 seen item rest hseen ih => rw [List.cons_append, distinctFrom, if_neg hseen, ih]

theorem distinct_concat (item : α) : distinct same (xs ++ [item]) =
    if (distinct same xs).any (same · item) then distinct same xs
    else distinct same xs ++ [item] := by
  rw [distinct, distinctFrom_append]
  rfl

theorem distinct_congr {same' : α → α → Bool} (h : ∀ x ∈ xs, ∀ y ∈ xs, same x y = same' x y) :
    distinct same xs = distinct same' xs := by
  induction xs using List.reverseRecOn with
  | nil => rfl
  | append_singleton xs item ih =>
      have hbefore := ih fun x hx y hy =>
        h x (List.mem_append_left _ hx) y (List.mem_append_left _ hy)
      have hany : (distinct same' xs).any (same · item) =
          (distinct same' xs).any (same' · item) := by
        apply any_congr
        intro x hx
        exact h x (List.mem_append_left _ (mem_of_mem_distinct hx)) item List.mem_concat_self
      rw [distinct_concat, distinct_concat, hbefore, hany]

theorem pairwise_distinct : (distinct same xs).Pairwise fun x y => same x y = false := by
  induction xs using List.reverseRecOn with
  | nil => exact .nil
  | append_singleton xs item ih =>
      rw [distinct_concat]
      split
      · exact ih
      · rename_i hnew
        refine List.pairwise_append.mpr ⟨ih, List.pairwise_singleton _ _, ?_⟩
        intro x hx last hlast
        rw [List.mem_singleton.mp hlast, Bool.eq_false_iff]
        intro hsame
        exact hnew (List.any_eq_true.mpr ⟨x, hx, hsame⟩)

section Equivalence

variable {domain : α → Prop}

theorem domain_distinct (hxs : ∀ x ∈ xs, domain x) : ∀ x ∈ distinct same xs, domain x :=
  fun x hx => hxs x (mem_of_mem_distinct hx)

variable (h : IsEquivalenceOn domain same)
include h

/-- What is the same as an element that is there already is there too. -/
theorem any_of_seen {item : α} (hxs : ∀ x ∈ xs, domain x) (hitem : domain item) (ha : domain a)
    (hseen : xs.any (same · item) = true) (hsame : same item a = true) :
    xs.any (same · a) = true := by
  rcases List.any_eq_true.mp hseen with ⟨x, hx, hxitem⟩
  exact List.any_eq_true.mpr ⟨x, hx, h.trans x item a (hxs x hx) hitem ha hxitem hsame⟩

theorem any_distinct (hxs : ∀ x ∈ xs, domain x) (ha : domain a) :
    (distinct same xs).any (same · a) = xs.any (same · a) := by
  induction xs using List.reverseRecOn with
  | nil => rfl
  | append_singleton xs item ih =>
      rcases List.forall_mem_append.mp hxs with ⟨hxs, hitem⟩
      rw [distinct_concat, List.any_append, ← ih hxs, List.any_cons, List.any_nil, Bool.or_false]
      split
      · rename_i hseen
        cases hsame : same item a with
        | false => rw [Bool.or_false]
        | true =>
            rw [any_of_seen h (domain_distinct hxs) (List.forall_mem_singleton.mp hitem) ha hseen
              hsame]
            rfl
      · rw [List.any_append, List.any_cons, List.any_nil, Bool.or_false]

/-- An element that is there already changes no order of first occurrences. -/
theorem firstIndex_concat_lt_iff {item : α} (hxs : ∀ x ∈ xs, domain x) (hitem : domain item)
    (ha : domain a) (hseen : xs.any (same · item) = true) :
    firstIndex same (xs ++ [item]) a < firstIndex same (xs ++ [item]) b ↔
      firstIndex same xs a < firstIndex same xs b := by
  have hlt := firstIndex_lt_length same xs a
  have hlt' := firstIndex_lt_length same xs b
  have hle : firstIndex same xs b ≤ xs.length := List.findIdx_le_length
  have hle' : firstIndex same [item] b ≤ 1 := List.findIdx_le_length
  rw [firstIndex_append_lt_iff]
  split
  · rename_i hfound
    rw [hfound] at hlt
    constructor
    · intro himp
      by_cases hfound' : xs.any (same · b) = true
      · exact himp hfound'
      · rw [← hlt'] at hfound'
        have := hlt.mpr rfl
        omega
    · exact fun hless _ => hless
  · rename_i hnone
    have hitem' : same item a = false := by
      rw [Bool.eq_false_iff]
      exact fun hsame => hnone (any_of_seen h hxs hitem ha hseen hsame)
    rw [← hlt] at hnone
    rw [firstIndex_cons (a := a), hitem', if_neg Bool.false_ne_true]
    constructor
    · rintro ⟨-, hless⟩
      omega
    · intro hless
      omega

theorem firstIndex_distinct_lt_iff (hxs : ∀ x ∈ xs, domain x) (ha : domain a) (hb : domain b) :
    firstIndex same (distinct same xs) a < firstIndex same (distinct same xs) b ↔
      firstIndex same xs a < firstIndex same xs b := by
  induction xs using List.reverseRecOn with
  | nil => rfl
  | append_singleton xs item ih =>
      rcases List.forall_mem_append.mp hxs with ⟨hxs, hitem⟩
      have hitem := List.forall_mem_singleton.mp hitem
      rw [distinct_concat]
      split
      · rename_i hseen
        rw [any_distinct h hxs hitem] at hseen
        rw [firstIndex_concat_lt_iff h hxs hitem ha hseen, ih hxs]
      · rw [firstIndex_append_lt_iff, firstIndex_append_lt_iff, any_distinct h hxs ha,
          any_distinct h hxs hb, ih hxs]

/-!
## Lists without repetition
-/

theorem firstIndex_eq_of_isEqv (hxs : ∀ x ∈ xs, domain x) (hys : ∀ y ∈ ys, domain y)
    (ha : domain a) (heqv : xs.isEqv ys same = true) :
    firstIndex same xs a = firstIndex same ys a := by
  induction xs generalizing ys with
  | nil =>
      cases ys with
      | nil => rfl
      | cons => cases heqv
  | cons x xs ih =>
      cases ys with
      | nil => cases heqv
      | cons y ys =>
          rcases List.forall_mem_cons.mp hxs with ⟨hx, hxs⟩
          rcases List.forall_mem_cons.mp hys with ⟨hy, hys⟩
          rw [List.isEqv_cons_cons, Bool.and_eq_true] at heqv
          rw [firstIndex_cons, firstIndex_cons, h.same_left_eq hx hy ha heqv.1, ih hxs hys heqv.2]

/-- The first elements are the same: otherwise the two would stand in opposite orders. -/
theorem same_head_of_sameOrder {x y : α} (hxs : ∀ x' ∈ x :: xs, domain x')
    (hys : ∀ y' ∈ y :: ys, domain y') (hpairwise : (x :: xs).Pairwise fun a b => same a b = false)
    (hsame : SameElements same (x :: xs) (y :: ys)) (horder : SameOrder same (x :: xs) (y :: ys)) :
    same x y = true := by
  by_contra hne
  rcases List.any_eq_true.mp (hsame.2 y List.mem_cons_self) with ⟨x', hx', hx'y⟩
  have hmem : x' ∈ xs := by
    rcases List.mem_cons.mp hx' with rfl | hmem
    · exact absurd hx'y hne
    · exact hmem
  have hlt : firstIndex same (x :: xs) x < firstIndex same (x :: xs) x' := by
    rw [firstIndex_cons, firstIndex_cons, h.refl x (hxs x List.mem_cons_self),
      (List.pairwise_cons.mp hpairwise).1 x' hmem]
    exact Nat.succ_pos _
  rw [horder x List.mem_cons_self x' hx', firstIndex_cons (a := x'),
    h.symm x' y (hxs x' hx') (hys y List.mem_cons_self) hx'y] at hlt
  exact Nat.not_lt_zero _ hlt

theorem isEqv_of_sameOrder (hxs : ∀ x ∈ xs, domain x) (hys : ∀ y ∈ ys, domain y)
    (hpairwise : xs.Pairwise fun a b => same a b = false)
    (hpairwise' : ys.Pairwise fun a b => same a b = false) (hsame : SameElements same xs ys)
    (horder : SameOrder same xs ys) : xs.isEqv ys same = true := by
  induction xs generalizing ys with
  | nil =>
      cases ys with
      | nil => rfl
      | cons y ys => cases hsame.2 y List.mem_cons_self
  | cons x xs ih =>
      cases ys with
      | nil => cases hsame.1 x List.mem_cons_self
      | cons y ys =>
          have hxy := same_head_of_sameOrder h hxs hys hpairwise hsame horder
          rcases List.forall_mem_cons.mp hxs with ⟨hx, hxs⟩
          rcases List.forall_mem_cons.mp hys with ⟨hy, hys⟩
          rcases List.pairwise_cons.mp hpairwise with ⟨hne, hpairwise⟩
          rcases List.pairwise_cons.mp hpairwise' with ⟨hne', hpairwise'⟩
          have hne'' : ∀ a ∈ xs, same y a = false := by
            intro a ha
            rw [← h.same_left_eq hx hy (hxs a ha) hxy, hne a ha]
          rw [List.isEqv_cons_cons, hxy, Bool.true_and]
          apply ih hxs hys hpairwise hpairwise'
          · constructor
            · intro a ha
              have hfound := hsame.1 a (List.mem_cons_of_mem x ha)
              rwa [List.any_cons, hne'' a ha, Bool.false_or] at hfound
            · intro b hb
              have hfound := hsame.2 b (List.mem_cons_of_mem y hb)
              rwa [List.any_cons, h.same_left_eq hx hy (hys b hb) hxy, hne' b hb,
                Bool.false_or] at hfound
          · intro a ha b hb
            have hrest := horder a (List.mem_cons_of_mem x ha) b (List.mem_cons_of_mem x hb)
            rw [firstIndex_cons, firstIndex_cons, firstIndex_cons, firstIndex_cons, hne a ha,
              hne b hb, hne'' a ha, hne'' b hb] at hrest
            simpa using hrest

theorem isEqv_distinct_iff (hxs : ∀ x ∈ xs, domain x) (hys : ∀ y ∈ ys, domain y)
    (hsame : SameElements same xs ys) :
    (distinct same xs).isEqv (distinct same ys) same = true ↔ SameOrder same xs ys := by
  have hxs' : ∀ x ∈ distinct same xs, domain x := domain_distinct hxs
  have hys' : ∀ y ∈ distinct same ys, domain y := domain_distinct hys
  constructor
  · intro heqv a ha b hb
    rw [← firstIndex_distinct_lt_iff h hxs (hxs a ha) (hxs b hb),
      ← firstIndex_distinct_lt_iff h hys (hxs a ha) (hxs b hb),
      firstIndex_eq_of_isEqv h hxs' hys' (hxs a ha) heqv,
      firstIndex_eq_of_isEqv h hxs' hys' (hxs b hb) heqv]
  · intro horder
    apply isEqv_of_sameOrder h hxs' hys' pairwise_distinct pairwise_distinct
    · constructor
      · intro x hx
        rw [any_distinct h hys (hxs' x hx)]
        exact hsame.1 x (mem_of_mem_distinct hx)
      · intro y hy
        rw [any_distinct h hxs (hys' y hy)]
        exact hsame.2 y (mem_of_mem_distinct hy)
    · intro a ha b hb
      rw [firstIndex_distinct_lt_iff h hxs (hxs' a ha) (hxs' b hb),
        firstIndex_distinct_lt_iff h hys (hxs' a ha) (hxs' b hb)]
      exact horder a (mem_of_mem_distinct ha) b (mem_of_mem_distinct hb)

theorem length_distinct_le (hxs : ∀ x ∈ xs, domain x) (hys : ∀ y ∈ ys, domain y)
    (hfound : ∀ x ∈ xs, ys.any (same · x) = true) :
    (distinct same xs).length ≤ (distinct same ys).length := by
  have hxs' : ∀ x ∈ distinct same xs, domain x := domain_distinct hxs
  have hys' : ∀ y ∈ distinct same ys, domain y := domain_distinct hys
  have hmatch : ∀ x ∈ distinct same xs, ∃ y ∈ distinct same ys, same y x = true := by
    intro x hx
    have hany := hfound x (mem_of_mem_distinct hx)
    rw [← any_distinct h hys (hxs' x hx)] at hany
    exact List.any_eq_true.mp hany
  have hsingle : (distinct same xs).Pairwise fun x x' =>
      ∀ y ∈ distinct same ys, same y x = true → ¬ same y x' = true := by
    refine pairwise_distinct.imp_of_mem ?_
    intro x x' hx hx' hne y hy hyx hyx'
    rw [h.same_left_eq (hys' y hy) (hxs' x hx) (hxs' x' hx') hyx, hne] at hyx'
    cases hyx'
  exact length_le_of_exists_match hmatch hsingle

theorem any_eq_of_sameElements (hxs : ∀ x ∈ xs, domain x) (hys : ∀ y ∈ ys, domain y)
    (hsame : SameElements same xs ys) (ha : domain a) :
    xs.any (same · a) = ys.any (same · a) := by
  have hstep {xs ys : List α} (hxs : ∀ x ∈ xs, domain x) (hys : ∀ y ∈ ys, domain y)
      (hfound : ∀ x ∈ xs, ys.any (same · x) = true) (hany : xs.any (same · a) = true) :
      ys.any (same · a) = true := by
    rcases List.any_eq_true.mp hany with ⟨x, hx, hxa⟩
    exact any_of_seen h hys (hxs x hx) ha (hfound x hx) hxa
  rw [Bool.eq_iff_iff]
  exact ⟨hstep hxs hys hsame.1, hstep hys hxs hsame.2⟩

end Equivalence

end Occurrences
end Assoc

end ExprLang
