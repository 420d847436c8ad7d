import Mathlib.Data.List.Find
import ExprLang.Proofs.Equality.Depth
import ExprLang.Proofs.Operator.Order
import ExprLang.Proofs.Store.LockedMap

/-!
# Natural equality is an equivalence

Equality of maps looks in one direction only: every entry of the left map has to be found in the
right one.  Between maps of one size, with keys that are pairwise different, that is enough,
because different keys of the left map are found at different places of the right one and so use
all of them up.  With this, one level of equality is an equivalence if equality of the parts is,
and the depth of finite values carries that through all levels.
-/

namespace ExprLang

/-- The relation is an equivalence among the things of a domain. -/
structure IsEquivalenceOn {α : Type} (domain : α → Prop) (same : α → α → Bool) : Prop where
  refl : ∀ a, domain a → same a a = true
  symm : ∀ a b, domain a → domain b → same a b = true → same b a = true
  trans : ∀ a b c, domain a → domain b → domain c → same a b = true → same b c = true →
    same a c = true

namespace IsEquivalenceOn

variable {α : Type} {domain domain' : α → Prop} {same same' : α → α → Bool}

theorem congr (h : IsEquivalenceOn domain same) (hdomain : ∀ a, domain' a → domain a)
    (hsame : ∀ a b, domain' a → domain' b → same' a b = same a b) :
    IsEquivalenceOn domain' same' := by
  constructor
  case refl =>
    intro a ha
    rw [hsame a a ha ha]
    exact h.refl a (hdomain a ha)
  case symm =>
    intro a b ha hb hab
    rw [hsame a b ha hb] at hab
    rw [hsame b a hb ha]
    exact h.symm a b (hdomain a ha) (hdomain b hb) hab
  case trans =>
    intro a b c ha hb hc hab hbc
    rw [hsame a b ha hb] at hab
    rw [hsame b c hb hc] at hbc
    rw [hsame a c ha hc]
    exact h.trans a b c (hdomain a ha) (hdomain b hb) (hdomain c hc) hab hbc

theorem same_comm (h : IsEquivalenceOn domain same) {a b : α} (ha : domain a) (hb : domain b) :
    same a b = same b a := by
  rw [Bool.eq_iff_iff]
  exact ⟨h.symm a b ha hb, h.symm b a hb ha⟩

theorem same_right_eq (h : IsEquivalenceOn domain same) {a b c : α} (ha : domain a)
    (hb : domain b) (hc : domain c) (hbc : same b c = true) : same a b = same a c := by
  rw [Bool.eq_iff_iff]
  constructor
  · intro hab
    exact h.trans a b c ha hb hc hab hbc
  · intro hac
    exact h.trans a c b ha hc hb hac (h.symm b c hb hc hbc)

theorem same_left_eq (h : IsEquivalenceOn domain same) {a b c : α} (ha : domain a)
    (hb : domain b) (hc : domain c) (hab : same a b = true) : same a c = same b c := by
  rw [h.same_comm ha hc, h.same_comm hb hc]
  exact h.same_right_eq hc ha hb hab

end IsEquivalenceOn

/-!
## Lists and entries
-/

namespace Assoc

section Lists

variable {α : Type} {domain : α → Prop} {same : α → α → Bool}

theorem isEqv_isEquivalenceOn (h : IsEquivalenceOn domain same) :
    IsEquivalenceOn (fun xs : List α => ∀ x ∈ xs, domain x) fun xs ys => xs.isEqv ys same := by
  constructor
  case refl =>
    intro xs hxs
    induction xs with
    | nil => rfl
    | cons x xs ih =>
        rcases List.forall_mem_cons.mp hxs with ⟨hx, hxs⟩
        rw [List.isEqv_cons_cons, h.refl x hx, ih hxs]
        rfl
  case symm =>
    intro xs
    induction xs with
    | nil =>
        intro ys _ _ hxy
        cases ys with
        | nil => rfl
        | cons => cases hxy
    | cons x xs ih =>
        intro ys hxs hys hxy
        cases ys with
        | nil => cases hxy
        | cons y ys =>
            rcases List.forall_mem_cons.mp hxs with ⟨hx, hxs⟩
            rcases List.forall_mem_cons.mp hys with ⟨hy, hys⟩
            rw [List.isEqv_cons_cons, Bool.and_eq_true] at hxy ⊢
            exact ⟨h.symm x y hx hy hxy.1, ih ys hxs hys hxy.2⟩
  case trans =>
    intro xs
    induction xs with
    | nil =>
        intro ys zs _ _ _ hxy hyz
        cases ys with
        | nil => exact hyz
        | cons => cases hxy
    | cons x xs ih =>
        intro ys zs hxs hys hzs hxy hyz
        cases ys with
        | nil => cases hxy
        | cons y ys =>
            cases zs with
            | nil => cases hyz
            | cons z zs =>
                rcases List.forall_mem_cons.mp hxs with ⟨hx, hxs⟩
                rcases List.forall_mem_cons.mp hys with ⟨hy, hys⟩
                rcases List.forall_mem_cons.mp hzs with ⟨hz, hzs⟩
                rw [List.isEqv_cons_cons, Bool.and_eq_true] at hxy hyz ⊢
                exact ⟨h.trans x y z hx hy hz hxy.1 hyz.1,
                  ih ys zs hxs hys hzs hxy.2 hyz.2⟩

end Lists

/-- If every element of a list is matched by one of a list that is no longer, and no two by the
same one, all elements of the second list are matched. -/
theorem exists_match_of_length_le {α β : Type} {matched : α → β → Prop} {xs : List α}
    {ys : List β} (hlength : ys.length ≤ xs.length)
    (hmatch : ∀ x ∈ xs, ∃ y ∈ ys, matched x y)
    (hsingle : xs.Pairwise fun x x' => ∀ y ∈ ys, matched x y → ¬ matched x' y) :
    ∀ y ∈ ys, ∃ x ∈ xs, matched x y := by
  induction xs generalizing ys with
  | nil =>
      intro y hy
      rw [List.eq_nil_of_length_eq_zero (Nat.le_zero.mp hlength)] at hy
      cases hy
  | cons x xs ih =>
      rcases List.forall_mem_cons.mp hmatch with ⟨⟨y, hy, hxy⟩, hmatch⟩
      rcases List.pairwise_cons.mp hsingle with ⟨hx, hsingle⟩
      rcases List.append_of_mem hy with ⟨before, after, rfl⟩
      have hsub {z : β} (hz : z ∈ before ++ after) : z ∈ before ++ y :: after :=
        List.mem_append.mpr ((List.mem_append.mp hz).imp_right (List.mem_cons_of_mem y))
      -- What matches `x` matches no other element, so the others are matched by the rest.
      have hrest : ∀ z ∈ before ++ after, ∃ x' ∈ xs, matched x' z := by
        apply ih
        · simp only [List.length_append, List.length_cons] at hlength ⊢
          omega
        · intro x' hx'
          rcases hmatch x' hx' with ⟨z, hz, hxz⟩
          refine ⟨z, ?_, hxz⟩
          rcases List.mem_append.mp hz with hz | hz
          · exact List.mem_append_left _ hz
          · rcases List.mem_cons.mp hz with rfl | hz
            · exact absurd hxz (hx x' hx' z hy hxy)
            · exact List.mem_append_right _ hz
        · exact hsingle.imp fun hpair z hz => hpair z (hsub hz)
      intro z hz
      rcases List.mem_append.mp hz with hz | hz
      · rcases hrest z (List.mem_append_left _ hz) with ⟨x', hx', hxz⟩
        exact ⟨x', List.mem_cons_of_mem x hx', hxz⟩
      · rcases List.mem_cons.mp hz with rfl | hz
        · exact ⟨x, List.mem_cons_self, hxy⟩
        · rcases hrest z (List.mem_append_right _ hz) with ⟨x', hx', hxz⟩
          exact ⟨x', List.mem_cons_of_mem x hx', hxz⟩

theorem length_le_of_exists_match {α β : Type} {matched : α → β → Prop} {xs : List α}
    {ys : List β} (hmatch : ∀ x ∈ xs, ∃ y ∈ ys, matched x y)
    (hsingle : xs.Pairwise fun x x' => ∀ y ∈ ys, matched x y → ¬ matched x' y) :
    xs.length ≤ ys.length := by
  by_contra hlength
  cases xs with
  | nil => exact hlength (Nat.zero_le _)
  | cons x xs =>
      rcases List.forall_mem_cons.mp hmatch with ⟨⟨y, hy, hxy⟩, hmatch⟩
      rcases List.pairwise_cons.mp hsingle with ⟨hx, hsingle⟩
      -- The others are as many as there are places, so one of them is at the place of the first.
      have hle : ys.length ≤ xs.length := by
        rw [List.length_cons] at hlength
        omega
      rcases exists_match_of_length_le hle hmatch hsingle y hy with ⟨x', hx', hxy'⟩
      exact hx x' hx' y hy hxy hxy'

/-- No two entries have the same key. -/
def DistinctKeys {α β : Type} (same : α → α → Bool) (entries : List (α × β)) : Prop :=
  entries.Pairwise fun x y => same x.1 y.1 = false

instance {α β : Type} (same : α → α → Bool) (entries : List (α × β)) :
    Decidable (DistinctKeys same entries) :=
  inferInstanceAs (Decidable (entries.Pairwise fun x y => same x.1 y.1 = false))

section Entries

variable {α β : Type} {domain : α → Prop} {same : α → α → Bool} {xs ys zs : List (α × α)}

/-- Keys and values are of the domain, and no key comes twice. -/
structure EntriesOn (domain : α → Prop) (same : α → α → Bool) (entries : List (α × α)) : Prop where
  key : ∀ entry ∈ entries, domain entry.1
  value : ∀ entry ∈ entries, domain entry.2
  distinct : DistinctKeys same entries

theorem find?_eq_some_of_mem (h : IsEquivalenceOn domain same)
    {entries : List (α × β)} (hkey : ∀ entry ∈ entries, domain entry.1)
    (hdistinct : DistinctKeys same entries) {entry : α × β} (hmem : entry ∈ entries) {key : α}
    (hdomain : domain key) (hsame : same entry.1 key = true) :
    find? same key entries = some entry.2 := by
  induction entries with
  | nil => cases hmem
  | cons first rest ih =>
      rcases List.forall_mem_cons.mp hkey with ⟨hfirst, hrest⟩
      rcases List.pairwise_cons.mp hdistinct with ⟨hother, hdistinct⟩
      rcases List.mem_cons.mp hmem with rfl | hmem
      · exact if_pos hsame
      · have hentry := hrest entry hmem
        have hno : ¬ same first.1 key = true := by
          rw [← h.same_right_eq hfirst hentry hdomain hsame, hother entry hmem]
          exact Bool.false_ne_true
        rw [find?, if_neg hno]
        exact ih hrest hdistinct hmem

theorem DistinctKeys.matched_once {γ : Type} {entries : List (α × β)} {others : List (α × γ)}
    (h : IsEquivalenceOn domain same) (hdistinct : DistinctKeys same entries)
    (hkey : ∀ entry ∈ entries, domain entry.1) (hother : ∀ other ∈ others, domain other.1) :
    entries.Pairwise fun entry entry' => ∀ other ∈ others,
      same other.1 entry.1 = true → ¬ same other.1 entry'.1 = true := by
  refine hdistinct.imp_of_mem ?_
  intro entry entry' hentry hentry' hne other hmem hsame hsame'
  rw [h.same_left_eq (hother other hmem) (hkey entry hentry) (hkey entry' hentry') hsame,
    hne] at hsame'
  cases hsame'

theorem equal_iff_found {same : α → α → Bool} {sameValue : β → β → Bool}
    {entries others : List (α × β)} :
    equal same sameValue entries others = true ↔ entries.length = others.length ∧
      ∀ entry ∈ entries, ∃ value, find? same entry.1 others = some value ∧
        sameValue value entry.2 = true := by
  unfold equal
  rw [Bool.and_eq_true, beq_iff_eq, List.all_eq_true]
  apply and_congr_right
  intro _
  apply forall₂_congr
  intro entry _
  dsimp only
  cases find? same entry.1 others with
  | none => simp
  | some value => simp

/-- Every entry of the first list has its equal in the second. -/
theorem equal_iff (h : IsEquivalenceOn domain same) (hxs : EntriesOn domain same xs)
    (hys : EntriesOn domain same ys) :
    equal same same xs ys = true ↔ xs.length = ys.length ∧
      ∀ x ∈ xs, ∃ y ∈ ys, same y.1 x.1 = true ∧ same y.2 x.2 = true := by
  rw [equal_iff_found]
  apply and_congr_right
  intro _
  apply forall₂_congr
  intro x hx
  constructor
  · rintro ⟨w, hfind, hvalue⟩
    rcases exists_same_of_find? hfind with ⟨k, hmem, hsame⟩
    exact ⟨(k, w), hmem, hsame, hvalue⟩
  · rintro ⟨y, hy, hkey, hvalue⟩
    exact ⟨y.2, find?_eq_some_of_mem h hys.key hys.distinct hy (hxs.key x hx) hkey, hvalue⟩

theorem equal_isEquivalenceOn (h : IsEquivalenceOn domain same) :
    IsEquivalenceOn (EntriesOn domain same) (equal same same) := by
  constructor
  case refl =>
    intro xs hxs
    rw [equal_iff h hxs hxs]
    constructor
    · rfl
    · intro x hx
      exact ⟨x, hx, h.refl x.1 (hxs.key x hx), h.refl x.2 (hxs.value x hx)⟩
  case symm =>
    intro xs ys hxs hys hxy
    rw [equal_iff h hxs hys] at hxy
    rw [equal_iff h hys hxs]
    rcases hxy with ⟨hlength, hmatch⟩
    constructor
    · exact hlength.symm
    · intro y hy
      have hsingle : xs.Pairwise fun x x' => ∀ y ∈ ys,
          (same y.1 x.1 = true ∧ same y.2 x.2 = true) →
            ¬ (same y.1 x'.1 = true ∧ same y.2 x'.2 = true) :=
        (hxs.distinct.matched_once h hxs.key hys.key).imp
          fun hpair y hy hyx hyx' => hpair y hy hyx.1 hyx'.1
      rcases exists_match_of_length_le hlength.ge hmatch hsingle y hy with ⟨x, hx, hkey, hvalue⟩
      exact ⟨x, hx, h.symm _ _ (hys.key y hy) (hxs.key x hx) hkey,
        h.symm _ _ (hys.value y hy) (hxs.value x hx) hvalue⟩
  case trans =>
    intro xs ys zs hxs hys hzs hxy hyz
    rw [equal_iff h hxs hys] at hxy
    rw [equal_iff h hys hzs] at hyz
    rw [equal_iff h hxs hzs]
    constructor
    · exact hxy.1.trans hyz.1
    · intro x hx
      rcases hxy.2 x hx with ⟨y, hy, hkey, hvalue⟩
      rcases hyz.2 y hy with ⟨z, hz, hkey', hvalue'⟩
      exact ⟨z, hz, h.trans _ _ _ (hzs.key z hz) (hys.key y hy) (hxs.key x hx) hkey' hkey,
        h.trans _ _ _ (hzs.value z hz) (hys.value y hy) (hxs.value x hx) hvalue' hvalue⟩

end Entries

end Assoc

/-!
## Values without parts
-/

namespace Value

theorem place?_eq_of_matches {a b : Value} (h : a.matches b = true) : a.place? = b.place? := by
  unfold Value.matches at h
  split at h
  · rfl
  · rfl
  · rfl
  · rw [of_decide_eq_true h]

theorem matches_symm {a b : Value} (h : a.matches b = true) : b.matches a = true := by
  unfold Value.matches at h
  split at h
  · rw [Decimal.equals_eq_decide] at h
    simp only [Value.matches, Decimal.equals_eq_decide, of_decide_eq_true h, decide_true]
  · simp only [Value.matches, of_decide_eq_true h, decide_true]
  · simp only [Value.matches, of_decide_eq_true h, decide_true]
  · rw [of_decide_eq_true h]
    exact Heap.matches_self _

theorem matches_trans {a b c : Value} (hab : a.matches b = true) (hbc : b.matches c = true) :
    a.matches c = true := by
  unfold Value.matches at hab
  split at hab
  · cases c with
    | bigDecimal c =>
        simp only [Value.matches, Decimal.equals_eq_decide, decide_eq_true_eq] at hab hbc ⊢
        exact hab.trans hbc
    | _ => simp [Value.matches] at hbc
  · cases c with
    | classRef c number =>
        simp only [Value.matches, decide_eq_true_eq] at hab hbc ⊢
        exact hab.trans hbc
    | _ => simp [Value.matches] at hbc
  · cases c with
    | array component t =>
        simp only [Value.matches, decide_eq_true_eq] at hab hbc ⊢
        exact hab.trans hbc
    | _ => simp [Value.matches] at hbc
  · rw [of_decide_eq_true hab]
    exact hbc

end Value

/-!
## One level of equality
-/

namespace Heap

open Assoc (DistinctKeys EntriesOn)

section Level

variable {heap : Heap} {domain : Value → Prop} {same : Value → Value → Bool} {a b c : Value}

/-- The parts of the value are of the domain, and its keys, if it is a map, are different. -/
structure PartsOn (heap : Heap) (domain : Value → Prop) (same : Value → Value → Bool)
    (value : Value) : Prop where
  part : ∀ part ∈ heap.parts value, domain part
  distinct : ∀ r, value = .map r → DistinctKeys same (heap.entries r)

/-- Values of one kind with parts that are the same, or without parts. -/
inductive Alike (heap : Heap) (same : Value → Value → Bool) : Value → Value → Prop
  | list {r s : Ref} : (heap.sequence r).isEqv (heap.sequence s) same = true →
      Alike heap same (.list r) (.list s)
  | set {r s : Ref} : (heap.sequence r).isEqv (heap.sequence s) same = true →
      Alike heap same (.set r) (.set s)
  | map {r s : Ref} : Assoc.equal same same (heap.entries r) (heap.entries s) = true →
      Alike heap same (.map r) (.map s)
  | flat {a b : Value} : a.place? = none → a.matches b = true → Alike heap same a b

theorem PartsOn.entries {r : Ref} (h : heap.PartsOn domain same (.map r)) :
    EntriesOn domain same (heap.entries r) where
  key _ hentry := h.part _ (key_mem_parts hentry)
  value _ hentry := h.part _ (value_mem_parts hentry)
  distinct := h.distinct r rfl

theorem equalWith_iff_alike (h : IsEquivalenceOn domain same)
    (ha : heap.PartsOn domain same a) : heap.equalWith same a b = true ↔ heap.Alike same a b := by
  constructor
  · intro hab
    unfold equalWith at hab
    split at hab
    · rename_i r s
      apply Alike.list
      rcases Bool.or_eq_true_iff.mp hab with hrs | hitems
      · rw [← of_decide_eq_true hrs]
        exact (Assoc.isEqv_isEquivalenceOn h).refl _ ha.part
      · exact hitems
    · rename_i r s
      apply Alike.set
      rcases Bool.or_eq_true_iff.mp hab with hrs | hitems
      · rw [← of_decide_eq_true hrs]
        exact (Assoc.isEqv_isEquivalenceOn h).refl _ ha.part
      · exact hitems
    · rename_i r s
      apply Alike.map
      rcases Bool.or_eq_true_iff.mp hab with hrs | hentries
      · rw [← of_decide_eq_true hrs]
        exact (Assoc.equal_isEquivalenceOn h).refl _ ha.entries
      · exact hentries
    · rename_i hlist hset hmap
      -- A collection matches only itself, which is one of the cases above.
      apply Alike.flat _ hab
      cases a with
      | list r => exact absurd (of_decide_eq_true hab).symm (hlist r r rfl)
      | set r => exact absurd (of_decide_eq_true hab).symm (hset r r rfl)
      | map r => exact absurd (of_decide_eq_true hab).symm (hmap r r rfl)
      | _ => rfl
  · intro hab
    cases hab with
    | list hitems => exact Bool.or_eq_true_iff.mpr (Or.inr hitems)
    | set hitems => exact Bool.or_eq_true_iff.mpr (Or.inr hitems)
    | map hentries => exact Bool.or_eq_true_iff.mpr (Or.inr hentries)
    | flat hplace hmatches =>
        rw [equalWith]
        · exact hmatches
        · rintro r s rfl
          cases hplace
        · rintro r s rfl
          cases hplace
        · rintro r s rfl
          cases hplace

theorem Alike.symm (h : IsEquivalenceOn domain same) (ha : heap.PartsOn domain same a)
    (hb : heap.PartsOn domain same b) (hab : heap.Alike same a b) : heap.Alike same b a := by
  cases hab with
  | list hitems => exact .list ((Assoc.isEqv_isEquivalenceOn h).symm _ _ ha.part hb.part hitems)
  | set hitems => exact .set ((Assoc.isEqv_isEquivalenceOn h).symm _ _ ha.part hb.part hitems)
  | map hentries =>
      exact .map ((Assoc.equal_isEquivalenceOn h).symm _ _ ha.entries hb.entries hentries)
  | flat hplace hmatches =>
      exact .flat (Value.place?_eq_of_matches hmatches ▸ hplace) (Value.matches_symm hmatches)

theorem Alike.trans (h : IsEquivalenceOn domain same) (ha : heap.PartsOn domain same a)
    (hb : heap.PartsOn domain same b) (hc : heap.PartsOn domain same c)
    (hab : heap.Alike same a b) (hbc : heap.Alike same b c) : heap.Alike same a c := by
  cases hab with
  | list hitems =>
      cases hbc with
      | list hitems' =>
          exact .list ((Assoc.isEqv_isEquivalenceOn h).trans _ _ _ ha.part hb.part hc.part
            hitems hitems')
      | flat hplace => cases hplace
  | set hitems =>
      cases hbc with
      | set hitems' =>
          exact .set ((Assoc.isEqv_isEquivalenceOn h).trans _ _ _ ha.part hb.part hc.part
            hitems hitems')
      | flat hplace => cases hplace
  | map hentries =>
      cases hbc with
      | map hentries' =>
          exact .map ((Assoc.equal_isEquivalenceOn h).trans _ _ _ ha.entries hb.entries
            hc.entries hentries hentries')
      | flat hplace => cases hplace
  | flat hplace hmatches =>
      have hplace' := Value.place?_eq_of_matches hmatches ▸ hplace
      cases hbc with
      | flat _ hmatches' => exact .flat hplace (Value.matches_trans hmatches hmatches')
      | list | set | map => cases hplace'

theorem equalWith_isEquivalenceOn (h : IsEquivalenceOn domain same) :
    IsEquivalenceOn (heap.PartsOn domain same) (heap.equalWith same) := by
  constructor
  case refl =>
    intro a _
    unfold equalWith
    split
    · simp
    · simp
    · simp
    · exact matches_self a
  case symm =>
    intro a b ha hb hab
    rw [equalWith_iff_alike h ha] at hab
    rw [equalWith_iff_alike h hb]
    exact hab.symm h ha hb
  case trans =>
    intro a b c ha hb hc hab hbc
    rw [equalWith_iff_alike h ha] at hab ⊢
    rw [equalWith_iff_alike h hb] at hbc
    exact hab.trans h ha hb hc hbc

end Level

/-!
## All levels
-/

/-- The value nowhere contains itself, and no map in it has a key twice. -/
structure Proper (heap : Heap) (value : Value) : Prop where
  finite : heap.Finite value
  distinct : ∀ r, heap.Reaches value (.map r) → DistinctKeys heap.equal (heap.entries r)

section Proper

variable {heap : Heap} {whole part : Value}

theorem Proper.of_mem_parts (h : heap.Proper whole) (hpart : part ∈ heap.parts whole) :
    heap.Proper part where
  finite := h.finite.of_mem_parts hpart
  distinct r hr := h.distinct r (.head hpart hr)

/-- Lists and sets of proper values are proper, and so are maps of them with different keys. -/
theorem Proper.of_parts (hparts : ∀ part ∈ heap.parts whole, heap.Proper part)
    (hdistinct : ∀ r, whole = .map r → DistinctKeys heap.equal (heap.entries r)) :
    heap.Proper whole where
  finite := Finite.of_parts fun part hpart => (hparts part hpart).finite
  distinct r hr := by
    rcases Relation.ReflTransGen.cases_head hr with rfl | ⟨part, hpart, hrest⟩
    · exact hdistinct r rfl
    · exact (hparts part hpart).distinct r hrest

theorem Proper.of_place?_eq_none (h : whole.place? = none) : heap.Proper whole := by
  apply Proper.of_parts
  · intro part hpart
    rw [parts, h] at hpart
    cases hpart
  · rintro r rfl
    cases h

variable (heap)

/-- By induction on the depth: each level is an equivalence because the one below it is. -/
theorem equal_isEquivalenceOn_within (n : Nat) :
    IsEquivalenceOn (fun value => heap.Proper value ∧ heap.Within n value) heap.equal := by
  induction n with
  | zero =>
      constructor
      case refl => exact fun a ha => ha.2.elim
      case symm => exact fun a b ha => ha.2.elim
      case trans => exact fun a b c ha => ha.2.elim
  | succ n ih =>
      apply (equalWith_isEquivalenceOn ih).congr
      · rintro value ⟨hproper, hwithin⟩
        constructor
        · exact fun part hpart => ⟨hproper.of_mem_parts hpart, hwithin part hpart⟩
        · rintro r rfl
          exact hproper.distinct r .refl
      · intro a b ha hb
        exact equal_eq_equalWith ha.1.finite hb.1.finite

theorem equal_isEquivalenceOn : IsEquivalenceOn heap.Proper heap.equal :=
  (heap.equal_isEquivalenceOn_within (heap.size + 1)).congr
    (fun _ h => ⟨h, h.finite.within⟩) fun _ _ _ _ => rfl

/-- Natural equality is an equivalence of proper values, and a map has the same entry under equal
keys. -/
theorem natural_equality :
    IsEquivalenceOn heap.Proper heap.equal ∧
      ∀ r key key', heap.Proper (.map r) → heap.Proper key → heap.Proper key' →
        heap.equal key key' = true →
        (heap.entries r).find? (fun entry => heap.equal entry.1 key) =
            (heap.entries r).find? (fun entry => heap.equal entry.1 key') ∧
          Assoc.find? heap.equal key (heap.entries r) =
            Assoc.find? heap.equal key' (heap.entries r) := by
  constructor
  · exact heap.equal_isEquivalenceOn
  · intro r key key' hmap hkey hkey' hsame
    have hentry : ∀ entry ∈ heap.entries r,
        heap.equal entry.1 key = heap.equal entry.1 key' := by
      intro entry hentry
      have hproper := hmap.of_mem_parts (key_mem_parts hentry)
      exact heap.equal_isEquivalenceOn.same_right_eq hproper hkey hkey' hsame
    constructor
    · exact List.find?_congr hentry
    · exact Assoc.find?_congr hentry

end Proper

/-- Two maps with the entries in another order, a key that is not a number, and lists of decimals
that differ in scale; a third map has one of the lists as its key. -/
def twoOrders : Heap where
  sequences := #[[.bigDecimal ⟨10, 1⟩], [.bigDecimal ⟨100, 2⟩]]
  maps := #[[(.double Binary.invalid, .list 0), (.string "a", .int 1)],
    [(.string "a", .int 1), (.double Binary.invalid, .list 1)], [(.list 0, .int 7)]]
  objects := #[]
  closures := #[]

theorem natural_equality_twoOrders :
    twoOrders.equal (.map 1) (.map 0) = true ∧
      Assoc.find? twoOrders.equal (.list 1) (twoOrders.entries 2) = some (.int 7) := by
  have hlist (r : Ref) (hflat : ∀ part ∈ twoOrders.sequence r, part.place? = none) :
      twoOrders.Proper (.list r) :=
    .of_parts (fun part hpart => .of_place?_eq_none (hflat part hpart)) nofun
  have hlist0 : twoOrders.Proper (.list 0) := hlist 0 (by decide)
  have hlist1 : twoOrders.Proper (.list 1) := hlist 1 (by decide)
  have hmap (r : Ref) (hparts : ∀ part ∈ twoOrders.parts (.map r),
      part.place? = none ∨ part = .list 0 ∨ part = .list 1)
      (hdistinct : DistinctKeys twoOrders.equal (twoOrders.entries r)) :
      twoOrders.Proper (.map r) := by
    apply Proper.of_parts
    · intro part hpart
      rcases hparts part hpart with hflat | rfl | rfl
      · exact .of_place?_eq_none hflat
      · exact hlist0
      · exact hlist1
    · rintro s ⟨⟩
      exact hdistinct
  have hmap0 := hmap 0 (by decide) (by decide)
  have hmap1 := hmap 1 (by decide) (by decide)
  have hmap2 := hmap 2 (by decide) (by decide)
  rcases twoOrders.natural_equality with ⟨hequal, hlookup⟩
  constructor
  · exact hequal.symm _ _ hmap0 hmap1 (by decide)
  · rw [(hlookup 2 _ _ hmap2 hlist1 hlist0 (by decide)).2]
    decide

end Heap
end ExprLang
