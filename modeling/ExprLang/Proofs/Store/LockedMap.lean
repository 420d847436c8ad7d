import Mathlib.Tactic.Common
import ExprLang.World

/-!
# Storing in a locked map

A store compares keys while its map is locked.  When every comparison has an answer, none of
them looked into that map, so the answers are the same once the map has changed: the entry
that was stored is the one that a look-up finds.
-/

namespace ExprLang
namespace Assoc

/-!
## Relations that answer in part
-/

section Partial

variable {α β : Type} {same? : α → α → Option Bool} {same : α → α → Bool}

/-- Where the partial relation has an answer, it is that of the total one. -/
def Extends (same? : α → α → Option Bool) (same : α → α → Bool) : Prop :=
  ∀ a b answer, same? a b = some answer → same a b = answer

theorem all_of_allM {γ : Type} {test? : γ → Option Bool} {test : γ → Bool}
    (h : ∀ {c answer}, test? c = some answer → test c = answer) {l : List γ} {answer : Bool}
    (hall : l.allM test? = some answer) : l.all test = answer := by
  induction l with
  | nil =>
      cases hall
      rfl
  | cons c rest ih =>
      rcases Option.bind_eq_some_iff.mp hall with ⟨here, hhere, hrest⟩
      cases here with
      | false =>
          cases hrest
          simp [h hhere]
      | true => simpa [h hhere] using ih hrest

theorem isEqv_eq_all_zip (xs ys : List α) :
    xs.isEqv ys same =
      (decide (xs.length = ys.length) && (xs.zip ys).all fun p => same p.1 p.2) := by
  induction xs generalizing ys with
  | nil => cases ys <;> simp
  | cons x xs ih =>
      cases ys with
      | nil => simp
      | cons y ys => simp [List.isEqv_cons_cons, ih, Bool.and_left_comm]

theorem agree?_extends (h : Extends same? same) :
    Extends (agree? same?) fun xs ys => xs.isEqv ys same := by
  intro xs ys answer hagree
  unfold agree? at hagree
  change xs.isEqv ys same = answer
  rw [isEqv_eq_all_zip]
  split at hagree
  · rename_i hlength
    simpa [hlength] using all_of_allM (fun hpair => h _ _ _ hpair) hagree
  · rename_i hlength
    cases hagree
    simp [hlength]

theorem lookup?_eq_some (h : Extends same? same) {key : α} {entries : List (α × β)}
    {found : Option β} (hlookup : lookup? same? key entries = some found) :
    find? same key entries = found := by
  induction entries with
  | nil =>
      cases hlookup
      rfl
  | cons entry rest ih =>
      rcases entry with ⟨k, v⟩
      rcases Option.bind_eq_some_iff.mp hlookup with ⟨here, hhere, hrest⟩
      cases here with
      | false => simpa [find?, h _ _ _ hhere] using ih hrest
      | true => simpa [find?, h _ _ _ hhere] using hrest

theorem equal?_extends {sameValue? : β → β → Option Bool} {sameValue : β → β → Bool}
    (h : Extends same? same) (hvalue : Extends sameValue? sameValue) :
    Extends (equal? same? sameValue?) (equal same sameValue) := by
  intro xs ys answer hequal
  unfold equal? at hequal
  unfold equal
  split at hequal
  · rename_i hlength
    rw [beq_iff_eq.mpr hlength, Bool.true_and]
    refine all_of_allM ?_ hequal
    rintro ⟨k, v⟩ here hhere
    rcases Option.bind_eq_some_iff.mp hhere with ⟨found, hlookup, hfound⟩
    simp only [lookup?_eq_some h hlookup]
    cases found with
    | some w => exact hvalue _ _ _ hfound
    | none =>
        cases hfound
        rfl
  · rename_i hlength
    cases hequal
    simp [hlength]

/-- The entry that was stored is found. -/
theorem find?_insert? (h : Extends same? same) {key : α} (hself : same key key = true)
    {value : β} {entries entries' : List (α × β)}
    (hinsert : insert? same? key value entries = some entries') :
    find? same key entries' = some value := by
  induction entries generalizing entries' with
  | nil =>
      cases hinsert
      simp [find?, hself]
  | cons entry rest ih =>
      rcases entry with ⟨k, v⟩
      rcases Option.bind_eq_some_iff.mp hinsert with ⟨here, hhere, hrest⟩
      cases here with
      | false =>
          rcases Option.bind_eq_some_iff.mp hrest with ⟨rest', hrest', heq⟩
          cases heq
          simpa [find?, h _ _ _ hhere] using ih hrest'
      | true =>
          cases hrest
          simp [find?, h _ _ _ hhere]

/-- A store changes one entry: the value of a present one, or a new one at the end. -/
theorem insert?_changes {key : α} {value : β} {entries entries' : List (α × β)}
    (hinsert : insert? same? key value entries = some entries') :
    (∃ i k v, entries[i]? = some (k, v) ∧ same? k key = some true ∧
        entries' = entries.set i (k, value)) ∨
      entries' = entries ++ [(key, value)] := by
  induction entries generalizing entries' with
  | nil =>
      cases hinsert
      exact Or.inr rfl
  | cons entry rest ih =>
      rcases entry with ⟨k, v⟩
      rcases Option.bind_eq_some_iff.mp hinsert with ⟨here, hhere, hrest⟩
      cases here with
      | false =>
          rcases Option.bind_eq_some_iff.mp hrest with ⟨rest', hrest', heq⟩
          cases heq
          rcases ih hrest' with ⟨i, k', v', hi, hkey, rfl⟩ | rfl
          · exact Or.inl ⟨i + 1, k', v', hi, hkey, rfl⟩
          · exact Or.inr rfl
      | true =>
          cases hrest
          exact Or.inl ⟨0, k, v, rfl, hhere, rfl⟩

end Partial

end Assoc

namespace Heap

/-!
## Equality beside a map
-/

/-- The heaps agree on the elements of sequences and on the entries of all maps but one. -/
structure AgreesBeside (held : Ref) (heap heap' : Heap) : Prop where
  sequence : ∀ r, heap'.sequence r = heap.sequence r
  entries : ∀ r, r ≠ held → heap'.entries r = heap.entries r

/-- Sequences are the same object or have the same elements. -/
theorem sequence_equal_of_agree? {same? : Value → Value → Option Bool}
    {same : Value → Value → Bool} (hsame : Assoc.Extends same? same) {r s : Ref}
    {xs ys : List Value} {answer : Bool}
    (h : (if r = s then some true else Assoc.agree? same? xs ys) = some answer) :
    (r = s || xs.isEqv ys same) = answer := by
  split at h
  · rename_i hrs
    simpa [hrs] using h
  · rename_i hrs
    simpa [hrs] using Assoc.agree?_extends hsame _ _ _ h

theorem equalBesideUpTo?_extends {held : Ref} {heap heap' : Heap}
    (hagrees : AgreesBeside held heap heap') (fuel : Nat) :
    Assoc.Extends (heap.equalBesideUpTo? held fuel) (heap'.equalUpTo fuel) := by
  induction fuel with
  | zero =>
      intro a b answer h
      rw [equalBesideUpTo?] at h
      · rw [equalUpTo]
        · exact Option.some.inj h
        all_goals simp
      all_goals simp
  | succ fuel ih =>
      intro a b answer h
      unfold equalBesideUpTo? at h
      split at h
      · rename_i heq
        cases heq
        rw [equalUpTo, hagrees.sequence, hagrees.sequence]
        exact sequence_equal_of_agree? ih h
      · rename_i heq
        cases heq
        rw [equalUpTo, hagrees.sequence, hagrees.sequence]
        exact sequence_equal_of_agree? ih h
      · rename_i heq
        cases heq
        rw [equalUpTo]
        split at h
        · rename_i hrs
          simpa [hrs] using h
        · rename_i hrs
          split at h
          · cases h
          · rename_i hheld
            simp only [Bool.or_eq_true, decide_eq_true_eq, not_or] at hheld
            rw [hagrees.entries _ hheld.1, hagrees.entries _ hheld.2]
            simpa [hrs] using Assoc.equal?_extends ih ih _ _ _ h
      · rename_i hlist hset hmap
        rw [equalUpTo]
        · exact Option.some.inj h
        · exact hlist
        · exact hset
        · exact hmap

/-- Equality that has an answer beside a locked map keeps it when the map changes. -/
theorem equalBeside?_extends {held : Ref} {heap heap' : Heap}
    (hagrees : AgreesBeside held heap heap') (hsize : heap'.size = heap.size) :
    Assoc.Extends (heap.equalBeside? held) heap'.equal := by
  intro a b answer h
  unfold equal
  rw [hsize]
  exact equalBesideUpTo?_extends hagrees _ _ _ _ h

theorem matches_self (a : Value) : a.matches a = true := by
  cases a with
  | bigDecimal d => simp [Value.matches, Decimal.equals, Decimal.compare]
  | _ => simp [Value.matches]

theorem equal_self (heap : Heap) (a : Value) : heap.equal a a = true := by
  unfold equal
  cases a with
  | list r | set r | map r => simp [equalUpTo]
  | _ => exact matches_self _

/-!
## Changed entries
-/

theorem size_setEntries (heap : Heap) (r : Ref) (entries : List (Value × Value)) :
    (heap.setEntries r entries).size = heap.size := by
  simp [size, setEntries]

theorem entries_setEntries_self {heap : Heap} {r : Ref} (hr : r < heap.maps.size)
    (entries : List (Value × Value)) : (heap.setEntries r entries).entries r = entries := by
  simp [setEntries, Heap.entries, hr]

theorem entries_setEntries_of_ne (heap : Heap) {r s : Ref} (h : s ≠ r)
    (entries : List (Value × Value)) :
    (heap.setEntries r entries).entries s = heap.entries s := by
  simp [setEntries, Heap.entries, h.symm]

theorem agreesBeside_setEntries (heap : Heap) (r : Ref) (entries : List (Value × Value)) :
    AgreesBeside r heap (heap.setEntries r entries) :=
  ⟨fun _ => rfl, fun _ hs => entries_setEntries_of_ne heap hs entries⟩

/-- What was stored in a locked map is found there. -/
theorem find?_setEntries {heap : Heap} {r : Ref} (hr : r < heap.maps.size) {key value : Value}
    {entries : List (Value × Value)}
    (h : Assoc.insert? (heap.equalBeside? r) key value (heap.entries r) = some entries) :
    Assoc.find? (heap.setEntries r entries).equal key
      ((heap.setEntries r entries).entries r) = some value := by
  rw [entries_setEntries_self hr]
  have hextends : Assoc.Extends (heap.equalBeside? r) (heap.setEntries r entries).equal :=
    equalBeside?_extends (agreesBeside_setEntries heap r entries) (size_setEntries heap r entries)
  exact Assoc.find?_insert? hextends (equal_self _ key) h

end Heap
end ExprLang
