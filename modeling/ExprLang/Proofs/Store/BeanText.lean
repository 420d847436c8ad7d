import Mathlib.Tactic.Common
import ExprLang.Resolver.BeanProperty

/-!
# The text that names a property

A bean is asked for the property that the text of a value names, and a change of the bean may
change that text.  It does not when the text names a property of the bean: the text of a value
that holds the bean lists all names of its properties, and is longer than each of them.
-/

namespace ExprLang
namespace Heap

/-!
## Lengths
-/

theorem length_le_joined (separator : String) {parts : List String} {part : String}
    (h : part ∈ parts) : part.length ≤ (Text.joined separator parts).length := by
  unfold Text.joined
  induction parts with
  | nil => cases h
  | cons head rest ih =>
      rcases eq_or_ne rest [] with rfl | hrest
      · exact Nat.le_of_eq (by rw [List.mem_singleton.mp h, String.intercalate_singleton])
      · rw [String.intercalate_cons_of_ne_nil hrest, String.length_append, String.length_append]
        rcases List.mem_cons.mp h with rfl | hmem
        · lia
        · have hpart := ih hmem
          lia

theorem length_lt_listed {parts : List String} {part : String} (h : part ∈ parts) :
    part.length < (listed parts).length := by
  have hpart := length_le_joined ", " h
  have hopen : "[".length = 1 := rfl
  rw [listed, String.length_append, String.length_append, hopen]
  lia

theorem length_lt_braced {parts : List String} {part : String} (h : part ∈ parts) :
    part.length < (braced parts).length := by
  have hpart := length_le_joined ", " h
  have hopen : "\x7b".length = 1 := rfl
  rw [braced, String.length_append, String.length_append, hopen]
  lia

/-- Parts that are the same or long make lists that are the same or have a long part. -/
theorem map_eq_or_long {α : Type} {n : Nat} {l : List α} {f f' : α → String}
    (h : ∀ x ∈ l, f' x = f x ∨ n < (f x).length) :
    l.map f' = l.map f ∨ ∃ part ∈ l.map f, n < part.length := by
  by_cases hlong : ∃ x ∈ l, n < (f x).length
  · rcases hlong with ⟨x, hx, hlong⟩
    exact Or.inr ⟨f x, List.mem_map_of_mem hx, hlong⟩
  · refine Or.inl (List.map_congr_left fun x hx => ?_)
    rcases h x hx with heq | hlong'
    · exact heq
    · exact absurd ⟨x, hx, hlong'⟩ hlong

/-!
## The text after a change of a bean
-/

/-- The heaps agree on all that texts show except the values of the properties of one bean. -/
structure ShowsBeside (r : Ref) (heap heap' : Heap) : Prop where
  sequence : ∀ s, heap'.sequence s = heap.sequence s
  entries : ∀ s, heap'.entries s = heap.entries s
  closure : ∀ s, heap'.closure s = heap.closure s
  object : ∀ s, s ≠ r → heap'.object s = heap.object s

theorem showUpTo_eq_or_long {r : Ref} {heap heap' : Heap} (h : ShowsBeside r heap heap')
    {p : Property} (hp : p ∈ (heap.object r).properties) (fuel : Nat) (value : Value) :
    heap'.showUpTo fuel value = heap.showUpTo fuel value ∨
      p.name.length < (heap.showUpTo fuel value).length := by
  induction fuel generalizing value with
  | zero => cases value <;> simp [showUpTo, h.closure]
  | succ fuel ih =>
      have hlisted (items : List Value) :
          listed (items.map (heap'.showUpTo fuel)) = listed (items.map (heap.showUpTo fuel)) ∨
            p.name.length < (listed (items.map (heap.showUpTo fuel))).length := by
        rcases map_eq_or_long fun item _ => ih item with heq | ⟨part, hpart, hlong⟩
        · exact Or.inl (congrArg listed heq)
        · exact Or.inr (Nat.lt_trans hlong (length_lt_listed hpart))
      cases value with
      | list s | set s | array component s =>
          simp only [showUpTo, h.sequence]
          exact hlisted (heap.sequence s)
      | map s =>
          simp only [showUpTo, h.entries]
          have hentry : ∀ entry ∈ heap.entries s,
              heap'.showUpTo fuel entry.1 ++ "=" ++ heap'.showUpTo fuel entry.2 =
                  heap.showUpTo fuel entry.1 ++ "=" ++ heap.showUpTo fuel entry.2 ∨
                p.name.length <
                  (heap.showUpTo fuel entry.1 ++ "=" ++ heap.showUpTo fuel entry.2).length := by
            intro entry _
            simp only [String.length_append]
            rcases ih entry.1 with hkey | hlong
            · rcases ih entry.2 with hvalue | hlong
              · exact Or.inl (by rw [hkey, hvalue])
              · exact Or.inr (by lia)
            · exact Or.inr (by lia)
          rcases map_eq_or_long hentry with heq | ⟨part, hpart, hlong⟩
          · exact Or.inl (congrArg braced heq)
          · exact Or.inr (Nat.lt_trans hlong (length_lt_braced hpart))
      | bean s =>
          simp only [showUpTo]
          rcases eq_or_ne s r with rfl | hne
          · refine Or.inr ?_
            have hpart := length_lt_braced (List.mem_map_of_mem
              (f := fun p : Property => p.name ++ "=" ++ heap.showUpTo fuel p.value) hp)
            simp only [String.length_append] at hpart ⊢
            lia
          · rw [h.object s hne]
            have hproperty : ∀ q ∈ (heap.object s).properties,
                q.name ++ "=" ++ heap'.showUpTo fuel q.value =
                    q.name ++ "=" ++ heap.showUpTo fuel q.value ∨
                  p.name.length < (q.name ++ "=" ++ heap.showUpTo fuel q.value).length := by
              intro q _
              simp only [String.length_append]
              rcases ih q.value with hvalue | hlong
              · exact Or.inl (by rw [hvalue])
              · exact Or.inr (by lia)
            rcases map_eq_or_long hproperty with heq | ⟨part, hpart, hlong⟩
            · exact Or.inl (by rw [heq])
            · have hbraced := length_lt_braced hpart
              refine Or.inr ?_
              rw [String.length_append]
              lia
      | _ => exact Or.inl (by simp only [showUpTo, h.closure])

/-- Text that names a property of a bean is the same after a change of the bean. -/
theorem text_eq_of_names {r : Ref} {heap heap' : Heap} (h : ShowsBeside r heap heap')
    (hsize : heap'.size = heap.size) {name : Value} {p : Property}
    (hp : (heap.object r).property? (heap.text name) = some p) :
    heap'.text name = heap.text name := by
  have hmem : p ∈ (heap.object r).properties := List.mem_of_find?_eq_some hp
  have hname : p.name = heap.text name := by simpa using List.find?_some hp
  have hdisplay : heap'.display name = heap.display name ∨
      p.name.length < (heap.display name).length := by
    unfold display
    rw [hsize]
    exact showUpTo_eq_or_long h hmem _ name
  cases name with
  | null => rfl
  | _ =>
      rcases hdisplay with heq | hlong
      · exact heq
      · rw [hname] at hlong
        exact absurd hlong (Nat.lt_irrefl _)

end Heap
end ExprLang
