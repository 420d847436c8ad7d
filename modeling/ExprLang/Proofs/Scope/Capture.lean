import Mathlib.Tactic.Common
import ExprLang.Scopes

/-!
# Captured scopes

The capture of scopes is one table in which every name has the value that it has under the
scopes.  Tables are canonical, so scopes under which all names have the same values have the
same capture, and a capture pushed on any scopes brings those values back.
-/

namespace ExprLang

/-!
## Tables with several entries added
-/

namespace Table

variable {α : Type}

/-- Added entries count before those that were there. -/
theorem find?_insertAll (t : Table α) (entries : List (String × α)) (name : String) :
    (t.insertAll entries).find? name = ((ofList entries).find? name <|> t.find? name) := by
  induction entries generalizing t with
  | nil => simp [insertAll, ofList]
  | cons entry rest ih =>
      have hcons (s : Table α) :
          s.insertAll (entry :: rest) = (s.insert entry.1 entry.2).insertAll rest := rfl
      rw [ofList, hcons, hcons, ih, ih]
      simp only [find?_insert, find?_empty]
      cases (ofList rest).find? name with
      | some value => rfl
      | none => split <;> rfl

theorem find?_ofList_of_sorted {entries : List (String × α)}
    (hsorted : entries.Pairwise fun a b => a.1 < b.1) (name : String) :
    (ofList entries).find? name = entries.lookup name := by
  induction entries with
  | nil => rfl
  | cons entry rest ih =>
      obtain ⟨key, value⟩ := entry
      obtain ⟨hkey, hrest⟩ := List.pairwise_cons.mp hsorted
      have hcons : (ofList ((key, value) :: rest) : Table α) =
          (empty.insert key value).insertAll rest := rfl
      rw [hcons, find?_insertAll, ih hrest, find?_insert, find?_empty, lookup_cons]
      split
      · rename_i hname
        have hnone : rest.lookup name = none := lookup_eq_none_of_lt (hname ▸ hkey)
        rw [hnone]
        rfl
      · cases rest.lookup name <;> rfl

theorem ofList_entries (t : Table α) : ofList t.entries = t :=
  ext_find? (find?_ofList_of_sorted t.sorted)

end Table

namespace Scopes

/-!
## Look-up in a capture
-/

theorem find?_capture (scopes : Scopes) (name : String) :
    scopes.capture.find? name = scopes.find? name := by
  rcases scopes with ⟨layers⟩
  induction layers with
  | nil => rfl
  | cons layer rest ih =>
      have hcapture : capture ⟨layer :: rest⟩ = (capture ⟨rest⟩).insertAll layer.entries := rfl
      have hpush : (⟨layer :: rest⟩ : Scopes) = push ⟨rest⟩ layer := rfl
      rw [hcapture, Table.find?_insertAll, Table.ofList_entries, ih, hpush, find?_push]

/-- Every name has the same value under both scopes. -/
def Agree (scopes scopes' : Scopes) : Prop :=
  ∀ name, scopes.find? name = scopes'.find? name

namespace Agree

variable {scopes scopes' : Scopes} (h : scopes.Agree scopes')

include h

theorem isBound (name : String) : scopes.isBound name = scopes'.isBound name := by
  unfold Scopes.isBound
  rw [h name]

theorem capture : scopes.capture = scopes'.capture := by
  apply Table.ext_find?
  intro name
  rw [find?_capture, find?_capture, h name]

theorem push (layer : Table Value) : (scopes.push layer).Agree (scopes'.push layer) := by
  intro name
  rw [find?_push, find?_push, h name]

end Agree
end Scopes
end ExprLang
