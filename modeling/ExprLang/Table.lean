/-!
# Tables

A finite map from names, kept as entries in ascending order of name.  The order makes the
map canonical: two tables that answer every look-up alike are equal (`Table.ext_find?`).
-/

namespace ExprLang

/-- A finite map from names. -/
structure Table (α : Type) where
  entries : List (String × α)
  sorted : entries.Pairwise fun a b => a.1 < b.1

namespace Table

variable {α : Type}

def empty : Table α := ⟨[], .nil⟩

instance : Inhabited (Table α) := ⟨empty⟩

def find? (t : Table α) (name : String) : Option α := t.entries.lookup name

def contains (t : Table α) (name : String) : Bool := (t.find? name).isSome

def size (t : Table α) : Nat := t.entries.length

def isEmpty (t : Table α) : Bool := t.entries.isEmpty

/-- The names, in ascending order. -/
def names (t : Table α) : List String := t.entries.map Prod.fst

/-!
## Insertion
-/

theorem lt_of_not_lt_of_ne {a b : String} (hlt : ¬ a < b) (hne : a ≠ b) : b < a := by
  rcases Decidable.em (b < a) with h | h
  · exact h
  · exact absurd (String.le_antisymm (String.not_lt.mp h) (String.not_lt.mp hlt)) hne

/-- Put an entry into ascending entries, in place of one of the same name. -/
def insertEntry (name : String) (value : α) : List (String × α) → List (String × α)
  | [] => [(name, value)]
  | (other, old) :: rest =>
    if name < other then (name, value) :: (other, old) :: rest
    else if name = other then (name, value) :: rest
    else (other, old) :: insertEntry name value rest

theorem mem_insertEntry {name : String} {value : α} {entries : List (String × α)}
    {entry : String × α} (h : entry ∈ insertEntry name value entries) :
    entry = (name, value) ∨ entry ∈ entries := by
  induction entries with
  | nil => exact Or.inl (by simpa [insertEntry] using h)
  | cons head rest ih =>
      obtain ⟨other, old⟩ := head
      simp only [insertEntry] at h
      split at h
      · simpa using h
      · split at h
        · rcases List.mem_cons.mp h with h | h
          · exact Or.inl h
          · exact Or.inr (List.mem_cons_of_mem _ h)
        · rcases List.mem_cons.mp h with h | h
          · exact Or.inr (by simp [h])
          · rcases ih h with h | h
            · exact Or.inl h
            · exact Or.inr (List.mem_cons_of_mem _ h)

theorem sorted_insertEntry {name : String} {value : α} {entries : List (String × α)}
    (h : entries.Pairwise fun a b => a.1 < b.1) :
    (insertEntry name value entries).Pairwise fun a b => a.1 < b.1 := by
  induction entries with
  | nil => simp [insertEntry]
  | cons head rest ih =>
      obtain ⟨other, old⟩ := head
      obtain ⟨hhead, hrest⟩ := List.pairwise_cons.mp h
      simp only [insertEntry]
      split
      · rename_i hlt
        refine List.pairwise_cons.mpr ⟨fun entry hentry => ?_, h⟩
        rcases List.mem_cons.mp hentry with rfl | hmem
        · exact hlt
        · exact String.lt_trans hlt (hhead _ hmem)
      · rename_i hlt
        split
        · rename_i heq
          subst heq
          exact List.pairwise_cons.mpr ⟨hhead, hrest⟩
        · rename_i hne
          refine List.pairwise_cons.mpr ⟨fun entry hentry => ?_, ih hrest⟩
          rcases mem_insertEntry hentry with rfl | hmem
          · exact lt_of_not_lt_of_ne hlt hne
          · exact hhead _ hmem

/-- The table with an entry added or replaced. -/
def insert (t : Table α) (name : String) (value : α) : Table α :=
  ⟨insertEntry name value t.entries, sorted_insertEntry t.sorted⟩

/-- The table without the entry of a name. -/
def erase (t : Table α) (name : String) : Table α :=
  ⟨t.entries.filter fun entry => entry.1 != name, t.sorted.filter _⟩

/-- The table with several entries added in turn. -/
def insertAll (t : Table α) (entries : List (String × α)) : Table α :=
  entries.foldl (fun t entry => t.insert entry.1 entry.2) t

/-- The table of some entries; of two with one name the later counts. -/
def ofList (entries : List (String × α)) : Table α := empty.insertAll entries

/-!
## Look-up laws
-/

@[simp]
theorem find?_empty (name : String) : (empty : Table α).find? name = none := rfl

theorem lookup_cons (name key : String) (value : α) (rest : List (String × α)) :
    ((key, value) :: rest).lookup name = if name = key then some value else rest.lookup name := by
  rw [List.lookup_cons]
  by_cases h : name = key
  · simp [h]
  · have : (name == key) = false := by simpa using h
    simp [this, h]

theorem lookup_insertEntry (name other : String) (value : α) (entries : List (String × α)) :
    (insertEntry name value entries).lookup other =
      if other = name then some value else entries.lookup other := by
  induction entries with
  | nil => simp [insertEntry, lookup_cons]
  | cons head rest ih =>
      obtain ⟨key, old⟩ := head
      simp only [insertEntry]
      split
      · simp only [lookup_cons]
      · split
        · rename_i heq
          subst heq
          simp only [lookup_cons]
          split <;> rfl
        · rename_i hne
          simp only [lookup_cons, ih]
          by_cases hkey : other = key
          · have : other ≠ name := fun h => hne (h.symm.trans hkey)
            simp [hkey, hkey ▸ this]
          · simp [hkey]

@[simp]
theorem find?_insert (t : Table α) (name other : String) (value : α) :
    (t.insert name value).find? other = if other = name then some value else t.find? other :=
  lookup_insertEntry name other value t.entries

theorem lookup_filter_ne (name other : String) (entries : List (String × α)) :
    (entries.filter fun entry => entry.1 != name).lookup other =
      if other = name then none else entries.lookup other := by
  induction entries with
  | nil => simp
  | cons head rest ih =>
      obtain ⟨key, value⟩ := head
      by_cases hkey : key = name
      · rw [List.filter_cons_of_neg (by simp [hkey]), ih, lookup_cons]
        by_cases hother : other = name
        · rw [if_pos hother, if_pos hother]
        · rw [if_neg hother, if_neg hother, if_neg (hkey ▸ hother)]
      · rw [List.filter_cons_of_pos (by simp [hkey]), lookup_cons, lookup_cons, ih]
        by_cases hother : other = key
        · rw [if_pos hother, if_pos hother, if_neg (hother ▸ hkey)]
        · rw [if_neg hother, if_neg hother]

@[simp]
theorem find?_erase (t : Table α) (name other : String) :
    (t.erase name).find? other = if other = name then none else t.find? other :=
  lookup_filter_ne name other t.entries

/-- A name below every key is not bound. -/
theorem lookup_eq_none_of_lt {name : String} {entries : List (String × α)}
    (h : ∀ entry ∈ entries, name < entry.1) : entries.lookup name = none := by
  induction entries with
  | nil => rfl
  | cons head rest ih =>
      obtain ⟨key, value⟩ := head
      have hne : name ≠ key := fun heq =>
        String.lt_irrefl key (heq ▸ h (key, value) (by simp))
      rw [lookup_cons, if_neg hne]
      exact ih fun entry hentry => h entry (List.mem_cons_of_mem _ hentry)

theorem entries_eq_of_lookup {xs ys : List (String × α)}
    (hx : xs.Pairwise fun a b => a.1 < b.1) (hy : ys.Pairwise fun a b => a.1 < b.1)
    (h : ∀ name, xs.lookup name = ys.lookup name) : xs = ys := by
  induction xs generalizing ys with
  | nil =>
      cases ys with
      | nil => rfl
      | cons head rest =>
          obtain ⟨key, value⟩ := head
          simpa [lookup_cons] using h key
  | cons head rest ih =>
      obtain ⟨key, value⟩ := head
      obtain ⟨hkey, hrest⟩ := List.pairwise_cons.mp hx
      cases ys with
      | nil => simpa [lookup_cons] using h key
      | cons head' rest' =>
          obtain ⟨key', value'⟩ := head'
          obtain ⟨hkey', hrest'⟩ := List.pairwise_cons.mp hy
          have hnone : rest.lookup key = none := lookup_eq_none_of_lt hkey
          have hnone' : rest'.lookup key' = none := lookup_eq_none_of_lt hkey'
          have heq : key = key' := by
            rcases Decidable.em (key = key') with heq | hne
            · exact heq
            · exfalso
              rcases Decidable.em (key < key') with hlt | hlt
              · have hlow : rest'.lookup key = none := lookup_eq_none_of_lt fun entry hentry =>
                  String.lt_trans hlt (hkey' entry hentry)
                simpa [lookup_cons, hne, hlow] using h key
              · have hlt' := lt_of_not_lt_of_ne hlt hne
                have hlow : rest.lookup key' = none := lookup_eq_none_of_lt fun entry hentry =>
                  String.lt_trans hlt' (hkey entry hentry)
                simpa [lookup_cons, Ne.symm hne, hlow] using h key'
          subst heq
          have hvalue : value = value' := by simpa [lookup_cons] using h key
          subst hvalue
          congr 1
          refine ih hrest hrest' fun name => ?_
          rcases Decidable.em (name = key) with rfl | hne
          · rw [hnone, hnone']
          · simpa [lookup_cons, hne] using h name

/-- Tables that agree on every look-up are equal. -/
theorem ext_find? {s t : Table α} (h : ∀ name, s.find? name = t.find? name) : s = t := by
  obtain ⟨xs, hx⟩ := s
  obtain ⟨ys, hy⟩ := t
  have : xs = ys := entries_eq_of_lookup hx hy h
  subst this
  rfl

end Table
end ExprLang
