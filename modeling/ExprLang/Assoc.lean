/-!
# Entries under a given equality

Lists of entries, and lists without repetition, where an arbitrary Boolean relation decides
which keys are the same.  Entries keep the order in which their keys first came.
-/

namespace ExprLang
namespace Assoc

variable {α β : Type} (same : α → α → Bool)

/-- The value of the first entry with a key. -/
def find? (key : α) : List (α × β) → Option β
  | [] => none
  | (k, v) :: rest => if same k key then some v else find? key rest

def contains (key : α) (entries : List (α × β)) : Bool := (find? same key entries).isSome

/-- Replace the value of the first entry with a key, or add an entry at the end. -/
def insert (key : α) (value : β) : List (α × β) → List (α × β)
  | [] => [(key, value)]
  | (k, v) :: rest => if same k key then (k, value) :: rest else (k, v) :: insert key value rest

/-- Drop the first entry with a key. -/
def erase (key : α) : List (α × β) → List (α × β)
  | [] => []
  | (k, v) :: rest => if same k key then rest else (k, v) :: erase key rest

/-- Replace or add an entry, and return the value that it displaces. -/
def findThenInsert (key : α) (value : β) : List (α × β) → Option β × List (α × β)
  | [] => (none, [(key, value)])
  | (k, v) :: rest =>
    if same k key then (some v, (k, value) :: rest)
    else Prod.map id ((k, v) :: ·) (findThenInsert key value rest)

/-- Drop the first entry with a key, and return its value. -/
def findThenErase (key : α) : List (α × β) → Option β × List (α × β)
  | [] => (none, [])
  | (k, v) :: rest =>
    if same k key then (some v, rest) else Prod.map id ((k, v) :: ·) (findThenErase key rest)

/-- The entries of a list, inserted in turn. -/
def ofList (entries : List (α × β)) : List (α × β) :=
  entries.foldl (fun acc entry => insert same entry.1 entry.2 acc) []

/-- Whether two lists of entries bind the same keys to the same values. -/
def equal (sameValue : β → β → Bool) (xs ys : List (α × β)) : Bool :=
  xs.length == ys.length && xs.all fun (k, v) =>
    match find? same k ys with
    | some w => sameValue w v
    | none => false

/-- The first occurrences among `items`, after those in `seen`. -/
def distinctFrom (seen : List α) : List α → List α
  | [] => seen
  | item :: rest =>
    if seen.any (same · item) then distinctFrom seen rest
    else distinctFrom (seen ++ [item]) rest

def distinct (items : List α) : List α := distinctFrom same [] items

/-!
## Relations without an answer

The same look-ups where the relation may fail to answer.  Keys are compared in order, and a
comparison without an answer leaves the whole look-up without one.
-/

section Partial

variable (same? : α → α → Option Bool)

/-- Whether two lists have one length and the same elements, compared from the left. -/
def agree? (xs ys : List α) : Option Bool :=
  if xs.length = ys.length then (xs.zip ys).allM fun (x, y) => same? x y else some false

def lookup? (key : α) : List (α × β) → Option (Option β)
  | [] => some none
  | (k, v) :: rest => do if ← same? k key then some (some v) else lookup? key rest

def insert? (key : α) (value : β) : List (α × β) → Option (List (α × β))
  | [] => some [(key, value)]
  | (k, v) :: rest => do
    if ← same? k key then some ((k, value) :: rest)
    else return (k, v) :: (← insert? key value rest)

def equal? (sameValue? : β → β → Option Bool) (xs ys : List (α × β)) : Option Bool :=
  if xs.length = ys.length then
    xs.allM fun (k, v) => do
      match ← lookup? same? k ys with
      | some w => sameValue? w v
      | none => some false
  else some false

end Partial

/-!
## Look-up after a change
-/

@[simp]
theorem find?_nil (key : α) : find? same key ([] : List (α × β)) = none := rfl

theorem find?_insert_same (hrefl : ∀ a, same a a = true) (key : α) (value : β)
    (entries : List (α × β)) : find? same key (insert same key value entries) = some value := by
  induction entries with
  | nil => simp [insert, find?, hrefl]
  | cons head rest ih =>
      obtain ⟨k, v⟩ := head
      simp only [insert]
      split
      · rename_i h
        simp [find?, h]
      · rename_i h
        simp [find?, h, ih]

theorem findThenInsert_eq (key : α) (value : β) (entries : List (α × β)) :
    findThenInsert same key value entries =
      (find? same key entries, insert same key value entries) := by
  induction entries with
  | nil => rfl
  | cons head rest ih =>
      obtain ⟨k, v⟩ := head
      simp only [findThenInsert, find?, insert, ih]
      split <;> rfl

theorem findThenErase_eq (key : α) (entries : List (α × β)) :
    findThenErase same key entries = (find? same key entries, erase same key entries) := by
  induction entries with
  | nil => rfl
  | cons head rest ih =>
      obtain ⟨k, v⟩ := head
      simp only [findThenErase, find?, erase, ih]
      split <;> rfl

theorem length_insert_le (key : α) (value : β) (entries : List (α × β)) :
    (insert same key value entries).length ≤ entries.length + 1 := by
  induction entries with
  | nil => simp [insert]
  | cons head rest ih =>
      obtain ⟨k, v⟩ := head
      simp only [insert]
      split <;> simp_all

end Assoc
end ExprLang
