import ExprLang.Proofs.Equality.Equivalence

/-!
# Maps and the changes that made them

What a map holds can be read off the changes that made it, without its list of entries: a key has
the value that was last inserted under it, unless it was removed since, and the keys stand in the
order of the insertions that found them absent.  The list of entries, searched and changed in its
place, never says anything else.
-/

namespace ExprLang

/-- A change of a map. -/
inductive Change (α β : Type)
  | insert (key : α) (value : β)
  | remove (key : α)

namespace Change

variable {α β : Type}

def key : Change α β → α
  | insert key _ | remove key => key

/-- What the key is bound to after the change. -/
def value? : Change α β → Option β
  | insert _ value => some value
  | remove _ => none

/-- The value that the change displaces, and the entries after it. -/
def apply (same : α → α → Bool) (entries : List (α × β)) : Change α β → Option β × List (α × β)
  | insert key value => Assoc.findThenInsert same key value entries
  | remove key => Assoc.findThenErase same key entries

/-- Whether the change leaves a key without a value. -/
def removes (same : α → α → Bool) (change : Change α β) (key : α) : Bool :=
  change.value?.isNone && same change.key key

theorem apply_fst (same : α → α → Bool) (entries : List (α × β)) (change : Change α β) :
    (change.apply same entries).1 = Assoc.find? same change.key entries := by
  cases change with
  | insert key value => exact congrArg Prod.fst (Assoc.findThenInsert_eq same key value entries)
  | remove key => exact congrArg Prod.fst (Assoc.findThenErase_eq same key entries)

end Change

namespace Assoc

/-!
## What a history says
-/

section Histories

variable {α β : Type} (same : α → α → Bool) (history : List (Change α β))

/-- The entries after a history of changes of the empty map. -/
def replay : List (α × β) :=
  history.foldl (fun entries change => (change.apply same entries).2) []

/-- The value that was last inserted under a key, unless the key was removed since. -/
def current? (key : α) : Option β :=
  (history.reverse.find? fun change => same change.key key).bind Change.value?

/-- The key that has its place from the change with a number: the change inserts the key, which is
absent before it, and no later change removes it. -/
def placed? (number : Nat) : Option α :=
  match history[number]? with
  | some (.insert key _) =>
    if (current? same (history.take number) key).isNone &&
        !(history.drop (number + 1)).any (·.removes same key) then some key
    else none
  | _ => none

/-- The keys in the order of the changes that they have their places from. -/
def order : List α := (List.range history.length).filterMap (placed? same history)

variable {same history}

theorem replay_concat (change : Change α β) :
    replay same (history ++ [change]) = (change.apply same (replay same history)).2 :=
  List.foldl_concat _ _ _ _

theorem replay_insert (key : α) (value : β) :
    replay same (history ++ [.insert key value]) = insert same key value (replay same history) := by
  rw [replay_concat, Change.apply, findThenInsert_eq]

theorem replay_remove (key : α) :
    replay same (history ++ [.remove key]) = erase same key (replay same history) := by
  rw [replay_concat, Change.apply, findThenErase_eq]

theorem current?_concat (change : Change α β) (key : α) :
    current? same (history ++ [change]) key =
      if same change.key key then change.value? else current? same history key := by
  unfold current?
  rw [List.reverse_concat, List.find?_cons]
  cases same change.key key <;> rfl

/-- A place that a change before the last gave is lost if the last change removes its key. -/
theorem placed?_concat_of_lt (change : Change α β) {number : Nat}
    (h : number < history.length) : placed? same (history ++ [change]) number =
      (placed? same history number).filter fun key => !change.removes same key := by
  unfold placed?
  rw [List.getElem?_append_left h, List.take_append_of_le_length h.le,
    List.drop_append_of_le_length h]
  rcases history[number]? with _ | ⟨key, value⟩ | key
  · rfl
  · simp only [List.any_append, List.any_cons, List.any_nil, Bool.or_false, Bool.not_or]
    rw [← Bool.and_assoc]
    generalize ((current? same (history.take number) key).isNone &&
      !(history.drop (number + 1)).any (·.removes same key)) = placed
    cases placed <;> cases hremoves : change.removes same key <;> simp [Option.filter, hremoves]
  · rfl

theorem order_concat (change : Change α β) :
    order same (history ++ [change]) =
      (order same history).filter (fun key => !change.removes same key) ++
        (placed? same (history ++ [change]) history.length).toList := by
  unfold order
  rw [List.length_append, List.length_singleton, List.range_succ, List.filterMap_append,
    List.filter_filterMap]
  congr 1
  apply List.filterMap_congr
  intro number hnumber
  exact placed?_concat_of_lt change (List.mem_range.mp hnumber)

theorem order_insert (key : α) (value : β) :
    order same (history ++ [.insert key value]) =
      if (current? same history key).isNone then order same history ++ [key]
      else order same history := by
  have hkeeps : (order same history).filter
      (fun key' => !(Change.insert key value).removes same key') = order same history :=
    List.filter_eq_self.mpr fun _ _ => rfl
  rw [order_concat, hkeeps, placed?]
  cases hcurrent : current? same history key <;> simp [hcurrent]

theorem order_remove (key : α) :
    order same (history ++ [.remove key] : List (Change α β)) =
      (order same history).filter fun key' => !same key key' := by
  rw [order_concat, placed?]
  simp [Change.removes, Change.value?, Change.key]

end Histories

/-!
## One change of the entries
-/

section Steps

variable {α β : Type} {domain : α → Prop} {same : α → α → Bool} {entries : List (α × β)}
  {key key' : α}

theorem find?_eq_none_iff :
    find? same key entries = none ↔ ∀ entry ∈ entries, same entry.1 key = false := by
  induction entries with
  | nil => simp
  | cons head rest ih =>
      rcases head with ⟨k, v⟩
      rw [find?, List.forall_mem_cons]
      cases same k key with
      | true => simp
      | false => simpa using ih

theorem insert_of_find?_eq_none (hfind : find? same key entries = none) (value : β) :
    insert same key value entries = entries ++ [(key, value)] := by
  induction entries with
  | nil => rfl
  | cons head rest ih =>
      rcases head with ⟨k, v⟩
      rw [find?_eq_none_iff, List.forall_mem_cons, ← find?_eq_none_iff] at hfind
      rw [insert, if_neg (Bool.eq_false_iff.mp hfind.1), ih hfind.2, List.cons_append]

theorem DistinctKeys.of_keys_eq {entries' : List (α × β)} (hdistinct : DistinctKeys same entries)
    (hkeys : entries'.map Prod.fst = entries.map Prod.fst) : DistinctKeys same entries' := by
  have hpairwise : (entries.map Prod.fst).Pairwise fun k k' => same k k' = false :=
    List.pairwise_map.mpr hdistinct
  rw [← hkeys] at hpairwise
  exact List.pairwise_map.mp hpairwise

/-- A key that is the same as the first one differs from all others. -/
theorem DistinctKeys.others {first : α × β} (h : IsEquivalenceOn domain same)
    (hdistinct : DistinctKeys same (first :: entries))
    (hkeys : ∀ entry ∈ first :: entries, domain entry.1) (hkey : domain key)
    (hfirst : same first.1 key = true) : ∀ entry ∈ entries, same entry.1 key = false := by
  intro entry hentry
  rcases List.forall_mem_cons.mp hkeys with ⟨hdomain, hrest⟩
  rw [Bool.eq_false_iff]
  intro hsame
  have hother := (List.pairwise_cons.mp hdistinct).1 entry hentry
  rw [h.same_right_eq hdomain (hrest entry hentry) hkey hsame, hfirst] at hother
  cases hother

theorem insert_of_find?_isSome (h : IsEquivalenceOn domain same)
    (hdistinct : DistinctKeys same entries) (hkeys : ∀ entry ∈ entries, domain entry.1)
    (hkey : domain key) (hfind : (find? same key entries).isSome) (value : β) :
    insert same key value entries =
      entries.map fun entry => if same entry.1 key then (entry.1, value) else entry := by
  induction entries with
  | nil => cases hfind
  | cons head rest ih =>
      rcases head with ⟨k, v⟩
      rw [insert, List.map_cons]
      rw [find?] at hfind
      by_cases hsame : same k key = true
      · rw [if_pos hsame, if_pos hsame]
        have hothers := hdistinct.others h hkeys hkey hsame
        congr 1
        refine (List.map_id rest).symm.trans ?_
        apply List.map_congr_left
        intro entry hentry
        rw [hothers entry hentry]
        rfl
      · rw [if_neg hsame] at hfind ⊢
        rw [if_neg hsame, ih hdistinct.of_cons (List.forall_mem_cons.mp hkeys).2 hfind]

theorem erase_eq_filter (h : IsEquivalenceOn domain same)
    (hdistinct : DistinctKeys same entries) (hkeys : ∀ entry ∈ entries, domain entry.1)
    (hkey : domain key) :
    erase same key entries = entries.filter fun entry => !same entry.1 key := by
  induction entries with
  | nil => rfl
  | cons head rest ih =>
      rcases head with ⟨k, v⟩
      rw [erase, List.filter_cons]
      by_cases hsame : same k key = true
      · rw [if_pos hsame, hsame]
        have hothers := hdistinct.others h hkeys hkey hsame
        refine (List.filter_eq_self.mpr ?_).symm
        intro entry hentry
        rw [hothers entry hentry]
        rfl
      · rw [if_neg hsame, ih hdistinct.of_cons (List.forall_mem_cons.mp hkeys).2]
        simp [hsame]

theorem find?_insert (h : IsEquivalenceOn domain same) (hkeys : ∀ entry ∈ entries, domain entry.1)
    (hkey : domain key) (hkey' : domain key') (value : β) :
    find? same key' (insert same key value entries) =
      if same key key' then some value else find? same key' entries := by
  induction entries with
  | nil => rfl
  | cons head rest ih =>
      rcases head with ⟨k, v⟩
      rcases List.forall_mem_cons.mp hkeys with ⟨hk, hrest⟩
      rw [insert, find?]
      by_cases hsame : same k key = true
      · rw [if_pos hsame, find?, h.same_left_eq hk hkey hkey' hsame]
        split <;> rfl
      · rw [if_neg hsame, find?, ih hrest]
        by_cases hsame' : same key key' = true
        · rw [if_pos hsame', ← h.same_right_eq hk hkey hkey' hsame', if_neg hsame, if_pos hsame']
        · rw [if_neg hsame', if_neg hsame']

theorem find?_erase (h : IsEquivalenceOn domain same) (hdistinct : DistinctKeys same entries)
    (hkeys : ∀ entry ∈ entries, domain entry.1) (hkey : domain key) (hkey' : domain key') :
    find? same key' (erase same key entries) =
      if same key key' then none else find? same key' entries := by
  induction entries with
  | nil => exact (ite_self none).symm
  | cons head rest ih =>
      rcases head with ⟨k, v⟩
      rcases List.forall_mem_cons.mp hkeys with ⟨hk, hrest⟩
      rw [erase, find?]
      by_cases hsame : same k key = true
      · rw [if_pos hsame, h.same_left_eq hk hkey hkey' hsame]
        by_cases hsame' : same key key' = true
        · rw [if_pos hsame', find?_eq_none_iff]
          rw [← h.same_left_eq hk hkey hkey' hsame] at hsame'
          exact hdistinct.others h hkeys hkey' hsame'
        · rw [if_neg hsame', if_neg hsame']
      · rw [if_neg hsame, find?, ih hdistinct.of_cons hrest]
        by_cases hsame' : same key key' = true
        · rw [if_pos hsame', ← h.same_right_eq hk hkey hkey' hsame', if_neg hsame, if_pos hsame']
        · rw [if_neg hsame', if_neg hsame']

end Steps

/-!
## All changes of a history
-/

section Runs

variable {α β : Type} {domain : α → Prop} {same : α → α → Bool} {history : List (Change α β)}
  {entries : List (α × β)} {key : α}

/-- The entries have the keys of the history, in its order, with their values. -/
structure Follows (domain : α → Prop) (same : α → α → Bool) (history : List (Change α β))
    (entries : List (α × β)) : Prop where
  known : ∀ entry ∈ entries, domain entry.1
  distinct : DistinctKeys same entries
  keys : entries.map Prod.fst = order same history
  found : ∀ key, domain key → find? same key entries = current? same history key

theorem Follows.insert (h : IsEquivalenceOn domain same)
    (hfollows : Follows domain same history entries) (hkey : domain key) (value : β) :
    Follows domain same (history ++ [.insert key value]) (insert same key value entries) := by
  have hfind : ∀ key', domain key' → Assoc.find? same key' (Assoc.insert same key value entries) =
      current? same (history ++ [.insert key value]) key' := by
    intro key' hkey'
    rw [find?_insert h hfollows.known hkey hkey', current?_concat, hfollows.found key' hkey']
    rfl
  have hcurrent := hfollows.found key hkey
  cases hbound : Assoc.find? same key entries with
  | none =>
      have hinsert := insert_of_find?_eq_none hbound value
      rw [hinsert] at hfind ⊢
      constructor
      case known =>
        intro entry hentry
        rcases List.mem_append.mp hentry with hentry | hentry
        · exact hfollows.known entry hentry
        · rw [List.mem_singleton.mp hentry]
          exact hkey
      case distinct =>
        refine List.pairwise_append.mpr ⟨hfollows.distinct, List.pairwise_singleton _ _, ?_⟩
        intro entry hentry last hlast
        rw [List.mem_singleton.mp hlast]
        exact find?_eq_none_iff.mp hbound entry hentry
      case keys =>
        rw [List.map_append, hfollows.keys, order_insert, ← hcurrent, hbound]
        rfl
      case found => exact hfind
  | some old =>
      have hinsert := insert_of_find?_isSome h hfollows.distinct hfollows.known hkey
        (Option.isSome_iff_exists.mpr ⟨old, hbound⟩) value
      -- Only values change, so what holds of the keys still holds.
      have hkeys : (Assoc.insert same key value entries).map Prod.fst = entries.map Prod.fst := by
        rw [hinsert, List.map_map]
        apply List.map_congr_left
        intro entry _
        exact apply_ite Prod.fst _ _ _ |>.trans (ite_self _)
      constructor
      case known =>
        rw [← List.forall_mem_map (f := Prod.fst), hkeys, List.forall_mem_map]
        exact hfollows.known
      case distinct =>
        exact hfollows.distinct.of_keys_eq hkeys
      case keys =>
        rw [hkeys, hfollows.keys, order_insert, ← hcurrent, hbound]
        rfl
      case found => exact hfind

theorem Follows.remove (h : IsEquivalenceOn domain same)
    (hfollows : Follows domain same history entries) (hkey : domain key) :
    Follows domain same (history ++ [.remove key]) (erase same key entries) := by
  have herase := erase_eq_filter h hfollows.distinct hfollows.known hkey
  constructor
  case known =>
    rw [herase]
    intro entry hentry
    exact hfollows.known entry (List.mem_of_mem_filter hentry)
  case distinct =>
    rw [herase]
    exact hfollows.distinct.filter _
  case keys =>
    rw [herase, order_remove, ← hfollows.keys, List.filter_map]
    congr 1
    apply List.filter_congr
    intro entry hentry
    exact congrArg not (h.same_comm (hfollows.known entry hentry) hkey)
  case found =>
    intro key' hkey'
    rw [find?_erase h hfollows.distinct hfollows.known hkey hkey', current?_concat,
      hfollows.found key' hkey']
    rfl

theorem follows_replay (h : IsEquivalenceOn domain same)
    (hkeys : ∀ change ∈ history, domain change.key) :
    Follows domain same history (replay same history) := by
  induction history using List.reverseRecOn with
  | nil => exact ⟨nofun, .nil, rfl, fun _ _ => rfl⟩
  | append_singleton history change ih =>
      rcases List.forall_mem_append.mp hkeys with ⟨hhistory, hchange⟩
      have hkey := List.forall_mem_singleton.mp hchange
      cases change with
      | insert key value =>
          rw [replay_insert]
          exact (ih hhistory).insert h hkey value
      | remove key =>
          rw [replay_remove]
          exact (ih hhistory).remove h hkey

/-- What a map shows of its entries: how many there are, the keys, the values and both together in
their order, and the value under a key. -/
structure Shows (domain : α → Prop) (same : α → α → Bool) (history : List (Change α β))
    (entries : List (α × β)) : Prop where
  distinct : DistinctKeys same entries
  length : entries.length = (order same history).length
  keys : entries.map Prod.fst = order same history
  values : entries.map (fun entry => some entry.2) =
    (order same history).map (current? same history)
  pairs : entries.map (fun entry => (entry.1, some entry.2)) =
    (order same history).map fun key => (key, current? same history key)
  get : ∀ key, domain key → find? same key entries = current? same history key
  contains : ∀ key, domain key →
    contains same key entries = (current? same history key).isSome

theorem Follows.shows (h : IsEquivalenceOn domain same)
    (hfollows : Follows domain same history entries) : Shows domain same history entries := by
  have hvalue : ∀ entry ∈ entries, some entry.2 = current? same history entry.1 := by
    intro entry hentry
    have hkey := hfollows.known entry hentry
    rw [← hfollows.found entry.1 hkey]
    exact (find?_eq_some_of_mem h hfollows.known hfollows.distinct hentry hkey
      (h.refl entry.1 hkey)).symm
  constructor
  case distinct => exact hfollows.distinct
  case length => rw [← hfollows.keys, List.length_map]
  case keys => exact hfollows.keys
  case values =>
    rw [← hfollows.keys, List.map_map]
    exact List.map_congr_left hvalue
  case pairs =>
    rw [← hfollows.keys, List.map_map]
    apply List.map_congr_left
    intro entry hentry
    rw [hvalue entry hentry]
    rfl
  case get => exact hfollows.found
  case contains =>
    intro key hkey
    rw [Assoc.contains, hfollows.found key hkey]

theorem current?_append_of_forall {later : List (Change α β)}
    (hlater : ∀ change ∈ later, same change.key key = false) :
    current? same (history ++ later) key = current? same history key := by
  induction later using List.reverseRecOn with
  | nil => rw [List.append_nil]
  | append_singleton later change ih =>
      rcases List.forall_mem_append.mp hlater with ⟨hearlier, hchange⟩
      rw [← List.append_assoc, current?_concat, List.forall_mem_singleton.mp hchange, ih hearlier]
      rfl

theorem ofList_eq_replay (items : List (α × β)) :
    ofList same items = replay same (items.map fun item => .insert item.1 item.2) := by
  unfold ofList replay
  rw [List.foldl_map]
  congr 1
  funext entries item
  rw [Change.apply, findThenInsert_eq]

/-- How a map goes on after a history: an insertion or a removal answers the value that it
displaces; a value is replaced in its place, under the key that is there; a key that is absent, or
was removed and not inserted since, gets a place at the end. -/
structure GoesOn (domain : α → Prop) (same : α → α → Bool) (history : List (Change α β)) :
    Prop where
  displaced : ∀ change : Change α β, domain change.key →
    (change.apply same (replay same history)).1 = current? same history change.key
  replaced : ∀ key value, domain key → (current? same history key).isSome →
    replay same (history ++ [.insert key value]) = (replay same history).map fun entry =>
      if same entry.1 key then (entry.1, value) else entry
  appended : ∀ key value, domain key → current? same history key = none →
    replay same (history ++ [.insert key value]) = replay same history ++ [(key, value)]
  removed : ∀ key, domain key → replay same (history ++ [.remove key]) =
    (replay same history).filter fun entry => !same entry.1 key
  insertedAgain : ∀ key key' value (later : List (Change α β)), domain key → domain key' →
    same key key' = true → (∀ change ∈ later, domain change.key ∧ same change.key key' = false) →
    replay same (history ++ [.remove key] ++ later ++ [.insert key' value]) =
      replay same (history ++ [.remove key] ++ later) ++ [(key', value)]

theorem goesOn (h : IsEquivalenceOn domain same) (hkeys : ∀ change ∈ history, domain change.key) :
    GoesOn domain same history := by
  have happended {history : List (Change α β)} (hkeys : ∀ change ∈ history, domain change.key)
      (key : α) (value : β) (hkey : domain key) (habsent : current? same history key = none) :
      replay same (history ++ [.insert key value]) = replay same history ++ [(key, value)] := by
    rw [← (follows_replay h hkeys).found key hkey] at habsent
    rw [replay_insert, insert_of_find?_eq_none habsent]
  have hfollows := follows_replay h hkeys
  constructor
  case displaced =>
    intro change hkey
    rw [Change.apply_fst, hfollows.found change.key hkey]
  case replaced =>
    intro key value hkey hbound
    rw [← hfollows.found key hkey] at hbound
    rw [replay_insert, insert_of_find?_isSome h hfollows.distinct hfollows.known hkey hbound]
  case appended => exact happended hkeys
  case removed =>
    intro key hkey
    rw [replay_remove, erase_eq_filter h hfollows.distinct hfollows.known hkey]
  case insertedAgain =>
    intro key key' value later hkey hkey' hsame hlater
    apply happended _ key' value hkey'
    · rw [current?_append_of_forall fun change hchange => (hlater change hchange).2,
        current?_concat]
      exact if_pos hsame
    · intro change hchange
      rcases List.mem_append.mp hchange with hchange | hchange
      · rcases List.mem_append.mp hchange with hchange | hchange
        · exact hkeys change hchange
        · rw [List.mem_singleton.mp hchange]
          exact hkey
      · exact (hlater change hchange).1

end Runs

/-!
## Maps that bind the same keys to the same values
-/

section Equality

variable {α β : Type} {domain : α → Prop} {same : α → α → Bool} {sameValue : β → β → Bool}
  {xs ys : List (α × β)}

/-- A map whose keys are all found in another has no more entries than that. -/
theorem length_le_of_find? (h : IsEquivalenceOn domain same)
    (hxs : ∀ entry ∈ xs, domain entry.1) (hys : ∀ entry ∈ ys, domain entry.1)
    (hdistinct : DistinctKeys same xs)
    (hfound : ∀ entry ∈ xs, (find? same entry.1 ys).isSome) : xs.length ≤ ys.length := by
  refine length_le_of_exists_match ?_ (hdistinct.matched_once h hxs hys)
  intro x hx
  rcases Option.isSome_iff_exists.mp (hfound x hx) with ⟨value, hfind⟩
  rcases exists_same_of_find? hfind with ⟨key, hmem, hsame⟩
  exact ⟨(key, value), hmem, hsame⟩

/-- A map is equal to another only if they agree under every key: as they have equally many keys,
a key of the second is one of the first. -/
theorem find?_rel_of_equal (h : IsEquivalenceOn domain same)
    (hxs : ∀ entry ∈ xs, domain entry.1) (hys : ∀ entry ∈ ys, domain entry.1)
    (hdistinct : DistinctKeys same xs) (hequal : equal same sameValue xs ys = true) {key : α}
    (hkey : domain key) :
    Option.Rel (fun value value' => sameValue value' value = true) (find? same key xs)
      (find? same key ys) := by
  rcases equal_iff_found.mp hequal with ⟨hlength, hfound⟩
  cases hfind : find? same key xs with
  | some value =>
      rcases exists_same_of_find? hfind with ⟨k, hmem, hsame⟩
      rcases hfound (k, value) hmem with ⟨value', hvalue', hsameValue⟩
      have hcongr : find? same k ys = find? same key ys :=
        find?_congr fun y hy => h.same_right_eq (hys y hy) (hxs _ hmem) hkey hsame
      rw [← hcongr, hvalue']
      exact .some hsameValue
  | none =>
      cases hfind' : find? same key ys with
      | none => exact .none
      | some value' =>
          rcases exists_same_of_find? hfind' with ⟨k, hmem, hsame⟩
          have hmatch : ∀ x ∈ xs, ∃ y ∈ ys, same y.1 x.1 = true := by
            intro x hx
            rcases hfound x hx with ⟨w, hw, -⟩
            rcases exists_same_of_find? hw with ⟨k', hmem', hsame'⟩
            exact ⟨(k', w), hmem', hsame'⟩
          rcases exists_match_of_length_le hlength.ge hmatch (hdistinct.matched_once h hxs hys)
            (k, value') hmem with ⟨x, hx, hkx⟩
          have hxkey := find?_eq_none_iff.mp hfind x hx
          rw [← h.same_left_eq (hys _ hmem) (hxs x hx) hkey hkx, hsame] at hxkey
          cases hxkey

/-- Maps that agree under every key are equal: each has no more entries than the other. -/
theorem equal_of_find?_rel (h : IsEquivalenceOn domain same)
    (hxs : ∀ entry ∈ xs, domain entry.1) (hys : ∀ entry ∈ ys, domain entry.1)
    (hdistinct : DistinctKeys same xs) (hdistinct' : DistinctKeys same ys)
    (hrel : ∀ key, domain key → Option.Rel (fun value value' => sameValue value' value = true)
      (find? same key xs) (find? same key ys)) : equal same sameValue xs ys = true := by
  have hfound : ∀ x ∈ xs, ∃ value, find? same x.1 ys = some value ∧ sameValue value x.2 = true := by
    intro x hx
    have hkey := hxs x hx
    have hx' := hrel x.1 hkey
    rw [find?_eq_some_of_mem h hxs hdistinct hx hkey (h.refl x.1 hkey)] at hx'
    generalize find? same x.1 ys = found at hx'
    cases hx' with
    | some hvalue => exact ⟨_, rfl, hvalue⟩
  have hfound' : ∀ y ∈ ys, (find? same y.1 xs).isSome := by
    intro y hy
    have hkey := hys y hy
    have hy' := hrel y.1 hkey
    rw [find?_eq_some_of_mem h hys hdistinct' hy hkey (h.refl y.1 hkey)] at hy'
    generalize find? same y.1 xs = found at hy'
    cases hy' with
    | some => rfl
  refine equal_iff_found.mpr ⟨le_antisymm ?_ ?_, hfound⟩
  · apply length_le_of_find? h hxs hys hdistinct
    intro x hx
    rcases hfound x hx with ⟨value, hvalue, -⟩
    exact Option.isSome_of_eq_some hvalue
  · exact length_le_of_find? h hys hxs hdistinct' hfound'

end Equality
end Assoc

namespace Heap

open Assoc (current? replay)

theorem equal_map_iff {heap : Heap} {r s : Ref} {history history' : List (Change Value Value)}
    (hr : Assoc.Follows heap.Proper heap.equal history (heap.entries r))
    (hs : Assoc.Follows heap.Proper heap.equal history' (heap.entries s))
    (hfinite : heap.Finite (.map r)) (hfinite' : heap.Finite (.map s)) :
    heap.equal (.map r) (.map s) = true ↔ ∀ key, heap.Proper key →
      Option.Rel (fun value value' => heap.equal value' value = true)
        (current? heap.equal history key) (current? heap.equal history' key) := by
  have h := heap.equal_isEquivalenceOn
  have hsame : heap.equal (.map r) (.map s) = true ↔
      Assoc.equal heap.equal heap.equal (heap.entries r) (heap.entries s) = true := by
    rw [equal_eq_equalWith hfinite hfinite', equalWith, Bool.or_eq_true, decide_eq_true_eq]
    constructor
    · rintro (rfl | hequal)
      · apply Assoc.equal_of_find?_rel h hr.known hr.known hr.distinct hr.distinct
        intro key _
        cases Assoc.find? heap.equal key (heap.entries r) with
        | none => exact .none
        | some value => exact .some (heap.equal_self value)
      · exact hequal
    · exact Or.inr
  rw [hsame]
  constructor
  · intro hequal key hkey
    rw [← hr.found key hkey, ← hs.found key hkey]
    exact Assoc.find?_rel_of_equal h hr.known hs.known hr.distinct hequal hkey
  · intro hrel
    apply Assoc.equal_of_find?_rel h hr.known hs.known hr.distinct hs.distinct
    intro key hkey
    rw [hr.found key hkey, hs.found key hkey]
    exact hrel key hkey

/-- A history that removes a key and inserts it again. -/
def removing : List (Change Value Value) :=
  [.insert (.string "a") (.int 7), .insert (.double Binary.invalid) (.int 2),
    .remove (.string "a"), .insert (.string "a") (.int 1)]

/-- A history that replaces the value of a key. -/
def replacing : List (Change Value Value) :=
  [.insert (.string "a") (.int 5), .insert (.double Binary.invalid) (.int 2),
    .insert (.string "a") (.int 1)]

/-- The maps that these histories make. -/
def twoHistories : Heap where
  sequences := #[]
  maps := #[[(.double Binary.invalid, .int 2), (.string "a", .int 1)],
    [(.string "a", .int 1), (.double Binary.invalid, .int 2)]]
  objects := #[]
  closures := #[]

end Heap
end ExprLang
