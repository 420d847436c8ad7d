import Mathlib
import ExprLang.Proofs.Collection.Methods

/-!
# Positions in text

The methods that search a text and those that cut it count the same characters: a search answers the
first position at which the other text can be cut out, and what is cut at a position can be joined
again.
-/

namespace ExprLang

/-!
## Occurrences
-/

namespace Text

variable {needle text : List Char} {i : Nat}

/-- The needle stands in the text, from a position on. -/
def OccursAt (needle text : List Char) (i : Nat) : Prop :=
  i ≤ text.length ∧ needle <+: text.drop i

theorem occursAt_zero : OccursAt needle text 0 ↔ needle <+: text := by
  simp [OccursAt]

theorem occursAt_succ {c : Char} : OccursAt needle (c :: text) (i + 1) ↔ OccursAt needle text i := by
  simp [OccursAt]

theorem isLeast_of_position? (h : position? needle text = some i) :
    IsLeast {j | OccursAt needle text j} i := by
  fun_induction position? needle text generalizing i with
  | case1 hempty =>
      cases h
      rw [List.isEmpty_iff.mp hempty]
      exact ⟨occursAt_zero.mpr List.prefix_rfl, fun j _ => Nat.zero_le j⟩
  | case2 => cases h
  | case3 c rest hhead =>
      cases h
      exact ⟨occursAt_zero.mpr (List.isPrefixOf_iff_prefix.mp hhead), fun j _ => Nat.zero_le j⟩
  | case4 c rest hhead ih =>
      obtain ⟨k, hk, rfl⟩ := Option.map_eq_some_iff.mp h
      obtain ⟨hoccurs, hleast⟩ := ih hk
      refine ⟨occursAt_succ.mpr hoccurs, fun j hj => ?_⟩
      cases j with
      | zero => exact absurd (List.isPrefixOf_iff_prefix.mpr (occursAt_zero.mp hj)) hhead
      | succ j => exact Nat.succ_le_succ (hleast (occursAt_succ.mp hj))

theorem not_occursAt_of_position? (h : position? needle text = none) (i : Nat) :
    ¬ OccursAt needle text i := by
  fun_induction position? needle text generalizing i with
  | case1 => cases h
  | case2 hempty =>
      rintro ⟨-, hprefix⟩
      rw [List.drop_nil, List.prefix_nil] at hprefix
      exact hempty (List.isEmpty_iff.mpr hprefix)
  | case3 => cases h
  | case4 c rest hhead ih =>
      intro hoccurs
      cases i with
      | zero => exact hhead (List.isPrefixOf_iff_prefix.mpr (occursAt_zero.mp hoccurs))
      | succ i => exact ih (Option.map_eq_none_iff.mp h) i (occursAt_succ.mp hoccurs)

end Text

namespace TextMethod

open Text (OccursAt)

variable {needle text : List Char} {start stop : Int64}

/-!
## Cutting
-/

/-- The positions are in the text and in order. -/
def InRange (text : List Char) (start stop : Int64) : Prop :=
  0 ≤ start ∧ start ≤ stop ∧ stop.toInt ≤ text.length

/-- The characters from one position to another. -/
def cut (text : List Char) (start stop : Int64) : List Char :=
  (text.take stop.toInt.toNat).drop start.toInt.toNat

theorem part_of_inRange (h : InRange text start stop) :
    part text start stop = .ok (.string (String.ofList (cut text start stop))) := by
  obtain ⟨hstart, horder, hstop⟩ := h
  simp [part, cut, hstart, horder, hstop]

theorem part_of_not_inRange (h : ¬ InRange text start stop) :
    part text start stop = .error (outOfRange (if start < 0 then start else stop) text) := by
  unfold part
  rw [if_neg]
  simpa [InRange, and_assoc] using h

theorem nonneg_iff : 0 ≤ start ↔ 0 ≤ start.toInt := Int64.le_iff_toInt_le

/-- A position that some characters more do not carry beyond 64 bits. -/
theorem toInt_add_ofNat {n : Nat} (hn : n < 2 ^ 31) (hstart : 0 ≤ start)
    (h : start ≤ start + Int64.ofNat n ∨ start.toInt + n < 2 ^ 63) :
    (start + Int64.ofNat n).toInt = start.toInt + n := by
  rw [nonneg_iff] at hstart
  rw [Int64.le_iff_toInt_le] at h
  rw [Int64.toInt_add, Int64.toInt_ofNat_of_lt (by lia)] at h ⊢
  have hlt := start.toInt_lt
  rw [Int.bmod_def] at h ⊢
  split at h <;> lia

theorem cut_add {n : Nat} (hstart : 0 ≤ start)
    (hstop : (start + Int64.ofNat n).toInt = start.toInt + n) :
    cut text start (start + Int64.ofNat n) = (text.drop start.toInt.toNat).take n := by
  rw [nonneg_iff] at hstart
  rw [cut, List.drop_take, hstop]
  congr 1
  lia

/-- As many characters as the needle has can be cut out at a position, and are the needle, where it
occurs. -/
theorem part_eq_needle_iff (htext : text.length < 2 ^ 31) (hneedle : needle.length < 2 ^ 31) :
    part text start (start + Int64.ofNat needle.length) =
        .ok (.string (String.ofList needle)) ↔
      0 ≤ start ∧ OccursAt needle text start.toInt.toNat := by
  constructor
  · intro hpart
    by_cases hrange : InRange text start (start + Int64.ofNat needle.length)
    · rw [part_of_inRange hrange] at hpart
      obtain ⟨hstart, horder, hstop⟩ := hrange
      have hsum := toInt_add_ofNat hneedle hstart (.inl horder)
      have hcut : (text.drop start.toInt.toNat).take needle.length = needle := by
        rw [cut_add hstart hsum] at hpart
        exact String.ofList_injective (Value.string.inj (Except.ok.inj hpart))
      refine ⟨hstart, ?_, List.prefix_iff_eq_take.mpr hcut.symm⟩
      rw [nonneg_iff] at hstart
      lia
    · rw [part_of_not_inRange hrange] at hpart
      cases hpart
  · rintro ⟨hstart, hlength, hprefix⟩
    have hfits := hprefix.length_le
    rw [List.length_drop] at hfits
    have hsum := toInt_add_ofNat hneedle hstart (.inr (by lia))
    have hrange : InRange text start (start + Int64.ofNat needle.length) := by
      refine ⟨hstart, ?_, ?_⟩
      · rw [Int64.le_iff_toInt_le, hsum]
        lia
      · rw [nonneg_iff] at hstart
        lia
    rw [part_of_inRange hrange, cut_add hstart hsum, ← List.prefix_iff_eq_take.mp hprefix]

theorem inRange_length (hlength : text.length < 2 ^ 31) :
    InRange text start (Int64.ofNat text.length) ↔ 0 ≤ start ∧ start.toInt ≤ text.length := by
  unfold InRange
  rw [Int64.le_iff_toInt_le (y := Int64.ofNat text.length), Int64.toInt_ofNat_of_lt (by lia)]
  simp

/-- What stands in front of a position and what follows it are the text. -/
theorem exists_parts (hlength : text.length < 2 ^ 31) (hstart : 0 ≤ start)
    (hle : start.toInt ≤ text.length) :
    ∃ front back, part text 0 start = .ok (.string front) ∧
      part text start (Int64.ofNat text.length) = .ok (.string back) ∧
      front ++ back = String.ofList text := by
  have hfront : InRange text 0 start := ⟨Int64.le_refl 0, hstart, hle⟩
  have hback := (inRange_length hlength).mpr ⟨hstart, hle⟩
  refine ⟨_, _, part_of_inRange hfront, part_of_inRange hback, ?_⟩
  have hzero : (0 : Int64).toInt = 0 := rfl
  rw [← String.ofList_append, cut, cut, Int64.toInt_ofNat_of_lt (by lia), hzero]
  simp

/-- The character at a position is all that is cut out up to the next one. -/
theorem exists_character (hlength : text.length < 2 ^ 31) (hstart : 0 ≤ start)
    (hlt : start.toInt < text.length) :
    ∃ c, character text start = .ok (.char c) ∧
      part text start (start + 1) = .ok (.string (String.ofList [c])) := by
  have hposition : start.toInt.toNat < text.length := by
    rw [nonneg_iff] at hstart
    lia
  refine ⟨text[start.toInt.toNat], ?_, ?_⟩
  · rw [character, if_neg (Int64.not_lt.mpr hstart), List.getElem?_eq_getElem hposition]
  · have hone : start + 1 = start + Int64.ofNat [text[start.toInt.toNat]].length := rfl
    rw [hone, part_eq_needle_iff hlength (by simp)]
    refine ⟨hstart, hposition.le, ?_⟩
    rw [List.drop_eq_getElem_cons hposition]
    exact List.prefix_append [_] _

theorem character_of_not_lt (h : ¬ (0 ≤ start ∧ start.toInt < text.length)) :
    character text start = .error (outOfRange start text) := by
  unfold character
  split
  · rename_i c hfound
    split at hfound
    · cases hfound
    · rename_i hstart
      obtain ⟨hlt, -⟩ := List.getElem?_eq_some_iff.mp hfound
      exact absurd ⟨Int64.not_lt.mp hstart, by lia⟩ h
  · rfl

/-- The needle ends the text where all that is as long as it, at the end, is the needle. -/
theorem part_eq_suffix_iff (needle : List Char) (hlength : text.length < 2 ^ 31) :
    part text (Int64.ofNat (text.length - needle.length)) (Int64.ofNat text.length) =
        .ok (.string (String.ofList needle)) ↔ needle <:+ text := by
  have hposition : (Int64.ofNat (text.length - needle.length)).toInt =
      (text.length - needle.length : Nat) := Int64.toInt_ofNat_of_lt (by lia)
  have hstart : 0 ≤ Int64.ofNat (text.length - needle.length) := by
    rw [nonneg_iff, hposition]
    exact Int.natCast_nonneg _
  have hcut : cut text (Int64.ofNat (text.length - needle.length)) (Int64.ofNat text.length) =
      text.drop (text.length - needle.length) := by
    rw [cut, hposition, Int64.toInt_ofNat_of_lt (by lia)]
    simp
  rw [part_of_inRange ((inRange_length hlength).mpr ⟨hstart, by lia⟩), hcut,
    List.suffix_iff_eq_drop]
  constructor
  · intro hpart
    exact (String.ofList_injective (Value.string.inj (Except.ok.inj hpart))).symm
  · intro hsuffix
    rw [← hsuffix]

/-!
## Searching
-/

theorem ofCount_of_lt {n : Nat} (h : n < 2 ^ 31) : Value.ofCount n = .int (Int32.ofNat n) := by
  have hmin : min n (Nat.pow 2 31 - 1) = n := Nat.min_eq_left (Nat.le_pred_of_lt h)
  rw [Value.ofCount, hmin]

/-- Where the needle can be cut out of the text. -/
def places (needle text : List Char) : Set Int64 :=
  {k | part text k (k + Int64.ofNat needle.length) = .ok (.string (String.ofList needle))}

theorem places_eq_empty (htext : text.length < 2 ^ 31) (hneedle : needle.length < 2 ^ 31)
    (h : Text.position? needle text = none) : places needle text = ∅ := by
  refine Set.eq_empty_of_forall_notMem fun k hk => ?_
  exact Text.not_occursAt_of_position? h _ ((part_eq_needle_iff htext hneedle).mp hk).2

theorem isLeast_places (htext : text.length < 2 ^ 31) (hneedle : needle.length < 2 ^ 31) {i : Nat}
    (h : Text.position? needle text = some i) :
    IsLeast (places needle text) (Int32.ofNat i).toInt64 := by
  obtain ⟨hoccurs, hleast⟩ := Text.isLeast_of_position? h
  have hi : i < 2 ^ 31 := hoccurs.1.trans_lt htext
  have htoInt : (Int32.ofNat i).toInt64.toInt = i := by
    rw [Int32.toInt_toInt64, Int32.toInt_ofNat_of_lt hi]
  have hstart : 0 ≤ (Int32.ofNat i).toInt64 := by
    rw [nonneg_iff, htoInt]
    exact Int.natCast_nonneg _
  constructor
  · refine (part_eq_needle_iff htext hneedle).mpr ⟨hstart, ?_⟩
    rwa [htoInt, Int.toNat_natCast]
  · intro k hk
    obtain ⟨hk, hoccurs⟩ := (part_eq_needle_iff htext hneedle).mp hk
    have hle := hleast hoccurs
    rw [nonneg_iff] at hk
    rw [Int64.le_iff_toInt_le, htoInt]
    lia

theorem indexIn_cases (htext : text.length < 2 ^ 31) (hneedle : needle.length < 2 ^ 31) :
    (∃ i : Int32, 0 ≤ i ∧ indexIn needle text = .int i ∧ Text.occursIn needle text = true ∧
        IsLeast (places needle text) i.toInt64) ∨
      (indexIn needle text = .int (-1) ∧ Text.occursIn needle text = false ∧
        places needle text = ∅) := by
  unfold indexIn Text.occursIn
  cases hposition : Text.position? needle text with
  | none => exact .inr ⟨rfl, rfl, places_eq_empty htext hneedle hposition⟩
  | some i =>
      have hlt := (Text.isLeast_of_position? hposition).1.1.trans_lt htext
      have hnonneg : 0 ≤ Int32.ofNat i := by
        rw [Int32.le_iff_toInt_le, Int32.toInt_ofNat_of_lt hlt]
        exact Int.natCast_nonneg _
      exact .inl ⟨Int32.ofNat i, hnonneg, ofCount_of_lt hlt, rfl,
        isLeast_places htext hneedle hposition⟩

theorem isPrefixOf_iff_indexIn (htext : text.length < 2 ^ 31) :
    needle.isPrefixOf text = true ↔ indexIn needle text = .int 0 := by
  rw [List.isPrefixOf_iff_prefix, ← Text.occursAt_zero]
  unfold indexIn
  cases hposition : Text.position? needle text with
  | none =>
      have hnone := Text.not_occursAt_of_position? hposition 0
      exact iff_of_false hnone (by decide)
  | some i =>
      obtain ⟨hoccurs, hleast⟩ := Text.isLeast_of_position? hposition
      have hlt := hoccurs.1.trans_lt htext
      dsimp only
      rw [ofCount_of_lt hlt]
      constructor
      · intro hzero
        rw [Nat.le_zero.mp (hleast hzero)]
        rfl
      · intro hzero
        have htoInt := Int32.toInt_ofNat_of_lt hlt
        rw [Value.int.inj hzero] at htoInt
        obtain rfl : i = 0 := Int.ofNat.inj htoInt.symm
        exact hoccurs

end TextMethod

namespace Evaluation

open Resolver
open TextMethod

variable {context : Context} {deeper : Deeper} {options : ResolverOptions}

/-- A method of a text is run on its characters. -/
theorem invokeMethod_text (hresolver : context.resolver = chain (standard options))
    {world : World} {s name : String} {args : List Value} {method : TextMethod}
    (hmethod : TextMethod.ofName? name = some method) :
    invokeMethod context deeper (.string s) name args world =
      Action.ofExcept (method.run world.heap name s args) world := by
  have hanswer : textMethods.invoke (services context deeper) (.string s) name args world =
      (do return .resolved (← .ofExcept (method.run world.heap name s args)) :
        Action (Resolution Value)) world := by
    unfold textMethods
    dsimp only
    rw [hmethod]
    rfl
  have hhandler : methodHandler options (.string s) = textMethods := rfl
  unfold invokeMethod
  rw [hresolver, standard_invoke, hhandler]
  cases hrun : method.run world.heap name s args with
  | error error =>
      rw [hrun] at hanswer
      rw [bind_of_error (hanswer.trans rfl)]
      rfl
  | ok value =>
      rw [hrun] at hanswer
      rw [bind_of_ok (hanswer.trans rfl)]
      rfl

theorem ofExcept_eq_ok_iff {answer : Except EvalError Value} {world : World} {value : Value} :
    Action.ofExcept answer world = .ok value world ↔ answer = .ok value := by
  constructor
  · intro h
    exact (Action.ofExcept_eq_ok h).1
  · rintro rfl
    rfl

/-- An answer of one shape under a condition, and an error otherwise. -/
theorem outcomes_iff {α : Type} {shape : α → Value} {answer : Except EvalError Value}
    {world : World} {condition : Prop} (hok : condition → ∃ a, answer = .ok (shape a))
    (herror : ¬ condition → ∃ error, answer = .error error) :
    ((∃ a, Action.ofExcept answer world = .ok (shape a) world) ↔ condition) ∧
      ((∃ error, Action.ofExcept answer world = .error (.error error) world) ↔ ¬ condition) := by
  by_cases h : condition
  · obtain ⟨a, rfl⟩ := hok h
    exact ⟨iff_of_true ⟨a, rfl⟩ h, iff_of_false (fun ⟨_, hfail⟩ => by cases hfail) (absurd h)⟩
  · obtain ⟨error, rfl⟩ := herror h
    exact ⟨iff_of_false (fun ⟨_, hanswer⟩ => by cases hanswer) h, iff_of_true ⟨error, rfl⟩ h⟩

/-- The calls run the methods of a text, in a world that they do not change. -/
structure RunsMethods (call : String → List Value → EStateM.Result Failure World Value)
    (world : World) (s : String) : Prop where
  run : ∀ (name : String) (method : TextMethod) (args : List Value),
    TextMethod.ofName? name = some method →
      call name args = Action.ofExcept (method.run world.heap name s args) world

/-- The methods of a text agree on its positions.  A position is any integer of 64 bits. -/
structure PositionsAgree (call : String → List Value → EStateM.Result Failure World Value)
    (world : World) (s t : String) : Prop where
  length : ∃ n : Int32, call "length" [] = .ok (.int n) world ∧ n.toInt = s.length
  /-- A search answers the first position where the other text can be cut out, or `-1` where there
  is none. -/
  indexOf :
    let places := {k : Int64 | call "substring" [.long k, .long (k + Int64.ofNat t.length)] =
      .ok (.string t) world}
    (∃ i : Int32, 0 ≤ i ∧ call "indexOf" [.string t] = .ok (.int i) world ∧
        call "contains" [.string t] = .ok (.bool true) world ∧ IsLeast places i.toInt64) ∨
      (call "indexOf" [.string t] = .ok (.int (-1)) world ∧
        call "contains" [.string t] = .ok (.bool false) world ∧ places = ∅)
  startsWith : ∃ b, call "startsWith" [.string t] = .ok (.bool b) world ∧
    (b = true ↔ call "indexOf" [.string t] = .ok (.int 0) world)
  endsWith : ∃ b, call "endsWith" [.string t] = .ok (.bool b) world ∧
    (b = true ↔ t.length ≤ s.length ∧
      call "substring" [.long (Int64.ofNat (s.length - t.length))] = .ok (.string t) world)
  /-- The two pieces of a text cut at a position are the text. -/
  joins : ∀ k : Int64, 0 ≤ k → k.toInt ≤ s.length → ∃ front back,
    call "substring" [.long 0, .long k] = .ok (.string front) world ∧
      call "substring" [.long k] = .ok (.string back) world ∧ front ++ back = s
  single : ∀ k : Int64, 0 ≤ k → k.toInt < s.length → ∃ c,
    call "charAt" [.long k] = .ok (.char c) world ∧
      call "substring" [.long k, .long (k + 1)] = .ok (.string (String.ofList [c])) world
  substring : ∀ start stop : Int64,
    ((∃ r, call "substring" [.long start, .long stop] = .ok (.string r) world) ↔
        0 ≤ start ∧ start ≤ stop ∧ stop.toInt ≤ s.length) ∧
      ((∃ error, call "substring" [.long start, .long stop] = .error (.error error) world) ↔
        ¬ (0 ≤ start ∧ start ≤ stop ∧ stop.toInt ≤ s.length))
  /-- A cut without an end goes to the end of the text. -/
  toEnd : ∀ start : Int64, call "substring" [.long start] =
    call "substring" [.long start, .long (Int64.ofNat s.length)]
  charAt : ∀ k : Int64,
    ((∃ c, call "charAt" [.long k] = .ok (.char c) world) ↔ 0 ≤ k ∧ k.toInt < s.length) ∧
      ((∃ error, call "charAt" [.long k] = .error (.error error) world) ↔
        ¬ (0 ≤ k ∧ k.toInt < s.length))
  /-- A position of another type is the 64-bit integer that it converts to. -/
  converted : ∀ value k, world.heap.toInt64 value = .ok k →
    call "charAt" [value] = call "charAt" [.long k] ∧
      call "substring" [value] = call "substring" [.long k] ∧
      ∀ other j, world.heap.toInt64 other = .ok j →
        call "substring" [value, other] = call "substring" [.long k, .long j]

namespace RunsMethods

variable {call : String → List Value → EStateM.Result Failure World Value} {world : World}
  {s t : String}

theorem substring (h : RunsMethods call world s) (start stop : Int64) :
    call "substring" [.long start, .long stop] = Action.ofExcept (part s.toList start stop) world :=
  h.run "substring" .substring _ rfl

theorem toEnd (h : RunsMethods call world s) (start : Int64) :
    call "substring" [.long start] =
      Action.ofExcept (part s.toList start (Int64.ofNat s.toList.length)) world :=
  h.run "substring" .substring _ rfl

theorem charAt (h : RunsMethods call world s) (k : Int64) :
    call "charAt" [.long k] = Action.ofExcept (character s.toList k) world :=
  h.run "charAt" .charAt _ rfl

theorem indexOf (h : RunsMethods call world s) (t : String) :
    call "indexOf" [.string t] = .ok (indexIn t.toList s.toList) world :=
  h.run "indexOf" .indexOf _ rfl

theorem contains (h : RunsMethods call world s) (t : String) :
    call "contains" [.string t] = .ok (.bool (Text.occursIn t.toList s.toList)) world :=
  h.run "contains" .contains _ rfl

theorem startsWith (h : RunsMethods call world s) (t : String) :
    call "startsWith" [.string t] = .ok (.bool (t.toList.isPrefixOf s.toList)) world :=
  h.run "startsWith" .startsWith _ rfl

theorem endsWith (h : RunsMethods call world s) (t : String) :
    call "endsWith" [.string t] = .ok (.bool (t.toList.isSuffixOf s.toList)) world :=
  h.run "endsWith" .endsWith _ rfl

theorem length (h : RunsMethods call world s) (hs : s.length < 2 ^ 31) :
    call "length" [] = .ok (.int (Int32.ofNat s.length)) world := by
  rw [h.run "length" .length [] rfl, ← ofCount_of_lt hs, ← String.length_toList]
  rfl

/-- The calls cut the needle out exactly at the places that a search looks for. -/
theorem places_eq (h : RunsMethods call world s) (t : String) :
    {k : Int64 | call "substring" [.long k, .long (k + Int64.ofNat t.length)] =
      .ok (.string t) world} = places t.toList s.toList := by
  ext k
  rw [Set.mem_ofPred_eq, h.substring, ofExcept_eq_ok_iff, places, Set.mem_ofPred_eq,
    String.length_toList, String.ofList_toList]

theorem endsWith_iff (h : RunsMethods call world s) (hs : s.toList.length < 2 ^ 31) :
    t.toList.isSuffixOf s.toList = true ↔ t.length ≤ s.length ∧
      call "substring" [.long (Int64.ofNat (s.length - t.length))] = .ok (.string t) world := by
  have hsuffix := part_eq_suffix_iff t.toList hs
  simp only [String.length_toList, String.ofList_toList] at hsuffix
  have hlength (h : t.toList <:+ s.toList) : t.length ≤ s.length := by
    simpa only [String.length_toList] using h.length_le
  rw [h.toEnd, String.length_toList, ofExcept_eq_ok_iff, hsuffix, List.isSuffixOf_iff_suffix]
  exact ⟨fun h => ⟨hlength h, h⟩, And.right⟩

/-- A position may be any value that is read as one. -/
theorem converted (h : RunsMethods call world s) {value : Value} {k : Int64}
    (hvalue : world.heap.toInt64 value = .ok k) :
    call "charAt" [value] = call "charAt" [.long k] ∧
      call "substring" [value] = call "substring" [.long k] ∧
      ∀ other j, world.heap.toInt64 other = .ok j →
        call "substring" [value, other] = call "substring" [.long k, .long j] := by
  refine ⟨?_, ?_, fun other j hother => ?_⟩
  · rw [h.run "charAt" .charAt [value] rfl, h.charAt]
    simp only [TextMethod.run, hvalue]
    rfl
  · rw [h.run "substring" .substring [value] rfl, h.toEnd]
    simp only [TextMethod.run, hvalue]
    rfl
  · rw [h.run "substring" .substring [value, other] rfl, h.substring]
    simp only [TextMethod.run, hvalue, hother]
    rfl

theorem positionsAgree (h : RunsMethods call world s) (hs : s.length < 2 ^ 31)
    (ht : t.length < 2 ^ 31) : PositionsAgree call world s t := by
  have htext : s.toList.length < 2 ^ 31 := by rwa [String.length_toList]
  have hneedle : t.toList.length < 2 ^ 31 := by rwa [String.length_toList]
  constructor
  case length => exact ⟨_, h.length hs, Int32.toInt_ofNat_of_lt hs⟩
  case indexOf =>
    rw [h.places_eq, h.indexOf, h.contains]
    rcases indexIn_cases htext hneedle with
      ⟨i, hnonneg, hi, hoccurs, hleast⟩ | ⟨hi, hoccurs, hempty⟩
    · rw [hi, hoccurs]
      exact .inl ⟨i, hnonneg, rfl, rfl, hleast⟩
    · rw [hi, hoccurs]
      exact .inr ⟨rfl, rfl, hempty⟩
  case startsWith =>
    refine ⟨_, h.startsWith t, ?_⟩
    rw [h.indexOf, isPrefixOf_iff_indexIn htext]
    exact ⟨congrArg (EStateM.Result.ok · world), fun h => (EStateM.Result.ok.inj h).1⟩
  case endsWith => exact ⟨_, h.endsWith t, h.endsWith_iff htext⟩
  case joins =>
    intro k hk hle
    obtain ⟨front, back, hfront, hback, hjoined⟩ :=
      exists_parts htext hk (by rwa [String.length_toList])
    rw [String.ofList_toList] at hjoined
    rw [h.substring, h.toEnd, hfront, hback]
    exact ⟨front, back, rfl, rfl, hjoined⟩
  case single =>
    intro k hk hlt
    obtain ⟨c, hc, hpart⟩ := exists_character htext hk (by rwa [String.length_toList])
    rw [h.charAt, h.substring, hc, hpart]
    exact ⟨c, rfl, rfl⟩
  case substring =>
    intro start stop
    rw [h.substring, ← String.length_toList]
    exact outcomes_iff (fun h => ⟨_, part_of_inRange h⟩) fun h => ⟨_, part_of_not_inRange h⟩
  case toEnd =>
    intro start
    rw [h.toEnd, h.substring, String.length_toList]
  case charAt =>
    intro k
    rw [h.charAt, ← String.length_toList]
    exact outcomes_iff (fun h => (exists_character htext h.1 h.2).imp fun _ => And.left)
      fun h => ⟨_, character_of_not_lt h⟩
  case converted => exact fun value k hvalue => h.converted hvalue

end RunsMethods

theorem runsMethods_invokeMethod (hresolver : context.resolver = chain (standard options))
    (deeper : Deeper) (world : World) (s : String) :
    RunsMethods (fun method args => invokeMethod context deeper (.string s) method args world)
      world s where
  run _ _ _ hmethod := invokeMethod_text hresolver hmethod

/-- What is found in a text is what can be cut out of it, for all texts of fewer characters than an
integer of 32 bits counts, whatever bytes the characters take. -/
theorem text_positions_agree (hresolver : context.resolver = chain (standard options))
    (deeper : Deeper) (world : World) {s t : String} (hs : s.length < 2 ^ 31)
    (ht : t.length < 2 ^ 31) :
    PositionsAgree (fun method args => invokeMethod context deeper (.string s) method args world)
      world s t :=
  (runsMethods_invokeMethod hresolver deeper world s).positionsAgree hs ht

/-- The second of three characters is found behind one that takes two bytes. -/
theorem text_positions_agree_accented :
    let context := Context.standard ⟨false, true⟩
    let call (method : String) (args : List Value) :=
      invokeMethod context context.operations (.string "éab") method args default
    (context.resolver = chain (standard ⟨false, true⟩) ∧ "éab".length < 2 ^ 31 ∧
        "a".length < 2 ^ 31) ∧
      PositionsAgree call default "éab" "a" ∧
      call "indexOf" [.string "a"] = .ok (.int 1) default ∧
      call "substring" [.long 0, .long 1] = .ok (.string "é") default := by
  intro context call
  have hresolver : context.resolver = chain (standard ⟨false, true⟩) := rfl
  have hruns := runsMethods_invokeMethod hresolver context.operations default "éab"
  exact ⟨⟨hresolver, by decide, by decide⟩,
    text_positions_agree hresolver context.operations default (by decide) (by decide),
    hruns.indexOf "a", hruns.substring 0 1⟩

end Evaluation
end ExprLang
