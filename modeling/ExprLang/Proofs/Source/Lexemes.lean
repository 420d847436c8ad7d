import Mathlib.Tactic.Common
import ExprLang.Proofs.Number.Digits
import ExprLang.Proofs.Source.Lexed

/-!
# Lexemes in front of text

The lexemes of names, words, integers and strings, each in front of text that does not continue
it.
-/

namespace ExprLang

/-- No name and no number goes on in the text. -/
def Apart (text : List Char) : Prop := ∀ c ∈ text.head?, Lexeme.isNamePart c = false

namespace Lexeme

/-!
## Characters
-/

theorem isNamePart_of_isNameStart {c : Char} (h : isNameStart c = true) :
    isNamePart c = true := by
  rw [isNamePart, h, Bool.true_or]

theorem ascii_of_isDigit {c : Char} (h : c.isDigit = true) : c.val < 128 := by
  have hle : c.val ≤ 57 := by
    unfold Char.isDigit at h
    simp at h
    exact h.2
  exact UInt32.lt_of_le_of_lt hle (by decide)

theorem isNamePart_of_isDigit {c : Char} (h : c.isDigit = true) : isNamePart c = true := by
  rw [isNamePart, Text.isNumber, if_pos (ascii_of_isDigit h), h, Bool.or_true]

theorem isNameStart_of_isDigit {c : Char} (h : c.isDigit = true) : isNameStart c = false :=
  eq_false_of_isDigit (by decide) h

theorem isQuote_of_isDigit {c : Char} (h : c.isDigit = true) : isQuote c = false :=
  eq_false_of_isDigit (by decide) h

theorem isDigit_of_isNameStart {c : Char} (h : isNameStart c = true) : c.isDigit = false := by
  refine Bool.eq_false_iff.mpr fun hdigit => ?_
  rw [isNameStart_of_isDigit hdigit] at h
  cases h

theorem takeWhile_append_stop {p : Char → Bool} {text rest : List Char}
    (htext : ∀ c ∈ text, p c = true) (hrest : ∀ c ∈ rest.head?, p c = false) :
    (text ++ rest).takeWhile p = text := by
  rw [List.takeWhile_append_of_pos htext]
  cases rest with
  | nil => simp
  | cons c cs =>
      have hc := hrest c rfl
      simp [hc]

theorem dropWhile_append_stop {p : Char → Bool} {text rest : List Char}
    (htext : ∀ c ∈ text, p c = true) (hrest : ∀ c ∈ rest.head?, p c = false) :
    (text ++ rest).dropWhile p = rest := by
  rw [List.dropWhile_append_of_pos htext]
  cases rest with
  | nil => rfl
  | cons c cs =>
      have hc := hrest c rfl
      simp [hc]

theorem isDigit_of_apart {rest : List Char} (h : Apart rest) :
    ∀ c ∈ rest.head?, c.isDigit = false := by
  intro c hc
  refine Bool.eq_false_iff.mpr fun hdigit => ?_
  have hpart := h c hc
  rw [isNamePart_of_isDigit hdigit] at hpart
  cases hpart

/-!
## Names and words
-/

/-- Whether the text is a name by itself: it is read whole, and it is no word. -/
def isName (name : String) : Bool :=
  match name.toList with
  | [] => false
  | c :: rest => isNameStart c && rest.all isNamePart && (words.lookup name).isNone

theorem next?_word {c : Char} {cs rest : List Char} (hstart : isNameStart c = true)
    (hparts : ∀ d ∈ cs, isNamePart d = true) (hrest : Apart rest) :
    next? (c :: cs ++ rest) = some ⟨c :: cs,
      (words.lookup (String.ofList (c :: cs))).getD (.ident (String.ofList (c :: cs)))⟩ := by
  have hword : ∀ d ∈ c :: cs, isNamePart d = true := by
    intro d hd
    rcases List.mem_cons.mp hd with rfl | hd
    · exact isNamePart_of_isNameStart hstart
    · exact hparts d hd
  have htake : (c :: (cs ++ rest)).takeWhile isNamePart = c :: cs :=
    takeWhile_append_stop hword hrest
  rw [List.cons_append, next?, if_pos hstart, word, htake]

theorem next?_name {name : String} {rest : List Char} (hname : isName name = true)
    (hrest : Apart rest) : next? (name.toList ++ rest) = some ⟨name.toList, .ident name⟩ := by
  unfold isName at hname
  split at hname
  · cases hname
  · rename_i c cs hlist
    simp only [Bool.and_eq_true, List.all_eq_true, Option.isNone_iff_eq_none] at hname
    rcases hname with ⟨⟨hstart, hparts⟩, hlookup⟩
    have hofList : String.ofList (c :: cs) = name := by rw [← hlist, String.ofList_toList]
    rw [hlist, next?_word hstart hparts hrest, hofList, hlookup]
    rfl

theorem next?_keyword {word : String} {kind : TokenKind} {rest : List Char}
    (hmem : (word, kind) ∈ words) (hrest : Apart rest) :
    next? (word.toList ++ rest) = some ⟨word.toList, kind⟩ := by
  have hwords : ∀ entry ∈ words, ∃ c cs, entry.1.toList = c :: cs ∧ isNameStart c = true ∧
      cs.all isNamePart = true ∧ words.lookup entry.1 = some entry.2 := by
    unfold words
    simp only [List.forall_mem_cons]
    refine ⟨?_, ?_, ?_, ?_, ?_, ?_, ?_, ?_, ?_, ?_, ?_, ?_, ?_, ?_, ?_, by simp⟩ <;>
      exact ⟨_, _, rfl, rfl, rfl, rfl⟩
  rcases hwords _ hmem with ⟨c, cs, hlist, hstart, hparts, hlookup⟩
  have hofList : String.ofList (c :: cs) = word := by
    rw [← String.ofList_toList (s := word), ← hlist]
  rw [hlist, next?_word hstart (List.all_eq_true.mp hparts) hrest, hofList, hlookup]
  rfl

theorem exists_start_of_isName {name : String} (hname : isName name = true) :
    ∃ c cs, name.toList = c :: cs ∧ isNameStart c = true := by
  unfold isName at hname
  split at hname
  · cases hname
  · rename_i c cs hlist
    simp only [Bool.and_eq_true] at hname
    exact ⟨c, cs, hlist, hname.1.1⟩

/-!
## Integers
-/

theorem next?_of_number? {c : Char} {cs : List Char} {lexeme : Lexeme} (hc : c.isDigit = true)
    (hnumber : number? (c :: cs) = some lexeme) : next? (c :: cs) = some lexeme := by
  rw [next?, if_neg (by simp [isNameStart_of_isDigit hc]), if_neg (by simp [isQuote_of_isDigit hc]),
    hnumber]
  rfl

theorem exponentPart_of_apart {rest : List Char} (hrest : Apart rest) : exponentPart rest = [] := by
  cases rest with
  | nil => rfl
  | cons c cs =>
      have hmark : (c = 'e' || c = 'E') = false := by
        have hc := hrest c rfl
        refine Bool.eq_false_iff.mpr fun hmark => ?_
        simp only [Bool.or_eq_true, decide_eq_true_eq] at hmark
        rcases hmark with rfl | rfl <;> cases hc
      simp [exponentPart, hmark]

theorem next?_digits {digits rest : List Char} (hne : digits ≠ [])
    (hdigits : ∀ c ∈ digits, c.isDigit = true) (hrest : Apart rest)
    (hpoint : rest.head? ≠ some '.') :
    next? (digits ++ rest) = some (integer digits) := by
  have hend : ∀ c ∈ rest.head?, c.isDigit = false := isDigit_of_apart hrest
  have hwhole := takeWhile_append_stop hdigits hend
  have hafter := dropWhile_append_stop hdigits hend
  have hnumber : number? (digits ++ rest) = some (integer digits) := by
    unfold number?
    rw [hwhole, hafter]
    split
    · rename_i cs
      exact absurd rfl hpoint
    · simp [hne, exponentPart_of_apart hrest]
  rcases List.exists_cons_of_ne_nil hne with ⟨c, cs, rfl⟩
  exact next?_of_number? (hdigits c List.mem_cons_self) hnumber

/-- A point with no digit on either side is a token of its own. -/
theorem next?_point {c : Char} {rest : List Char} (hc : c.isDigit = false) :
    next? ('.' :: c :: rest) = some ⟨['.'], .dot⟩ := by
  have hwhole : ('.' :: c :: rest).takeWhile Char.isDigit = [] := rfl
  have hafter : ('.' :: c :: rest).dropWhile Char.isDigit = '.' :: c :: rest := rfl
  have hnumber : number? ('.' :: c :: rest) = none := by
    simp [number?, hwhole, hafter, hc]
  have hnext : next? ('.' :: c :: rest) =
      (number? ('.' :: c :: rest)).or (symbol? ('.' :: c :: rest)) := rfl
  rw [hnext, hnumber]
  rfl

theorem integer_of_lt {digits : List Char} (h : digitsValue digits < 2 ^ 63) :
    integer digits = ⟨digits, .int (Int64.ofNat (digitsValue digits))⟩ := by
  have hfits : digitsValue digits < Nat.pow 2 63 := h
  simp only [integer, if_pos hfits]

/-- A literal that 64 bits have no room for keeps its digits, without the zeros in front. -/
theorem integer_of_le {digits : List Char} (hdigits : ∀ c ∈ digits, c.isDigit = true)
    (h : 2 ^ 63 ≤ digitsValue digits) :
    integer digits = ⟨digits, .bigInt (String.ofList (natDigits (digitsValue digits)))⟩ := by
  have hlarge : ¬ digitsValue digits < Nat.pow 2 63 := Nat.not_lt.mpr h
  simp only [integer, if_neg hlarge, natDigits_digitsValue hdigits (by lia)]

/-!
## Strings
-/

/-- The characters between the quotes of a string literal. -/
def escaped (text : List Char) : List Char :=
  text.flatMap fun c => if c = '\'' || c = '\\' then ['\\', c] else [c]

theorem stringBody?_escaped (text rest : List Char) :
    stringBody? '\'' (escaped text ++ '\'' :: rest) = some (escaped text) := by
  induction text with
  | nil => rfl
  | cons c cs ih =>
      have hcons : escaped (c :: cs) =
          (if c = '\'' || c = '\\' then ['\\', c] else [c]) ++ escaped cs := rfl
      rw [hcons]
      split
      · rename_i hc
        have hline : c ≠ '\n' := by
          intro heq
          subst heq
          cases hc
        change stringBody? '\'' ('\\' :: c :: (escaped cs ++ '\'' :: rest)) = _
        rw [stringBody?, if_neg hline, ih]
        rfl
      · rename_i hc
        simp only [Bool.or_eq_true, decide_eq_true_eq, not_or] at hc
        change stringBody? '\'' (c :: (escaped cs ++ '\'' :: rest)) = _
        rw [stringBody?, if_neg hc.1, if_neg hc.2, ih]
        · rfl
        · intro d ds hd
          exact absurd hd hc.2

theorem unescape_escaped (text : List Char) : unescape (escaped text) = text := by
  induction text with
  | nil => rfl
  | cons c cs ih =>
      have hcons : escaped (c :: cs) =
          (if c = '\'' || c = '\\' then ['\\', c] else [c]) ++ escaped cs := rfl
      rw [hcons]
      split
      · rename_i hc
        change unescape ('\\' :: c :: escaped cs) = _
        simp only [Bool.or_eq_true, decide_eq_true_eq] at hc
        rcases hc with rfl | rfl <;> simp [unescape, ih]
      · rename_i hc
        simp only [Bool.or_eq_true, decide_eq_true_eq, not_or] at hc
        change unescape (c :: escaped cs) = _
        rw [unescape, ih]
        intro d ds hd
        exact absurd hd hc.2

theorem next?_string (s : String) (rest : List Char) :
    next? ('\'' :: (escaped s.toList ++ '\'' :: rest)) =
      some ⟨'\'' :: (escaped s.toList ++ ['\'']), .string s⟩ := by
  have hnext : next? ('\'' :: (escaped s.toList ++ '\'' :: rest)) =
      string? '\'' (escaped s.toList ++ '\'' :: rest) := rfl
  rw [hnext, string?, stringBody?_escaped, Option.map_some, unescape_escaped,
    String.ofList_toList]
  rfl

end Lexeme
end ExprLang
