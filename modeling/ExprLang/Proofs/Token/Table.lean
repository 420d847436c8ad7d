import Mathlib.Computability.Language
import Mathlib.Data.List.TakeWhile
import ExprLang.Proofs.Template.Body

/-!
# The token table

The table gives a language to every kind of token: fixed words and symbols, two kinds of numbers,
strings and names.  What the lexer reads at the head of a text is the longest head that is in one
of the languages, where a fixed spelling counts before a name of the same length.
-/

namespace ExprLang
namespace Lexeme

open Computability

/-!
## Patterns
-/

inductive Pattern
  /-- A word or a symbol that has one spelling. -/
  | fixed (spelling : String) (kind : TokenKind)
  | integer
  | float
  | string
  | name

namespace Pattern

/-- The texts of one character of a class. -/
def oneOf (p : Char → Bool) : Language Char :=
  ({text | ∃ c, p c = true ∧ text = [c]} : Set (List Char))

def digits : Language Char := oneOf Char.isDigit * (oneOf Char.isDigit)∗

def sign : Language Char := oneOf fun c => c = '+' || c = '-'

def exponent : Language Char := oneOf (fun c => c = 'e' || c = 'E') * (1 + sign) * digits

/-- Text between two of the same quotes.  A backslash stands in front of any character but a line
feed. -/
def quotedBy (quote : Char) : Language Char :=
  {[quote]} * (oneOf (fun c => c ≠ quote && c ≠ '\\') + {['\\']} * oneOf (· ≠ '\n'))∗ * {[quote]}

/-- The texts that a pattern matches. -/
def language : Pattern → Language Char
  | fixed spelling _ => {spelling.toList}
  | integer => digits
  | float =>
    digits * {['.']} * (oneOf Char.isDigit)∗ * (1 + exponent) + {['.']} * digits * (1 + exponent)
      + digits * exponent
  | string => quotedBy '"' + quotedBy '\''
  | name => oneOf isNameStart * (oneOf isNamePart)∗

/-- The kind of a token whose text a pattern matches. -/
def kind : Pattern → List Char → TokenKind
  | fixed _ kind, _ => kind
  | integer, text => (Lexeme.integer text).kind
  | float, text => (Lexeme.float text).kind
  | string, text => .string (String.ofList (unescape text.tail.dropLast))
  | name, text => .ident (String.ofList text)

/-- Whether the pattern is a fixed spelling. -/
def isFixed : Pattern → Bool
  | fixed .. => true
  | _ => false

/-- All patterns of tokens. -/
def table : List Pattern :=
  (words ++ symbols).map (fun entry => fixed entry.1 entry.2) ++ [integer, float, string, name]

end Pattern

/-- The lexeme is the longest head of a text that a pattern of the table matches, and no fixed
spelling is given up for it. -/
structure IsLongest (pattern : Pattern) (lexeme : Lexeme) (text : List Char) : Prop where
  listed : pattern ∈ Pattern.table
  head : lexeme.text <+: text
  matched : lexeme.text ∈ pattern.language
  longest : ∀ other ∈ Pattern.table, ∀ head, head <+: text → head ∈ other.language →
    head.length ≤ lexeme.text.length
  fixedFirst : ∀ other ∈ Pattern.table, lexeme.text ∈ other.language → other.isFixed →
    pattern.isFixed
  kind : lexeme.kind = pattern.kind lexeme.text

/-!
## Members of the languages
-/

namespace Pattern

variable {text : List Char}

@[simp]
theorem mem_singleton (text spelling : List Char) :
    text ∈ ({spelling} : Language Char) ↔ text = spelling := Iff.rfl

@[simp]
theorem mem_oneOf {p : Char → Bool} : text ∈ oneOf p ↔ ∃ c, p c = true ∧ text = [c] := Iff.rfl

@[simp]
theorem mem_oneOf_kstar {p : Char → Bool} :
    text ∈ (oneOf p)∗ ↔ ∀ c ∈ text, p c = true := by
  constructor
  · rintro ⟨parts, rfl, hparts⟩ c hc
    obtain ⟨part, hpart, hc⟩ := List.mem_flatten.mp hc
    obtain ⟨d, hd, rfl⟩ := hparts part hpart
    rwa [List.mem_singleton.mp hc]
  · intro htext
    refine ⟨text.map fun c => [c], ?_, ?_⟩
    · rw [← List.flatMap_def, List.flatMap_singleton']
    · intro part hpart
      obtain ⟨c, hc, rfl⟩ := List.mem_map.mp hpart
      exact ⟨c, htext c hc, rfl⟩

theorem mem_digits : text ∈ digits ↔ text ≠ [] ∧ ∀ c ∈ text, c.isDigit = true := by
  simp only [digits, Language.mem_mul, mem_oneOf, mem_oneOf_kstar]
  constructor
  · rintro ⟨_, ⟨c, hc, rfl⟩, rest, hrest, rfl⟩
    exact ⟨List.cons_ne_nil _ _, List.forall_mem_cons.mpr ⟨hc, hrest⟩⟩
  · rintro ⟨hne, htext⟩
    obtain ⟨c, rest, rfl⟩ := List.exists_cons_of_ne_nil hne
    obtain ⟨hc, hrest⟩ := List.forall_mem_cons.mp htext
    exact ⟨[c], ⟨c, hc, rfl⟩, rest, hrest, rfl⟩

theorem mem_name :
    text ∈ name.language ↔ ∃ c rest, text = c :: rest ∧ isNameStart c = true ∧
      ∀ d ∈ rest, isNamePart d = true := by
  simp only [language, Language.mem_mul, mem_oneOf, mem_oneOf_kstar]
  constructor
  · rintro ⟨_, ⟨c, hc, rfl⟩, rest, hrest, rfl⟩
    exact ⟨c, rest, rfl, hc, hrest⟩
  · rintro ⟨c, rest, rfl, hc, hrest⟩
    exact ⟨[c], ⟨c, hc, rfl⟩, rest, hrest, rfl⟩

/-- A mark, an optional sign and digits. -/
theorem mem_exponent :
    text ∈ exponent ↔ ∃ mark signs ds, text = mark :: (signs ++ ds) ∧
      (mark = 'e' || mark = 'E') = true ∧ (signs = [] ∨ signs ∈ sign) ∧ ds ∈ digits := by
  simp only [exponent, Language.mem_mul, mem_oneOf, Language.mem_add, Language.mem_one]
  constructor
  · rintro ⟨_, ⟨_, ⟨mark, hmark, rfl⟩, signs, hsigns, rfl⟩, ds, hds, rfl⟩
    exact ⟨mark, signs, ds, rfl, hmark, hsigns, hds⟩
  · rintro ⟨mark, signs, ds, rfl, hmark, hsigns, hds⟩
    exact ⟨_, ⟨_, ⟨mark, hmark, rfl⟩, signs, hsigns, rfl⟩, ds, hds, rfl⟩

/-- Digits with a point among them or an exponent behind them, or both. -/
theorem mem_float :
    text ∈ float.language ↔
      (∃ whole fraction mark, text = whole ++ '.' :: (fraction ++ mark) ∧
        (∀ c ∈ whole, c.isDigit = true) ∧ (∀ c ∈ fraction, c.isDigit = true) ∧
        (whole ≠ [] ∨ fraction ≠ []) ∧ (mark = [] ∨ mark ∈ exponent)) ∨
      ∃ whole mark, text = whole ++ mark ∧ whole ∈ digits ∧ mark ∈ exponent := by
  simp only [language, Language.mem_mul, Language.mem_add, Language.mem_one, mem_oneOf_kstar,
    mem_singleton]
  constructor
  · rintro ((⟨_, ⟨_, ⟨whole, hwhole, _, rfl, rfl⟩, fraction, hfraction, rfl⟩, mark, hmark, rfl⟩ |
      ⟨_, ⟨_, rfl, fraction, hfraction, rfl⟩, mark, hmark, rfl⟩) |
      ⟨whole, hwhole, mark, hmark, rfl⟩)
    · rw [mem_digits] at hwhole
      exact Or.inl ⟨whole, fraction, mark, by simp, hwhole.2, hfraction, Or.inl hwhole.1, hmark⟩
    · rw [mem_digits] at hfraction
      exact Or.inl ⟨[], fraction, mark, by simp, by simp, hfraction.2, Or.inr hfraction.1, hmark⟩
    · exact Or.inr ⟨whole, mark, rfl, hwhole, hmark⟩
  · rintro (⟨whole, fraction, mark, rfl, hwhole, hfraction, hne, hmark⟩ |
      ⟨whole, mark, rfl, hwhole, hmark⟩)
    · by_cases hnil : whole = []
      · subst hnil
        have hfraction' : fraction ∈ digits := mem_digits.mpr ⟨by simpa using hne, hfraction⟩
        exact Or.inl (Or.inr ⟨_, ⟨_, rfl, fraction, hfraction', rfl⟩, mark, hmark, by simp⟩)
      · exact Or.inl (Or.inl ⟨_, ⟨_, ⟨whole, mem_digits.mpr ⟨hnil, hwhole⟩, _, rfl, rfl⟩, fraction,
          hfraction, rfl⟩, mark, hmark, by simp⟩)
    · exact Or.inr ⟨whole, hwhole, mark, hmark, rfl⟩

end Pattern

/-!
## Strings
-/

theorem cons_mem_kstar {L : Language Char} (part : List Char) {text : List Char} (hpart : part ∈ L)
    (htext : text ∈ L∗) : part ++ text ∈ L∗ := by
  obtain ⟨parts, rfl, hparts⟩ := htext
  exact ⟨part :: parts, rfl, List.forall_mem_cons.mpr ⟨hpart, hparts⟩⟩

theorem mem_quotedBy_of_stringBody? {quote : Char} {text body : List Char}
    (h : stringBody? quote text = some body) :
    quote :: body ++ [quote] ∈ Pattern.quotedBy quote := by
  refine ⟨quote :: body, ⟨[quote], rfl, body, ?_, rfl⟩, [quote], rfl, rfl⟩
  fun_induction stringBody? quote text generalizing body with
  | case1 | case2 | case5 => cases h
  | case3 c rest hline ih =>
      obtain ⟨inner, hinner, rfl⟩ := Option.map_eq_some_iff.mp h
      refine cons_mem_kstar ['\\', c] (Or.inr ?_) (ih hinner)
      exact ⟨['\\'], rfl, [c], ⟨c, by simpa using hline, rfl⟩, rfl⟩
  | case4 =>
      cases h
      exact Language.nil_mem_kstar _
  | case6 c rest _ hopen hplain ih =>
      obtain ⟨inner, hinner, rfl⟩ := Option.map_eq_some_iff.mp h
      exact cons_mem_kstar [c] (Or.inl ⟨c, by simp [hopen, hplain], rfl⟩) (ih hinner)

/-- A quoted text is read up to its closing quote, whatever follows. -/
theorem stringBody?_of_mem_quotedBy {quote : Char} (hquote : quote ≠ '\\') {text : List Char}
    (h : text ∈ Pattern.quotedBy quote) :
    ∃ body, text = quote :: body ++ [quote] ∧
      ∀ rest, stringBody? quote (body ++ quote :: rest) = some body := by
  obtain ⟨_, ⟨_, rfl, _, ⟨parts, rfl, hparts⟩, rfl⟩, _, rfl, rfl⟩ := h
  refine ⟨parts.flatten, rfl, ?_⟩
  intro rest
  induction parts with
  | nil =>
      rw [List.flatten_nil, List.nil_append, stringBody?, if_pos rfl]
      exact fun _ _ heq => absurd heq hquote
  | cons part parts ih =>
      obtain ⟨hpart, hrest⟩ := List.forall_mem_cons.mp hparts
      rw [List.flatten_cons]
      rcases hpart with ⟨c, hc, rfl⟩ | ⟨_, rfl, _, ⟨c, hc, rfl⟩, rfl⟩
      · simp only [ne_eq, decide_not, Bool.and_eq_true, Bool.not_eq_eq_eq_not, Bool.not_true,
          decide_eq_false_iff_not] at hc
        simp only [List.cons_append, List.nil_append]
        rw [stringBody?, if_neg hc.1, if_neg hc.2, ih hrest]
        · rfl
        · exact fun _ _ heq => absurd heq hc.2
      · have hline : c ≠ '\n' := by simpa using hc
        simp only [List.cons_append, List.nil_append]
        rw [stringBody?, if_neg hline, ih hrest]
        rfl

/-!
## Numbers
-/

open Pattern (digits exponent)

variable {text rest : List Char} {lexeme : Lexeme}

theorem exponentPart_mem (text : List Char) :
    exponentPart text = [] ∨ exponentPart text ∈ exponent := by
  cases text with
  | nil => exact Or.inl rfl
  | cons c rest =>
      simp only [exponentPart]
      split
      · rename_i hmark
        rw [Bool.and_eq_true, Bool.not_eq_true', List.isEmpty_eq_false_iff] at hmark
        refine Or.inr (Pattern.mem_exponent.mpr ⟨c, _, _, rfl, hmark.1, ?_, ?_⟩)
        · cases rest with
          | nil => exact Or.inl rfl
          | cons d ds =>
              by_cases hd : (d = '+' || d = '-') = true
              · exact Or.inr ⟨d, hd, by simp [hd]⟩
              · exact Or.inl (by simp [hd])
        · exact Pattern.mem_digits.mpr ⟨hmark.2, fun d hd => List.mem_takeWhile_imp hd⟩
      · exact Or.inl rfl

theorem length_le_exponentPart {mark : List Char} (h : mark ∈ exponent) (rest : List Char) :
    mark.length ≤ (exponentPart (mark ++ rest)).length := by
  obtain ⟨c, signs, ds, rfl, hc, hsigns, hds⟩ := Pattern.mem_exponent.mp h
  obtain ⟨hne, hdigits⟩ := Pattern.mem_digits.mp hds
  have htake : (ds ++ rest).takeWhile Char.isDigit = ds ++ rest.takeWhile Char.isDigit :=
    List.takeWhile_append_of_pos hdigits
  have hsplit : ((signs ++ (ds ++ rest)).take 1).filter (fun s => s = '+' || s = '-') = signs := by
    rcases hsigns with rfl | ⟨s, hs, rfl⟩
    · obtain ⟨d, ds, rfl⟩ := List.exists_cons_of_ne_nil hne
      have hd : (d = '+' || d = '-') = false :=
        eq_false_of_isDigit (p := fun s => s = '+' || s = '-') (by decide)
          (hdigits d List.mem_cons_self)
      simpa using hd
    · simpa using hs
  rw [List.cons_append, List.append_assoc]
  simp only [exponentPart, hsplit, List.drop_left, htake]
  rw [if_pos (by simp [hc, hne])]
  simp only [List.length_cons, List.length_append]
  lia

/-- What is read as a number is in the language of its kind. -/
theorem mem_of_number? (h : number? text = some lexeme) :
    (lexeme.text ∈ Pattern.integer.language ∧ lexeme = integer lexeme.text) ∨
      (lexeme.text ∈ Pattern.float.language ∧ lexeme = float lexeme.text) := by
  have hwhole : ∀ c ∈ text.takeWhile Char.isDigit, c.isDigit = true :=
    fun c hc => List.mem_takeWhile_imp hc
  unfold number? at h
  dsimp only at h
  split at h
  · rename_i after _
    split at h
    · cases h
    · rename_i hne
      cases h
      refine Or.inr ⟨Pattern.mem_float.mpr (Or.inl ?_), rfl⟩
      refine ⟨_, after.takeWhile Char.isDigit, exponentPart (after.dropWhile Char.isDigit),
        by simp [float], hwhole, fun c hc => List.mem_takeWhile_imp hc, ?_, exponentPart_mem _⟩
      simpa only [Bool.and_eq_true, List.isEmpty_iff, not_and_or] using hne
  · rename_i after _
    split at h
    · cases h
    · rename_i hne
      have hdigits : text.takeWhile Char.isDigit ∈ digits :=
        Pattern.mem_digits.mpr ⟨by simpa using hne, hwhole⟩
      split at h
      · cases h
        exact Or.inl ⟨hdigits, rfl⟩
      · rename_i hmark
        cases h
        refine Or.inr ⟨Pattern.mem_float.mpr (Or.inr ⟨_, _, rfl, hdigits, ?_⟩), rfl⟩
        exact (exponentPart_mem _).resolve_left (by simpa using hmark)

section Numbers

variable {whole fraction mark : List Char}

theorem exists_number?_of_digits (hwhole : whole ∈ digits) (rest : List Char) :
    ∃ lexeme, number? (whole ++ rest) = some lexeme ∧ whole.length ≤ lexeme.text.length := by
  obtain ⟨hne, hdigits⟩ := Pattern.mem_digits.mp hwhole
  have htake : (whole ++ rest).takeWhile Char.isDigit = whole ++ rest.takeWhile Char.isDigit :=
    List.takeWhile_append_of_pos hdigits
  unfold number?
  dsimp only
  rw [htake]
  split
  · rw [if_neg (by simp [hne])]
    exact ⟨_, rfl, by simp only [float, List.length_append]; lia⟩
  · rw [if_neg (by simp [hne])]
    split
    · exact ⟨_, rfl, by simp only [integer, List.length_append]; lia⟩
    · exact ⟨_, rfl, by simp only [float, List.length_append]; lia⟩

theorem exists_cons_of_mem_exponent (h : mark ∈ exponent) :
    ∃ c cs, mark = c :: cs ∧ c.isDigit = false ∧ c ≠ '.' := by
  obtain ⟨c, signs, ds, rfl, hc, -⟩ := Pattern.mem_exponent.mp h
  rw [Bool.or_eq_true, decide_eq_true_eq, decide_eq_true_eq] at hc
  refine ⟨c, _, rfl, ?_⟩
  rcases hc with rfl | rfl <;> decide

/-- The digits in front of a point, and those behind it, end where the exponent starts. -/
theorem exists_number?_of_point (hwhole : ∀ c ∈ whole, c.isDigit = true)
    (hfraction : ∀ c ∈ fraction, c.isDigit = true) (hne : whole ≠ [] ∨ fraction ≠ [])
    (hmark : mark = [] ∨ mark ∈ exponent) (rest : List Char) :
    ∃ lexeme, number? (whole ++ '.' :: (fraction ++ mark) ++ rest) = some lexeme ∧
      (whole ++ '.' :: (fraction ++ mark)).length ≤ lexeme.text.length := by
  have hpoint : ∀ c ∈ ('.' :: (fraction ++ (mark ++ rest))).head?, c.isDigit = false := by
    simp
  have htake := takeWhile_append_stop hwhole hpoint
  have hdrop := dropWhile_append_stop hwhole hpoint
  have hafter : (fraction ++ (mark ++ rest)).takeWhile Char.isDigit =
      fraction ++ (mark ++ rest).takeWhile Char.isDigit :=
    List.takeWhile_append_of_pos hfraction
  rw [List.append_assoc, List.cons_append, List.append_assoc]
  unfold number?
  rw [htake, hdrop]
  have hfound : (whole.isEmpty &&
      (fraction ++ (mark ++ rest).takeWhile Char.isDigit).isEmpty) = false := by
    rcases hne with hne | hne <;> simp [hne]
  simp only [hafter]
  rw [hfound, if_neg Bool.false_ne_true]
  refine ⟨_, rfl, ?_⟩
  rcases hmark with rfl | hexponent
  · simp only [float, List.length_append, List.length_cons, List.length_nil]
    lia
  · obtain ⟨c, cs, rfl, hc, -⟩ := exists_cons_of_mem_exponent hexponent
    have hstop : ∀ d ∈ (c :: cs ++ rest).head?, d.isDigit = false := by
      simpa using hc
    have hlength := length_le_exponentPart hexponent rest
    rw [dropWhile_append_stop hfraction hstop]
    simp only [float, List.length_append, List.length_cons] at hlength ⊢
    lia

theorem exists_number?_of_exponent (hwhole : whole ∈ digits) (hmark : mark ∈ exponent)
    (rest : List Char) :
    ∃ lexeme, number? (whole ++ mark ++ rest) = some lexeme ∧
      (whole ++ mark).length ≤ lexeme.text.length := by
  obtain ⟨hne, hdigits⟩ := Pattern.mem_digits.mp hwhole
  have hlength := length_le_exponentPart hmark rest
  obtain ⟨c, cs, rfl, hc, hpoint⟩ := exists_cons_of_mem_exponent hmark
  have hstop : ∀ d ∈ (c :: cs ++ rest).head?, d.isDigit = false := by
    simpa using hc
  have htake := takeWhile_append_stop hdigits hstop
  have hdrop := dropWhile_append_stop hdigits hstop
  rw [List.append_assoc]
  unfold number?
  rw [htake, hdrop]
  simp only [List.length_cons, List.cons_append, List.length_append] at hlength ⊢
  split
  · rename_i heq
    cases heq
    exact absurd rfl hpoint
  · have hsome : (exponentPart (c :: (cs ++ rest))).isEmpty = false := by
      rw [List.isEmpty_eq_false_iff, ← List.length_pos_iff]
      lia
    rw [if_neg (by simp [hne]), if_neg (by simp [hsome])]
    refine ⟨_, rfl, ?_⟩
    simp only [float, List.length_append]
    lia

end Numbers

theorem exists_cons_of_mem_number
    (h : text ∈ Pattern.integer.language ∨ text ∈ Pattern.float.language) :
    ∃ c cs, text = c :: cs ∧ (c.isDigit = true ∨ c = '.' ∧ cs ≠ []) := by
  have hdigits : ∀ {whole}, whole ∈ digits → ∃ c cs, whole = c :: cs ∧ c.isDigit = true := by
    intro whole hwhole
    obtain ⟨hne, hall⟩ := Pattern.mem_digits.mp hwhole
    obtain ⟨c, cs, rfl⟩ := List.exists_cons_of_ne_nil hne
    exact ⟨c, cs, rfl, hall c List.mem_cons_self⟩
  rcases h with hinteger | hfloat
  · obtain ⟨c, cs, rfl, hc⟩ := hdigits hinteger
    exact ⟨c, cs, rfl, Or.inl hc⟩
  · rcases Pattern.mem_float.mp hfloat with ⟨whole, fraction, mark, rfl, hwhole, -, hne, -⟩ |
      ⟨whole, mark, rfl, hwhole, -⟩
    · cases whole with
      | nil => exact ⟨'.', _, rfl, Or.inr ⟨rfl, by simp [hne.resolve_left (not_not.mpr rfl)]⟩⟩
      | cons c cs => exact ⟨c, _, rfl, Or.inl (hwhole c List.mem_cons_self)⟩
    · obtain ⟨c, cs, rfl, hc⟩ := hdigits hwhole
      exact ⟨c, _, rfl, Or.inl hc⟩

/-- A number in front of any text is read at least up to its end. -/
theorem exists_number? {number : List Char}
    (h : number ∈ Pattern.integer.language ∨ number ∈ Pattern.float.language) (rest : List Char) :
    ∃ lexeme, number? (number ++ rest) = some lexeme ∧ number.length ≤ lexeme.text.length := by
  rcases h with hdigits | hfloat
  · exact exists_number?_of_digits hdigits rest
  · rcases Pattern.mem_float.mp hfloat with
      ⟨whole, fraction, mark, rfl, hwhole, hfraction, hne, hmark⟩ |
      ⟨whole, mark, rfl, hwhole, hmark⟩
    · exact exists_number?_of_point hwhole hfraction hne hmark rest
    · exact exists_number?_of_exponent hwhole hmark rest

theorem exists_readInt? {signs ds : List Char} (hsigns : signs = [] ∨ signs ∈ Pattern.sign)
    (hds : ds ∈ digits) : ∃ n, readInt? (signs ++ ds) = some n := by
  obtain ⟨hne, hdigits⟩ := Pattern.mem_digits.mp hds
  obtain ⟨c, cs, rfl⟩ := List.exists_cons_of_ne_nil hne
  have hread : ∀ negative, splitSign (signs ++ c :: cs) = (negative, c :: cs) →
      ∃ n, readInt? (signs ++ c :: cs) = some n := by
    intro negative hsplit
    rw [readInt?, hsplit]
    simp only
    rw [if_neg (by simpa using hdigits)]
    exact ⟨_, rfl⟩
  rcases hsigns with rfl | ⟨s, hs, rfl⟩
  · refine hread false ?_
    have hc := hdigits c List.mem_cons_self
    rw [List.nil_append, splitSign]
    · rintro rest hcons
      rw [(List.cons.inj hcons).1] at hc
      cases hc
    · rintro rest hcons
      rw [(List.cons.inj hcons).1] at hc
      cases hc
  · rw [Bool.or_eq_true, decide_eq_true_eq, decide_eq_true_eq] at hs
    rcases hs with rfl | rfl
    · exact hread false rfl
    · exact hread true rfl

theorem exists_readMarkedExponent? {mark : List Char} (h : mark = [] ∨ mark ∈ exponent) :
    ∃ n, Binary.readMarkedExponent? mark = some n := by
  rcases h with rfl | h
  · exact ⟨0, rfl⟩
  · obtain ⟨c, signs, ds, rfl, hc, hsigns, hds⟩ := Pattern.mem_exponent.mp h
    rw [Binary.readMarkedExponent?, if_pos hc]
    exact exists_readInt? hsigns hds

/-- A floating literal is a decimal number. -/
theorem exists_readUnsigned? (h : text ∈ Pattern.float.language) :
    ∃ digits exponent, Binary.readUnsigned? text = some (digits, exponent) := by
  have hstop : ∀ {mark}, mark = [] ∨ mark ∈ exponent → ∀ c ∈ mark.head?, c.isDigit = false := by
    rintro mark (rfl | hmark) c hc
    · cases hc
    · obtain ⟨d, ds, rfl, hd, -⟩ := exists_cons_of_mem_exponent hmark
      cases hc
      exact hd
  unfold Binary.readUnsigned?
  rcases Pattern.mem_float.mp h with
    ⟨whole, fraction, mark, rfl, hwhole, hfraction, hne, hmark⟩ |
      ⟨whole, mark, rfl, hwhole, hmark⟩
  · have hpoint : ∀ c ∈ ('.' :: (fraction ++ mark)).head?, c.isDigit = false := by simp
    obtain ⟨n, hn⟩ := exists_readMarkedExponent? hmark
    have hsome : (whole.isEmpty && fraction.isEmpty) = false := by
      rcases hne with hne | hne <;> simp [hne]
    simp only [takeWhile_append_stop hwhole hpoint, dropWhile_append_stop hwhole hpoint,
      takeWhile_append_stop hfraction (hstop hmark), dropWhile_append_stop hfraction (hstop hmark),
      hn, hsome]
    exact ⟨_, _, rfl⟩
  · obtain ⟨hne, hdigits⟩ := Pattern.mem_digits.mp hwhole
    obtain ⟨n, hn⟩ := exists_readMarkedExponent? (Or.inr hmark)
    obtain ⟨c, cs, rfl, -, hpoint⟩ := exists_cons_of_mem_exponent hmark
    simp only [takeWhile_append_stop hdigits (hstop (Or.inr hmark)),
      dropWhile_append_stop hdigits (hstop (Or.inr hmark))]
    split
    · rename_i hcons
      exact absurd (List.cons.inj hcons).1 hpoint
    · simp [hn, hne]

end Lexeme
end ExprLang
