import Mathlib
import ExprLang.Proofs.Source.Lexed
import ExprLang.Proofs.Token.Longest

/-!
# Lossless tokenization

A text is passed from its start over blank characters and over lexemes, each of them the longest in
its place.  The tokens of a text are the lexemes that are passed so, and all that is between them is
blank.  A text has no tokens exactly when it cannot be passed to its end.
-/

namespace ExprLang
namespace Token

open Lexeme (IsLongest Pattern next? isQuote)

variable {offset : Nat} {text rest : List Char}

/-!
## Steps of the lexer
-/

theorem listFrom_gap {c : Char} (braces : Option Nat) (offset : Nat) (h : isGap c = true)
    (rest : List Char) :
    listFrom braces offset (c :: rest) = listFrom braces (offset + c.utf8Size) rest := by
  rw [listFrom, if_pos h]

theorem exists_cons_of_isLongest {pattern : Pattern} {lexeme : Lexeme}
    (h : IsLongest pattern lexeme text) :
    ∃ c cs, lexeme.text = c :: cs := by
  obtain ⟨c, cs, htext, -⟩ := Lexeme.exists_start_of_mem h.listed h.matched
  exact ⟨c, cs, htext⟩

/-- A lexeme that does not close the list is its first token. -/
theorem listFrom_lexeme {pattern : Pattern} {lexeme : Lexeme} {braces : Option Nat} (offset : Nat)
    (h : IsLongest pattern lexeme (lexeme.text ++ rest))
    (hopen : lexeme.kind = .rbrace → braces ≠ some 0) :
    listFrom braces offset (lexeme.text ++ rest) =
      (listFrom (nest braces lexeme.kind) (stopOf offset lexeme) rest).map fun read =>
        (⟨lexeme.kind, .ofRange offset (stopOf offset lexeme)⟩ :: read.1, read.2) := by
  have hnext := Lexeme.next?_eq_some_iff.mpr ⟨pattern, h⟩
  obtain ⟨c, cs, htext⟩ := exists_cons_of_isLongest h
  have hremainder : remainder lexeme (cs ++ rest) = rest := by
    simp [remainder, htext]
  rw [htext, List.cons_append] at hnext ⊢
  have hgap : ¬ isGap c = true := by
    intro hgap
    rw [Lexed.next?_gap hgap] at hnext
    cases hnext
  have hclose : ¬ (lexeme.kind = .rbrace && braces = some 0) = true := by
    simpa using hopen
  rw [listFrom, if_neg hgap]
  simp only [hnext]
  rw [if_neg hclose, hremainder]
  cases listFrom (nest braces lexeme.kind) (stopOf offset lexeme) rest <;> rfl

/-- A list with a token in front is read when the rest of it is. -/
theorem exists_inner {read : Except LexError (List Token × Option (List Char × Nat))}
    {token : Token} {tokens : List Token} {ending : Option (List Char × Nat)}
    (h : (do
      let (inner, ending) ← read
      pure (token :: inner, ending)) = Except.ok (tokens, ending)) :
    ∃ inner, read = .ok (inner, ending) ∧ tokens = token :: inner := by
  cases read with
  | error fault => cases h
  | ok inner =>
      obtain ⟨rfl, rfl⟩ := Prod.mk.inj (Except.ok.inj h)
      exact ⟨inner.1, rfl, rfl⟩

theorem inner_eq_error {read : Except LexError (List Token × Option (List Char × Nat))}
    {token : Token} {error : LexError}
    (h : (do
      let (inner, ending) ← read
      pure (token :: inner, ending)) = Except.error error) : read = .error error := by
  cases read with
  | error fault => exact congrArg Except.error (Except.error.inj h)
  | ok inner => cases h

/-!
## Where the lexer gets to
-/

/-- The head of a text is made of blank characters and of lexemes, each the longest in its place. -/
inductive Passes : (head rest : List Char) → Prop
  | nil (rest : List Char) : Passes [] rest
  | gap {c : Char} {head rest : List Char} :
      isGap c = true → Passes head rest → Passes (c :: head) rest
  | lexeme {pattern : Pattern} {lexeme : Lexeme} {head rest : List Char} :
      IsLongest pattern lexeme (lexeme.text ++ (head ++ rest)) → Passes head rest →
      Passes (lexeme.text ++ head) rest

/-- The character after the head is not blank, and no pattern matches there. -/
structure Stuck (head : List Char) (c : Char) (rest : List Char) : Prop where
  passes : Passes head (c :: rest)
  solid : isGap c = false
  unmatched : ∀ pattern ∈ Pattern.table, ∀ start, start <+: c :: rest → start ∉ pattern.language

theorem exists_stuck {error : LexError} {braces : Option Nat} (hbraces : braces = none)
    (h : listFrom braces offset text = .error error) :
    ∃ head c rest, text = head ++ c :: rest ∧ Stuck head c rest ∧
      error = fault (offset + byteLength head) c rest := by
  fun_induction listFrom braces offset text with
  | case1 => cases h
  | case2 braces offset c rest hgap ih =>
      obtain ⟨head, d, after, rfl, hstuck, rfl⟩ := ih hbraces h
      refine ⟨c :: head, d, after, rfl, ⟨.gap hgap hstuck.passes, hstuck.solid,
        hstuck.unmatched⟩, ?_⟩
      rw [byteLength_cons, Nat.add_assoc]
  | case3 braces offset c rest hgap hnext =>
      cases h
      have hunmatched := Lexeme.next?_eq_none_iff.mp hnext
      exact ⟨[], c, rest, rfl, ⟨.nil _, by simpa using hgap, hunmatched⟩, rfl⟩
  | case4 => cases h
  | case5 braces offset c rest _ lexeme hlexeme _ ih =>
      subst hbraces
      have hread := Lexeme.text_append_remainder hlexeme
      obtain ⟨pattern, hlongest⟩ := Lexeme.next?_eq_some_iff.mp hlexeme
      obtain ⟨head, d, after, hremainder, hstuck, rfl⟩ := ih (nest_none _) (inner_eq_error h)
      rw [hremainder] at hread
      rw [← hread] at hlongest
      refine ⟨lexeme.text ++ head, d, after, by rw [← hread, List.append_assoc],
        ⟨.lexeme hlongest hstuck.passes, hstuck.solid, hstuck.unmatched⟩, ?_⟩
      rw [byteLength_append, stopOf, Nat.add_assoc]

theorem Stuck.listFrom_eq {head : List Char} {c : Char} (h : Stuck head c rest) (offset : Nat) :
    listFrom none offset (head ++ c :: rest) =
      .error (fault (offset + byteLength head) c rest) := by
  obtain ⟨hpasses, hsolid, hunmatched⟩ := h
  generalize hafter : c :: rest = after at hpasses
  induction hpasses generalizing offset with
  | nil =>
      subst hafter
      have hnext := Lexeme.next?_eq_none_iff.mpr hunmatched
      rw [List.nil_append, listFrom, if_neg (by simp [hsolid])]
      simp only [hnext]
      rfl
  | gap hgap _ ih =>
      rw [List.cons_append, listFrom_gap none offset hgap, ih _ hafter, byteLength_cons,
        Nat.add_assoc]
  | lexeme hlongest _ ih =>
      subst hafter
      rw [List.append_assoc, listFrom_lexeme offset hlongest (by simp), nest_none, ih _ rfl,
        byteLength_append, stopOf, Nat.add_assoc]
      rfl

/-!
## Tokens and their slices
-/

/-- The token stands where its slice of the text does, and the slice is the longest lexeme there. -/
def Takes (offset : Nat) (text : List Char) (token : Token) (slice : List Char) : Prop :=
  ∃ before after pattern, text = before ++ (slice ++ after) ∧
    token.span =
      ⟨offset + byteLength before, offset + byteLength before + byteLength slice⟩ ∧
    IsLongest pattern ⟨slice, token.kind⟩ (slice ++ after)

/-- The tokens of a text at an offset, in order, with what was read as each of them. -/
structure Tokenization (offset : Nat) (text : List Char) (tokens : List Token)
    (slices : List (List Char)) : Prop where
  nonempty : ∀ token ∈ tokens, token.span.start < token.span.stop
  ordered : tokens.Pairwise fun first second => first.span.stop ≤ second.span.start
  /-- A character that is in no token is blank. -/
  blank : ∀ before c after, text = before ++ c :: after →
    (∀ token ∈ tokens, token.span.stop ≤ offset + byteLength before ∨
      offset + byteLength before < token.span.start) → isGap c = true
  longest : List.Forall₂ (Takes offset text) tokens slices

theorem byteLength_pos (c : Char) (cs : List Char) : 0 < byteLength (c :: cs) := by
  rw [byteLength_cons]
  exact Nat.lt_of_lt_of_le c.utf8Size_pos (Nat.le_add_right _ _)

theorem Takes.append {token : Token} {slice : List Char} (head : List Char)
    (h : Takes (offset + byteLength head) rest token slice) :
    Takes offset (head ++ rest) token slice := by
  obtain ⟨before, after, pattern, rfl, hspan, hlongest⟩ := h
  refine ⟨head ++ before, after, pattern, by rw [List.append_assoc], ?_, hlongest⟩
  rw [hspan, byteLength_append, Nat.add_assoc offset]

theorem Takes.offset_le {token : Token} {slice : List Char} (h : Takes offset text token slice) :
    offset ≤ token.span.start := by
  obtain ⟨before, after, pattern, -, hspan, -⟩ := h
  rw [hspan]
  exact Nat.le_add_right _ _

theorem Takes.stop_le {token : Token} {slice : List Char} (h : Takes offset text token slice) :
    token.span.stop ≤ offset + byteLength text := by
  obtain ⟨before, after, pattern, rfl, hspan, -⟩ := h
  rw [hspan, byteLength_append, byteLength_append]
  lia

namespace Tokenization

variable {tokens : List Token} {slices : List (List Char)}

theorem nil (offset : Nat) : Tokenization offset [] [] [] where
  nonempty := List.forall_mem_nil _
  ordered := .nil
  blank before c after htext := by simp at htext
  longest := .nil

theorem gap {c : Char} (hgap : isGap c = true)
    (h : Tokenization (offset + c.utf8Size) rest tokens slices) :
    Tokenization offset (c :: rest) tokens slices where
  nonempty := h.nonempty
  ordered := h.ordered
  blank := by
    intro before d after htext hapart
    cases before with
    | nil =>
        obtain ⟨rfl, -⟩ := List.cons.inj htext
        exact hgap
    | cons e before =>
        obtain ⟨rfl, hrest⟩ := List.cons.inj htext
        simp only [byteLength_cons, ← Nat.add_assoc] at hapart
        exact h.blank before d after hrest hapart
  longest := h.longest.imp fun _ _ htakes => htakes.append [c]

theorem offset_le (h : Tokenization offset text tokens slices) :
    ∀ token ∈ tokens, offset ≤ token.span.start :=
  ((List.forall₂_and_left _ _).mp (h.longest.imp fun _ _ htakes => ⟨htakes.offset_le, htakes⟩)).1

theorem stop_le (h : Tokenization offset text tokens slices) :
    ∀ token ∈ tokens, token.span.stop ≤ offset + byteLength text :=
  ((List.forall₂_and_left _ _).mp (h.longest.imp fun _ _ htakes => ⟨htakes.stop_le, htakes⟩)).1

theorem lexeme {pattern : Pattern} {lexeme : Lexeme}
    (hlongest : IsLongest pattern lexeme (lexeme.text ++ rest))
    (h : Tokenization (stopOf offset lexeme) rest tokens slices) :
    Tokenization offset (lexeme.text ++ rest)
      (⟨lexeme.kind, ⟨offset, stopOf offset lexeme⟩⟩ :: tokens) (lexeme.text :: slices) where
  nonempty := by
    obtain ⟨c, cs, htext⟩ := exists_cons_of_isLongest hlongest
    refine List.forall_mem_cons.mpr ⟨?_, h.nonempty⟩
    rw [stopOf, htext]
    exact Nat.lt_add_of_pos_right (byteLength_pos c cs)
  ordered := List.pairwise_cons.mpr ⟨h.offset_le, h.ordered⟩
  blank := by
    intro before c after htext hapart
    obtain ⟨hhead, htail⟩ := List.forall_mem_cons.mp hapart
    have hpast : byteLength lexeme.text ≤ byteLength before := by
      simp only [stopOf] at hhead
      lia
    have hbefore : ∃ before', before = lexeme.text ++ before' ∧ rest = before' ++ c :: after := by
      rcases List.append_eq_append_iff.mp htext with ⟨before', hbefore, hrest⟩ |
        ⟨extra, hextra, hrest⟩
      · exact ⟨before', hbefore, hrest⟩
      · cases extra with
        | nil => exact ⟨[], by simpa using hextra.symm, by simpa using hrest.symm⟩
        | cons d ds =>
            rw [hextra, byteLength_append] at hpast
            have hpos := byteLength_pos d ds
            lia
    obtain ⟨before', rfl, hrest⟩ := hbefore
    refine h.blank before' c after hrest fun token htoken => ?_
    have happart := htail token htoken
    rwa [byteLength_append, ← Nat.add_assoc] at happart
  longest := by
    refine .cons ⟨[], rest, pattern, rfl, rfl, hlongest⟩ ?_
    exact h.longest.imp fun _ _ htakes => htakes.append lexeme.text

theorem lexed_slice {token : Token} {slice tail : List Char} {tokens : List Token} {stop : Nat}
    (h : Takes offset text token slice) (htail : ∀ c ∈ tail.head?, isGap c = true)
    (hrest : Lexed stop tail tokens) :
    ∃ span, Lexed stop (slice ++ tail) (⟨token.kind, span⟩ :: tokens) := by
  obtain ⟨-, after, pattern, -, -, hlongest⟩ := h
  obtain ⟨c, cs, hslice⟩ := exists_cons_of_isLongest hlongest
  have hagain : IsLongest pattern ⟨slice, token.kind⟩ (slice ++ tail) := by
    cases tail with
    | nil =>
        refine hlongest.of_prefix (List.prefix_append _ _) ?_
        rw [List.append_nil]
        exact List.prefix_append _ _
    | cons d ds => exact hlongest.before_gap (htail d rfl) ds
  have hnext := Lexeme.next?_eq_some_iff.mpr ⟨pattern, hagain⟩
  have hne : slice ≠ [] := List.ne_nil_of_length_pos (by simp [show slice = c :: cs from hslice])
  exact ⟨_, Lexed.lexeme slice hnext hne hrest⟩

/-- The slices one after another, with a blank between any two, have the kinds of the tokens. -/
theorem lexed_intercalate (h : Tokenization offset text tokens slices) (stop : Nat) :
    ∃ again, Lexed stop ([' '].intercalate slices) again ∧
      again.map Token.kind = tokens.map Token.kind ++ [.eof] := by
  obtain ⟨-, -, -, hlongest⟩ := h
  induction hlongest with
  | nil => exact ⟨_, Lexed.nil stop, rfl⟩
  | @cons token slice tokens slices htakes _ ih =>
      obtain ⟨again, hagain, hkinds⟩ := ih
      cases slices with
      | nil =>
          obtain ⟨span, hlexed⟩ := lexed_slice htakes (by simp) hagain
          exact ⟨_, hlexed, congrArg (token.kind :: ·) hkinds⟩
      | cons next slices =>
          have hgap := Lexed.gap (c := ' ') rfl hagain
          obtain ⟨span, hlexed⟩ := lexed_slice htakes (by simp [isGap]) hgap
          exact ⟨_, hlexed, congrArg (token.kind :: ·) hkinds⟩

end Tokenization

/-- The tokens of a text are an empty one at its end and, before it, a tokenization. -/
theorem exists_tokenization {braces : Option Nat} {tokens : List Token}
    {ending : Option (List Char × Nat)} (hbraces : braces = none)
    (hfits : offset + byteLength text ≤ Span.limit)
    (h : listFrom braces offset text = .ok (tokens, ending)) :
    ∃ body slices,
      tokens = body ++ [⟨.eof, ⟨offset + byteLength text, offset + byteLength text⟩⟩] ∧
        Tokenization offset text body slices := by
  have hspan : ∀ {start stop}, start ≤ Span.limit → stop ≤ Span.limit →
      Span.ofRange start stop = ⟨start, stop⟩ := by
    intro start stop hstart hstop
    rw [Span.ofRange, Nat.min_eq_left hstart, Nat.min_eq_left hstop]
  fun_induction listFrom braces offset text generalizing tokens ending with
  | case1 braces offset =>
      cases h
      have hoffset : offset ≤ Span.limit := hfits
      refine ⟨[], [], ?_, .nil offset⟩
      rw [Span.point, hspan hoffset hoffset]
      rfl
  | case2 braces offset c rest hgap ih =>
      rw [byteLength_cons, ← Nat.add_assoc] at hfits ⊢
      obtain ⟨body, slices, rfl, htokenization⟩ := ih hbraces hfits h
      exact ⟨body, slices, rfl, htokenization.gap hgap⟩
  | case3 => cases h
  | case4 =>
      subst hbraces
      simp_all
  | case5 braces offset c rest _ lexeme hlexeme _ ih =>
      subst hbraces
      have hread := Lexeme.text_append_remainder hlexeme
      obtain ⟨pattern, hlongest⟩ := Lexeme.next?_eq_some_iff.mp hlexeme
      obtain ⟨inner, hinner, rfl⟩ := exists_inner h
      rw [← hread] at hlongest hfits ⊢
      have hstop : offset + byteLength (lexeme.text ++ remainder lexeme rest) =
          stopOf offset lexeme + byteLength (remainder lexeme rest) := by
        rw [byteLength_append, stopOf, Nat.add_assoc]
      rw [hstop] at hfits ⊢
      obtain ⟨body, slices, hbody, htokenization⟩ := ih (nest_none _) hfits hinner
      refine ⟨_, _, ?_, htokenization.lexeme hlongest⟩
      rw [hbody, hspan (by simp only [stopOf] at hfits; lia) (by lia)]
      rfl

/-!
## The lexer
-/

theorem list_eq_ok_iff {tokens : List Token} :
    list text = .ok tokens ↔ ∃ ending, listFrom none 0 text = .ok (tokens, ending) := by
  rw [list]
  cases listFrom none 0 text with
  | error error => simp [Except.map]
  | ok read =>
      obtain ⟨tokens', ending⟩ := read
      simp [Except.map]

theorem list_eq_error_iff {error : LexError} :
    list text = .error error ↔ listFrom none 0 text = .error error := by
  rw [list]
  cases listFrom none 0 text <;> simp [Except.map]

/-- The tokens of a text of less than 4 GiB are its longest lexemes with blanks between them, and
the slices alone have the same kinds.  A text without tokens has a character where no pattern
matches, and it is in that place that the error is; every floating literal is a decimal number. -/
theorem list_tokenizes (text : List Char) :
    (byteLength text ≤ Span.limit → ∀ tokens, list text = .ok tokens → ∃ body slices,
      tokens = body ++ [⟨.eof, ⟨byteLength text, byteLength text⟩⟩] ∧
        Tokenization 0 text body slices ∧
        ∃ again, list ([' '].intercalate slices) = .ok again ∧
          again.map Token.kind = tokens.map Token.kind) ∧
    (∀ error, list text = .error error → ∃ head c rest, text = head ++ c :: rest ∧
      Stuck head c rest ∧
        (byteLength text ≤ Span.limit → error.span.start = byteLength head) ∧
        (isQuote c = true → ∃ span, error = .unterminatedString span) ∧
        (isQuote c = false → ∃ span, error = .unexpectedChar c span)) ∧
    (∀ head c rest, text = head ++ c :: rest → Stuck head c rest →
      ∃ error, list text = .error error) ∧
    ∀ slice ∈ Pattern.float.language, ∃ digits exponent,
      Binary.readUnsigned? slice = some (digits, exponent) := by
  refine ⟨?_, ?_, ?_, ?_⟩
  · intro hfits tokens htokens
    obtain ⟨ending, hread⟩ := list_eq_ok_iff.mp htokens
    obtain ⟨body, slices, rfl, htokenization⟩ :=
      exists_tokenization rfl (by rwa [Nat.zero_add]) hread
    refine ⟨body, slices, by simp, htokenization, ?_⟩
    obtain ⟨again, hagain, hkinds⟩ :=
      htokenization.lexed_intercalate (byteLength ([' '].intercalate slices))
    refine ⟨again, list_eq_ok_iff.mpr ⟨none, hagain 0 (Nat.zero_add _)⟩, ?_⟩
    rw [hkinds, List.map_append]
    rfl
  · intro error herror
    obtain ⟨head, c, rest, rfl, hstuck, rfl⟩ := exists_stuck rfl (list_eq_error_iff.mp herror)
    refine ⟨head, c, rest, rfl, hstuck, ?_, ?_, ?_⟩
    · intro hfits
      rw [byteLength_append] at hfits
      have hhead : byteLength head ≤ Span.limit := by lia
      unfold fault
      split <;> simpa [LexError.span, Span.ofRange] using hhead
    · intro hquote
      exact ⟨_, by rw [fault, if_pos hquote]⟩
    · intro hplain
      exact ⟨_, by rw [fault, if_neg (by simp [hplain])]⟩
  · rintro head c rest rfl hstuck
    exact ⟨_, list_eq_error_iff.mpr (hstuck.listFrom_eq 0)⟩
  · intro slice hslice
    exact Lexeme.exists_readUnsigned? hslice

/-- A name that begins with a word, a symbol that begins with another one, and a word behind a
string with an escaped quote in it. -/
def crowdedText : List Char := "eqx<==\t'\\'é'eq".toList

/-- A string that its text does not close. -/
def openText : List Char := "é 'b".toList

theorem crowdedText_tokenizes :
    (byteLength crowdedText ≤ Span.limit ∧
      ∃ tokens body slices, list crowdedText = .ok tokens ∧ tokens = body ++ [⟨.eof, ⟨15, 15⟩⟩] ∧
        Tokenization 0 crowdedText body slices ∧
        ∃ again, list ([' '].intercalate slices) = .ok again ∧
          again.map Token.kind = tokens.map Token.kind) ∧
    (byteLength openText ≤ Span.limit ∧
      ∃ error head c rest, list openText = .error error ∧ openText = head ++ c :: rest ∧
        Stuck head c rest ∧ error.span.start = byteLength head) := by
  have hfits : byteLength crowdedText ≤ Span.limit := by decide
  have hlist : list crowdedText = .ok [⟨.ident "eqx", ⟨0, 3⟩⟩, ⟨.ltEq, ⟨3, 5⟩⟩, ⟨.eq, ⟨5, 6⟩⟩,
      ⟨.string "'é", ⟨7, 13⟩⟩, ⟨.eqEq, ⟨13, 15⟩⟩, ⟨.eof, ⟨15, 15⟩⟩] := by cbv
  obtain ⟨body, slices, hbody, htokenization, hagain⟩ :=
    (list_tokenizes crowdedText).1 hfits _ hlist
  have hopen : byteLength openText ≤ Span.limit := by decide
  have herror : list openText = .error (.unterminatedString ⟨3, 5⟩) := by cbv
  obtain ⟨head, c, rest, htext, hstuck, hstart, -⟩ :=
    (list_tokenizes openText).2.1 _ herror
  exact ⟨⟨hfits, _, body, slices, hlist, hbody, htokenization, hagain⟩, hopen, _, head, c, rest,
    herror, htext, hstuck, hstart hopen⟩

end Token
end ExprLang
