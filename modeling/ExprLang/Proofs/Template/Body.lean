import Mathlib.Data.List.Find
import Mathlib.Tactic.Common
import ExprLang.Proofs.Source.Lexemes

/-!
# Bodies in front of a closing brace

No lexeme goes on with a closing brace, so a text has the same lexemes by itself and in front of
one.  A body whose braces are balanced therefore ends, inside a template, at the brace that was
put behind it, and its tokens are those of the body alone, moved to its place.
-/

namespace ExprLang

/-!
## Lexemes do not reach over a closing brace
-/

namespace Lexeme

variable {c : Char} {rest tail : List Char} {lexeme : Lexeme}

theorem takeWhile_append_of_stop {p : Char → Bool} {stop : Char} (hstop : p stop = false)
    (text tail : List Char) : (text ++ stop :: tail).takeWhile p = text.takeWhile p := by
  induction text with
  | nil => simp [hstop]
  | cons c cs ih =>
      simp only [List.cons_append, List.takeWhile_cons]
      rw [ih]

theorem dropWhile_append_of_stop {p : Char → Bool} {stop : Char} (hstop : p stop = false)
    (text tail : List Char) :
    (text ++ stop :: tail).dropWhile p = text.dropWhile p ++ stop :: tail := by
  induction text with
  | nil => simp [hstop]
  | cons c cs ih =>
      simp only [List.cons_append, List.dropWhile_cons]
      split
      · exact ih
      · rfl

theorem exponentPart_before_brace (text tail : List Char) :
    exponentPart (text ++ '\x7d' :: tail) = exponentPart text := by
  cases text with
  | nil => rfl
  | cons c cs =>
      have hsign : ((cs ++ '\x7d' :: tail).take 1).filter (fun s => s = '+' || s = '-') =
          (cs.take 1).filter (fun s => s = '+' || s = '-') := by
        cases cs <;> rfl
      have hlength : ((cs.take 1).filter (fun s => s = '+' || s = '-')).length ≤ cs.length := by
        exact le_trans (List.length_filter_le _ _) (List.length_take_le' _ _)
      simp only [List.cons_append, exponentPart, hsign]
      rw [List.drop_append_of_le_length hlength, takeWhile_append_of_stop rfl]

theorem number?_before_brace (text tail : List Char) :
    number? (text ++ '\x7d' :: tail) = number? text := by
  have hbrace : Char.isDigit '\x7d' = false := rfl
  unfold number?
  rw [takeWhile_append_of_stop hbrace, dropWhile_append_of_stop hbrace]
  cases text.dropWhile Char.isDigit with
  | nil => rfl
  | cons d ds =>
      by_cases hpoint : d = '.'
      · subst hpoint
        simp only [List.cons_append, takeWhile_append_of_stop hbrace,
          dropWhile_append_of_stop hbrace, exponentPart_before_brace]
      · have hexponent := exponentPart_before_brace (d :: ds) tail
        simp only [List.cons_append] at hexponent ⊢
        simp [hpoint, hexponent]

theorem stringBody?_append {quote : Char} (hquote : quote ≠ '\\') {text body : List Char}
    (h : stringBody? quote text = some body) (tail : List Char) :
    stringBody? quote (text ++ tail) = some body := by
  fun_induction stringBody? quote text generalizing body with
  | case1 | case2 | case5 => cases h
  | case3 c rest hline ih =>
      rcases Option.map_eq_some_iff.mp h with ⟨inner, hinner, rfl⟩
      rw [List.cons_append, List.cons_append, stringBody?, if_neg hline, ih hinner]
      rfl
  | case4 rest =>
      cases h
      rw [List.cons_append, stringBody?, if_pos rfl]
      exact fun _ _ heq => absurd heq hquote
  | case6 c rest _ hopen hplain ih =>
      rcases Option.map_eq_some_iff.mp h with ⟨inner, hinner, rfl⟩
      rw [List.cons_append, stringBody?, if_neg hopen, if_neg hplain, ih hinner]
      · rfl
      · exact fun _ _ heq => absurd heq hplain

theorem isPrefixOf_append_of_stop {stop : Char} {symbol : List Char} (hstop : stop ∉ symbol.tail)
    (c : Char) (rest tail : List Char) :
    symbol.isPrefixOf (c :: rest ++ stop :: tail) = symbol.isPrefixOf (c :: rest) := by
  have hbody : ∀ {symbol : List Char}, stop ∉ symbol → ∀ text : List Char,
      symbol.isPrefixOf (text ++ stop :: tail) = symbol.isPrefixOf text := by
    intro symbol hsymbol text
    induction symbol generalizing text with
    | nil => rfl
    | cons d ds ih =>
        have hd : d ≠ stop := fun heq => hsymbol (heq ▸ List.mem_cons_self)
        cases text with
        | nil => simp [List.isPrefixOf, hd]
        | cons e es =>
            rw [List.cons_append, List.isPrefixOf, List.isPrefixOf,
              ih (fun hmem => hsymbol (List.mem_cons_of_mem d hmem))]
  cases symbol with
  | nil => rfl
  | cons d ds =>
      have htail : stop ∉ ds := hstop
      rw [List.cons_append, List.isPrefixOf, List.isPrefixOf, hbody htail]

theorem symbol?_before_brace (c : Char) (rest tail : List Char) :
    symbol? (c :: rest ++ '\x7d' :: tail) = symbol? (c :: rest) := by
  have hsymbols : ∀ entry ∈ symbols, '\x7d' ∉ entry.1.toList.tail := by decide
  unfold symbol?
  rw [List.find?_congr fun entry hentry =>
    isPrefixOf_append_of_stop (hsymbols entry hentry) c rest tail]

/-- The lexeme at the head of a text is the same when a closing brace follows the text. -/
theorem next?_before_brace (h : next? (c :: rest) = some lexeme) (tail : List Char) :
    next? (c :: rest ++ '\x7d' :: tail) = some lexeme := by
  rw [List.cons_append]
  rw [next?] at h ⊢
  split
  · rename_i hstart
    rw [if_pos hstart] at h
    rw [← h]
    have hbrace : isNamePart '\x7d' = false := rfl
    have hname := takeWhile_append_of_stop hbrace (c :: rest) tail
    rw [List.cons_append] at hname
    rw [word, word, hname]
  · rename_i hstart
    rw [if_neg hstart] at h
    split
    · rename_i hquote
      rw [if_pos hquote] at h
      rcases Option.map_eq_some_iff.mp h with ⟨body, hbody, rfl⟩
      have hplain : c ≠ '\\' := by
        intro heq
        subst heq
        cases hquote
      rw [string?, stringBody?_append hplain hbody]
      rfl
    · rename_i hquote
      rw [if_neg hquote] at h
      rw [← h, ← number?_before_brace (c :: rest) tail, ← symbol?_before_brace c rest tail]
      rfl

/-!
## Lexemes are the text they are read from
-/

theorem exponentPart_text (text : List Char) : exponentPart text <+: text := by
  cases text with
  | nil => exact List.prefix_rfl
  | cons c cs =>
      have hsplit (p : Char → Bool) :
          (cs.take 1).filter p ++ cs.drop ((cs.take 1).filter p).length = cs := by
        cases cs with
        | nil => rfl
        | cons d ds => by_cases hd : p d <;> simp [hd]
      have hsign := hsplit fun s => s = '+' || s = '-'
      simp only [exponentPart]
      generalize (cs.take 1).filter (fun s => s = '+' || s = '-') = sign at hsign ⊢
      split
      · have hdigits := List.takeWhile_prefix Char.isDigit (l := cs.drop sign.length)
        have hsigned := (List.prefix_append_right_inj sign).mpr hdigits
        rw [hsign] at hsigned
        exact List.cons_prefix_cons.mpr ⟨rfl, hsigned⟩
      · exact List.nil_prefix

theorem number?_text {text : List Char} (h : number? text = some lexeme) :
    lexeme.text <+: text ∧ lexeme.text ≠ [] := by
  have hsplit := List.takeWhile_append_dropWhile (p := Char.isDigit) (l := text)
  unfold number? at h
  dsimp only at h
  generalize text.takeWhile Char.isDigit = whole at h hsplit
  generalize text.dropWhile Char.isDigit = after at h hsplit
  subst hsplit
  split at h
  · rename_i rest
    split at h
    · cases h
    · cases h
      refine ⟨?_, by simp [float]⟩
      have hfraction := List.takeWhile_append_dropWhile (p := Char.isDigit) (l := rest)
      have hpoint := (List.prefix_append_right_inj (rest.takeWhile Char.isDigit)).mpr
        (exponentPart_text (rest.dropWhile Char.isDigit))
      rw [hfraction] at hpoint
      simp only [float, List.append_assoc, List.cons_append]
      exact (List.prefix_append_right_inj whole).mpr (List.cons_prefix_cons.mpr ⟨rfl, hpoint⟩)
  · split at h
    · cases h
    · rename_i hwhole
      have hne : whole ≠ [] := by simpa using hwhole
      split at h
      · cases h
        exact ⟨List.prefix_append whole after, hne⟩
      · cases h
        refine ⟨?_, by simp [float, hne]⟩
        exact (List.prefix_append_right_inj whole).mpr (exponentPart_text after)

theorem stringBody?_text {quote : Char} {text body : List Char}
    (h : stringBody? quote text = some body) : body ++ [quote] <+: text := by
  fun_induction stringBody? quote text generalizing body with
  | case1 | case2 | case5 => cases h
  | case3 c rest _ ih =>
      rcases Option.map_eq_some_iff.mp h with ⟨inner, hinner, rfl⟩
      simpa using ih hinner
  | case4 rest =>
      cases h
      exact List.prefix_append [quote] rest
  | case6 c rest _ _ _ ih =>
      rcases Option.map_eq_some_iff.mp h with ⟨inner, hinner, rfl⟩
      simpa using ih hinner

theorem symbol?_text {text : List Char} (h : symbol? text = some lexeme) :
    lexeme.text <+: text ∧ lexeme.text ≠ [] := by
  have hsymbols : ∀ entry ∈ symbols, entry.1.toList ≠ [] := by decide
  rcases Option.map_eq_some_iff.mp h with ⟨entry, hentry, rfl⟩
  have hprefix : entry.1.toList.isPrefixOf text = true :=
    List.find?_some (p := fun entry : String × TokenKind => entry.1.toList.isPrefixOf text) hentry
  exact ⟨List.isPrefixOf_iff_prefix.mp hprefix, hsymbols entry (List.mem_of_find?_eq_some hentry)⟩

theorem next?_text (h : next? (c :: rest) = some lexeme) :
    lexeme.text <+: c :: rest ∧ lexeme.text ≠ [] := by
  rw [next?] at h
  split at h
  · rename_i hstart
    cases h
    refine ⟨List.takeWhile_prefix _, ?_⟩
    simp [word, isNamePart_of_isNameStart hstart]
  · split at h
    · rcases Option.map_eq_some_iff.mp h with ⟨body, hbody, rfl⟩
      exact ⟨by simpa using stringBody?_text hbody, by simp⟩
    · rcases Option.or_eq_some_iff.mp h with hnumber | ⟨_, hsymbol⟩
      · exact number?_text hnumber
      · exact symbol?_text hsymbol

/-- A text is its first lexeme and what remains after it. -/
theorem text_append_remainder (h : next? (c :: rest) = some lexeme) :
    lexeme.text ++ Token.remainder lexeme rest = c :: rest := by
  obtain ⟨⟨after, hafter⟩, hne⟩ := next?_text h
  rcases List.exists_cons_of_ne_nil hne with ⟨d, ds, hds⟩
  rw [hds, List.cons_append, List.cons.injEq] at hafter
  rcases hafter with ⟨rfl, rfl⟩
  simp [Token.remainder, hds]

end Lexeme

/-!
## Balanced bodies
-/

namespace Token

def shift (offset : Nat) (token : Token) : Token :=
  { token with span := token.span.shift offset }

/-- The braces that are open after some tokens, unless one of the tokens closes none. -/
def openAfter (depth : Nat) : List Token → Option Nat
  | [] => some depth
  | token :: rest =>
    if token.kind = .rbrace && depth = 0 then none
    else (nest (some depth) token.kind).bind (openAfter · rest)

/-- Every brace among the tokens is closed, and every closing brace closes one. -/
def Balanced (tokens : List Token) : Prop := openAfter 0 tokens = some 0

theorem nest_none (kind : TokenKind) : nest none kind = none := by
  cases kind <;> rfl

theorem openAfter_cons {depth last : Nat} {token : Token} {rest : List Token}
    (h : openAfter depth (token :: rest) = some last) :
    ¬ (token.kind = .rbrace ∧ depth = 0) ∧
      ∃ depth', nest (some depth) token.kind = some depth' ∧ openAfter depth' rest = some last := by
  rw [openAfter] at h
  split at h
  · cases h
  · rename_i hbrace
    exact ⟨by simpa using hbrace, Option.bind_eq_some_iff.mp h⟩

theorem next?_brace (rest : List Char) :
    Lexeme.next? ('\x7d' :: rest) = some ⟨['\x7d'], .rbrace⟩ := rfl

theorem shift_ofRange {start stop base : Nat} (hstart : start ≤ stop)
    (hstop : stop + base ≤ Span.limit) :
    (Span.ofRange start stop).shift base = .ofRange (start + base) (stop + base) := by
  simp only [Span.shift, Span.ofRange, Span.mk.injEq]
  constructor <;> lia

/-- A text whose tokens close the braces that are open reads in front of a closing brace as it
does alone, and ends there. -/
theorem listFrom_before_brace {braces : Option Nat} {offset : Nat} {text : List Char}
    {tokens : List Token} {ending : Option (List Char × Nat)} (hbraces : braces = none)
    (h : listFrom braces offset text = .ok (tokens, ending)) {depth : Nat}
    (hopen : openAfter depth tokens = some 0) {base place : Nat} (hplace : place = offset + base)
    (hfits : place + byteLength text ≤ Span.limit) (tail : List Char) :
    listFrom (some depth) place (text ++ '\x7d' :: tail) =
      .ok (tokens.map (shift base), some (tail, place + byteLength text + 1)) := by
  fun_induction listFrom braces offset text generalizing depth tokens ending place with
  | case1 braces offset =>
      cases h
      have hdepth : depth = 0 := by simpa [openAfter, nest] using hopen
      subst hdepth hplace
      have hpoint : (Span.point offset).shift base = .point (offset + base) :=
        shift_ofRange (le_refl offset) hfits
      rw [List.nil_append, listFrom, if_neg (by decide)]
      simp only [next?_brace, List.map_cons, List.map_nil, shift, hpoint]
      rfl
  | case2 braces offset c rest hgap ih =>
      rw [byteLength_cons, ← Nat.add_assoc] at hfits
      rw [List.cons_append, listFrom, if_pos hgap, byteLength_cons, ← Nat.add_assoc place]
      exact ih hbraces h hopen (by lia) hfits
  | case3 => cases h
  | case4 braces offset c rest _ lexeme _ hbrace =>
      subst hbraces
      simp at hbrace
  | case5 braces offset c rest hgap lexeme hlexeme hbrace ih =>
      subst hbraces hplace
      have hread := Lexeme.text_append_remainder hlexeme
      have hbytes : byteLength (c :: rest) =
          byteLength lexeme.text + byteLength (remainder lexeme rest) := by
        rw [← byteLength_append, hread]
      have hremainder : remainder lexeme (rest ++ '\x7d' :: tail) =
          remainder lexeme rest ++ '\x7d' :: tail := by
        have hlength := congrArg List.length hread
        simp only [List.length_append, List.length_cons] at hlength
        exact List.drop_append_of_le_length (by lia)
      have hstop : stopOf (offset + base) lexeme = stopOf offset lexeme + base := by
        simp only [stopOf]
        lia
      cases hinner : listFrom (nest none lexeme.kind) (stopOf offset lexeme)
          (remainder lexeme rest) with
      | error error =>
          rw [hinner] at h
          cases h
      | ok inner =>
      rw [hinner] at h
      cases h
      obtain ⟨hdepth, depth', hnest, hopen⟩ := openAfter_cons hopen
      have hrest := ih (nest_none _) hinner hopen hstop (by simp only [stopOf]; lia)
      have hspan : (Span.ofRange offset (stopOf offset lexeme)).shift base =
          .ofRange (offset + base) (stopOf offset lexeme + base) :=
        shift_ofRange (Nat.le_add_right _ _) (by simp only [stopOf]; lia)
      have hclose : ¬ (lexeme.kind = .rbrace && some depth = some 0) = true := by
        simpa using hdepth
      have hnext := Lexeme.next?_before_brace hlexeme tail
      rw [List.cons_append] at hnext ⊢
      rw [listFrom, if_neg hgap]
      simp only [hnext]
      have hend : stopOf offset lexeme + base + byteLength (remainder lexeme rest) + 1 =
          offset + base + byteLength (c :: rest) + 1 := by
        rw [hbytes, stopOf]
        lia
      rw [if_neg hclose, hnest, hremainder, hstop, ← hend]
      rw [hstop] at hrest
      rw [hrest]
      simp only [bind, Except.bind, pure, Except.pure, List.map_cons, shift, hspan]

end Token
end ExprLang
