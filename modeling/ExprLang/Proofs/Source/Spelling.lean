import Mathlib.Tactic.Common
import ExprLang.Proofs.Grammar.Language
import ExprLang.Proofs.Source.Floats
import ExprLang.Proofs.Source.Phrases

/-!
# Spelling expressions

The text of an expression spells it when, whatever the text stands in front of, it reads as a
phrase for the expression.  For each kind of expression, the text spells it if the texts of its
parts do.
-/

namespace ExprLang

open Grammar

namespace Expr

/-- The text does not continue the text of an expression in front of it: no name and no number
goes on, and a point is for a member. -/
structure Follows (e : Expr) (rest : List Char) : Prop where
  apart : Apart rest
  point : rest.head? = some '.' → e.takesMember

/-- The tightest phrase that the text of an expression is. -/
def phrase (e : Expr) : Phrase := if e.isOperand then .value e else .assignment e

/-- In front of every text that does not continue it, the text of the expression reads as the
expression. -/
def Spelt (e : Expr) : Prop :=
  ∀ (stop : Nat) (rest : List Char) (tokens : List Token),
    Within stop (e.text.toList ++ rest) → e.Follows rest → Detached tokens →
    Lexed stop rest tokens →
    ∃ all, Lexed stop (e.text.toList ++ rest) all ∧ Derives e.phrase all tokens

variable {e : Expr} {stop : Nat} {rest : List Char} {ts tokens : List Token}

theorem value_of_phrase (hop : e.isOperand) (h : Derives e.phrase ts tokens) :
    Derives (.value e) ts tokens := by
  rw [phrase, if_pos hop] at h
  exact h

theorem phrase_of_value (h : Derives (.value e) ts tokens) : Derives e.phrase ts tokens := by
  unfold phrase
  split
  · exact h
  · exact h.assignment_of_value

theorem assignment_of_phrase (h : Derives e.phrase ts tokens) :
    Derives (.assignment e) ts tokens := by
  unfold phrase at h
  split at h
  · exact h.assignment_of_value
  · exact h

/-!
## Single lexemes
-/

/-- A token that derives an expression spells it. -/
theorem spelt_of_lexeme (kind : TokenKind) (hne : e.text.toList ≠ [])
    (hnext : ∀ rest, e.Follows rest →
      Lexeme.next? (e.text.toList ++ rest) = some ⟨e.text.toList, kind⟩)
    (hderives : ∀ span tokens, Detached tokens →
      Derives (.primary e) (⟨kind, span⟩ :: tokens) tokens) : e.Spelt := by
  intro stop rest tokens _ hfollows hdetached hlexed
  refine ⟨_, hlexed.lexeme e.text.toList (hnext rest hfollows) hne, ?_⟩
  exact phrase_of_value (.valueOne (hderives _ _ hdetached))

theorem spelt_of_denotes {kind : TokenKind} (hne : e.text.toList ≠ [])
    (hnext : ∀ rest, e.Follows rest →
      Lexeme.next? (e.text.toList ++ rest) = some ⟨e.text.toList, kind⟩)
    (hdenotes : Denotes kind e) : e.Spelt :=
  spelt_of_lexeme kind hne hnext fun _ _ _ => .literal hdenotes

theorem spelt_null : null.Spelt := by
  refine spelt_of_denotes (by decide) (fun rest hfollows => ?_) .null
  exact Lexeme.next?_keyword (by decide) hfollows.apart

theorem spelt_bool (b : Bool) : (bool b).Spelt := by
  cases b with
  | true =>
      refine spelt_of_denotes (by decide) (fun rest hfollows => ?_) .true
      exact Lexeme.next?_keyword (by decide) hfollows.apart
  | false =>
      refine spelt_of_denotes (by decide) (fun rest hfollows => ?_) .false
      exact Lexeme.next?_keyword (by decide) hfollows.apart

theorem Follows.not_point (h : e.Follows rest) (he : e.takesMember = false) :
    rest.head? ≠ some '.' := by
  intro hpoint
  have htakes := h.point hpoint
  rw [he] at htakes
  cases htakes

theorem spelt_int {n : Int64} (hn : 0 ≤ n) : (int n).Spelt := by
  have hnonneg : 0 ≤ n.toInt := Int64.le_iff_toInt_le.mp hn
  have hsmall : n.toInt.natAbs < 2 ^ 63 := by
    have hlt := n.toInt_lt
    lia
  have hvalue : Int64.ofNat n.toInt.natAbs = n := by
    rw [← Int64.ofInt_eq_ofNat, Int.natAbs_of_nonneg hnonneg, Int64.ofInt_toInt]
  have htext : (int n).text.toList = natDigits n.toInt.natAbs := by
    rw [text, intText_of_nonneg hnonneg]
  refine spelt_of_denotes ?_ (fun rest hfollows => ?_) (.int n)
  · rw [htext]
    exact natDigits_ne_nil _
  · rw [htext, Lexeme.next?_digits (natDigits_ne_nil _) (fun c => isDigit_of_mem_natDigits)
      hfollows.apart (hfollows.not_point rfl),
      Lexeme.integer_of_lt (by rwa [digitsValue_natDigits]), digitsValue_natDigits, hvalue]

theorem spelt_bigInt {n : Nat} (hn : 2 ^ 63 ≤ n) :
    (bigInt (String.ofList (natDigits n))).Spelt := by
  have htext : (bigInt (String.ofList (natDigits n))).text.toList = natDigits n := by
    rw [text, String.toList_ofList]
  refine spelt_of_denotes ?_ (fun rest hfollows => ?_) (.bigInt _)
  · rw [htext]
    exact natDigits_ne_nil n
  · rw [htext, Lexeme.next?_digits (natDigits_ne_nil n) (fun c => isDigit_of_mem_natDigits)
      hfollows.apart (hfollows.not_point rfl),
      Lexeme.integer_of_le (fun c => isDigit_of_mem_natDigits) (by rwa [digitsValue_natDigits]),
      digitsValue_natDigits]

theorem spelt_float {x : Binary64} (hfinite : x.isFinite) (hsign : x.isNegative = false) :
    (float x).Spelt := by
  rcases Binary.next?_literal hfinite hsign with ⟨⟨c, cs, hcons, _⟩, hnext⟩
  refine spelt_of_denotes ?_ (fun rest hfollows => ?_) (.float x)
  · rw [text, hcons]
    exact List.cons_ne_nil c cs
  · exact hnext rest hfollows.apart

theorem spelt_str (s : String) : (str s).Spelt := by
  have htext : (str s).text.toList = '\'' :: (Lexeme.escaped s.toList ++ ['\'']) := by
    rw [text, literal, String.toList_ofList]
    rfl
  refine spelt_of_denotes ?_ (fun rest _ => ?_) (.string s)
  · rw [htext]
    exact List.cons_ne_nil _ _
  · rw [htext, List.cons_append, List.append_assoc]
    exact Lexeme.next?_string s rest

theorem spelt_ident {name : String} (hname : Lexeme.isName name) : (ident name).Spelt := by
  refine spelt_of_lexeme (.ident name) ?_ (fun rest hfollows => ?_) (fun span tokens hdetached => ?_)
  · rcases Lexeme.exists_start_of_isName hname with ⟨c, cs, hlist, _⟩
    rw [text, hlist]
    exact List.cons_ne_nil c cs
  · exact Lexeme.next?_name hname hfollows.apart
  · exact .name fun second after => hdetached span second after

/-!
## Parts in front of delimiters
-/

theorem apart_cons {c : Char} (hc : Lexeme.isNamePart c = false) : Apart (c :: rest) := by
  intro d hd
  cases hd
  exact hc

/-- A character that no name, no number and no member goes on with. -/
def IsDelimiter (c : Char) : Prop := Lexeme.isNamePart c = false ∧ c ≠ '.'

instance (c : Char) : Decidable (IsDelimiter c) :=
  inferInstanceAs (Decidable (_ ∧ _))

theorem Spelt.before (h : e.Spelt) (c : Char) (hc : IsDelimiter c)
    (hwithin : Within stop (e.text.toList ++ c :: rest)) (hdetached : Detached tokens)
    (hlexed : Lexed stop (c :: rest) tokens) :
    ∃ all, Lexed stop (e.text.toList ++ c :: rest) all ∧ Derives e.phrase all tokens := by
  refine h stop (c :: rest) tokens hwithin ⟨apart_cons hc.1, fun hpoint => ?_⟩ hdetached hlexed
  cases hpoint
  exact absurd rfl hc.2

/-- A token of one character, whatever follows it. -/
theorem lexed_mark (c : Char) (kind : TokenKind)
    (hmark : Lexeme.next? (c :: rest) = some ⟨[c], kind⟩) (h : Lexed stop rest tokens) :
    Lexed stop (c :: rest) (⟨kind, Lexed.span stop [c] rest⟩ :: tokens) :=
  h.lexeme [c] hmark (List.cons_ne_nil c [])

theorem lexed_name {name : String} (hname : Lexeme.isName name) (hrest : Apart rest)
    (h : Lexed stop rest tokens) :
    Lexed stop (name.toList ++ rest)
      (⟨.ident name, Lexed.span stop name.toList rest⟩ :: tokens) := by
  rcases Lexeme.exists_start_of_isName hname with ⟨c, cs, hlist, _⟩
  refine h.lexeme name.toList (Lexeme.next?_name hname hrest) ?_
  rw [hlist]
  exact List.cons_ne_nil c cs

/-!
## Members, elements and calls
-/

theorem spelt_member {object : Expr} {name : String} (hobject : object.Spelt)
    (htakes : object.takesMember) (hname : Lexeme.isName name) : (member object name).Spelt := by
  intro stop rest tokens hwithin hfollows _ hlexed
  have htext : (member object name).text.toList ++ rest =
      object.text.toList ++ '.' :: (name.toList ++ rest) := by
    simp [text]
  rw [htext] at hwithin ⊢
  rcases Lexeme.exists_start_of_isName hname with ⟨c, cs, hlist, hstart⟩
  have hnamed := lexed_name hname hfollows.apart hlexed
  -- A name starts with no digit, so the point is not that of a fraction.
  have hdot : Lexeme.next? ('.' :: (name.toList ++ rest)) = some ⟨['.'], .dot⟩ := by
    rw [hlist]
    exact Lexeme.next?_point (Lexeme.isDigit_of_isNameStart hstart)
  have hpoint := lexed_mark '.' .dot hdot hnamed
  have hobjectFollows : object.Follows ('.' :: (name.toList ++ rest)) :=
    ⟨apart_cons rfl, fun _ => htakes⟩
  obtain ⟨all, hall, hderives⟩ := hobject _ _ _ hwithin hobjectFollows
    (detached_of_ne_colon (by decide)) hpoint
  have hvalue := value_of_phrase (isOperand_of_takesMember htakes) hderives
  exact ⟨all, hall, phrase_of_value (.member hvalue)⟩

theorem spelt_index {object key : Expr} (hobject : object.Spelt) (hop : object.isOperand)
    (hkey : key.Spelt) : (index object key).Spelt := by
  intro stop rest tokens hwithin _ _ hlexed
  have htext : (index object key).text.toList ++ rest =
      object.text.toList ++ '[' :: (key.text.toList ++ ']' :: rest) := by
    simp [text]
  rw [htext] at hwithin ⊢
  have hclose := lexed_mark ']' .rbracket rfl hlexed
  obtain ⟨inner, hinner, hkeyDerives⟩ := hkey.before ']' (by decide) hwithin.right.tail
    (detached_of_ne_colon (by decide)) hclose
  have hopen := lexed_mark '[' .lbracket rfl hinner
  obtain ⟨all, hall, hderives⟩ := hobject.before '[' (by decide) hwithin
    (detached_of_ne_colon (by decide)) hopen
  have hsequence : Derives (.sequence key) _ _ := .sequenceOne (assignment_of_phrase hkeyDerives)
  exact ⟨all, hall, phrase_of_value (.index (value_of_phrase hop hderives) hsequence)⟩

/-- The character that closes a bracket. -/
def closer : Bracket → Char
  | .paren => ')'
  | .square => ']'
  | .brace => '\x7d'

theorem isDelimiter_closer (bracket : Bracket) : IsDelimiter (closer bracket) := by
  cases bracket <;> decide

theorem lexed_closer (bracket : Bracket) (h : Lexed stop rest tokens) :
    ∃ span, Lexed stop (closer bracket :: rest) (⟨bracket.close, span⟩ :: tokens) := by
  cases bracket <;> exact ⟨_, lexed_mark _ _ rfl h⟩

theorem lexed_items (bracket : Bracket) {items : List Expr} (hitems : ∀ item ∈ items, item.Spelt)
    (hwithin : Within stop ((textItems items).toList ++ closer bracket :: rest))
    (hlexed : Lexed stop rest tokens) :
    ∃ all, Lexed stop ((textItems items).toList ++ closer bracket :: rest) all ∧
      Derives (.enclosed bracket items) all tokens := by
  rcases lexed_closer bracket hlexed with ⟨span, hclose⟩
  have hdetached : Detached (⟨bracket.close, span⟩ :: tokens) :=
    detached_of_ne_colon (by cases bracket <;> decide)
  cases items with
  | nil => exact ⟨_, hclose, .enclosedNone bracket⟩
  | cons e items =>
      have hread : ∃ all,
          Lexed stop ((textItems (e :: items)).toList ++ closer bracket :: rest) all ∧
          Derives (.items (e :: items)) all (⟨bracket.close, span⟩ :: tokens) := by
        induction items generalizing e with
        | nil =>
            have he := hitems e List.mem_cons_self
            obtain ⟨all, hall, hderives⟩ := he.before _ (isDelimiter_closer bracket) hwithin
              hdetached hclose
            exact ⟨all, hall, .itemsOne (assignment_of_phrase hderives)⟩
        | cons d items ih =>
            have htext : (textItems (e :: d :: items)).toList ++ closer bracket :: rest =
                e.text.toList ++ ',' :: ' ' ::
                  ((textItems (d :: items)).toList ++ closer bracket :: rest) := by
              simp [textItems]
            rw [htext] at hwithin ⊢
            obtain ⟨inner, hinner, hmore⟩ := ih d
              (fun item hmem => hitems item (List.mem_cons_of_mem e hmem))
              hwithin.right.tail.tail
            have hcomma := lexed_mark ',' .comma rfl (hinner.gap (c := ' ') rfl)
            have he := hitems e List.mem_cons_self
            obtain ⟨all, hall, hderives⟩ := he.before ',' (by decide) hwithin
              (detached_of_ne_colon (by decide)) hcomma
            exact ⟨all, hall, .itemsMore (assignment_of_phrase hderives) hmore⟩
      rcases hread with ⟨all, hall, hderives⟩
      exact ⟨all, hall, .enclosedItems bracket hderives⟩

theorem spelt_call {callee : Expr} {args : List Expr} (hcallee : callee.Spelt)
    (hop : callee.isOperand) (hargs : ∀ arg ∈ args, arg.Spelt) : (call callee args).Spelt := by
  intro stop rest tokens hwithin _ _ hlexed
  have htext : (call callee args).text.toList ++ rest =
      callee.text.toList ++ '(' :: ((textItems args).toList ++ ')' :: rest) := by
    simp [text]
  rw [htext] at hwithin ⊢
  rcases lexed_items .paren hargs hwithin.right.tail hlexed with ⟨inner, hinner, henclosed⟩
  have hopen := lexed_mark '(' .lparen rfl hinner
  obtain ⟨all, hall, hderives⟩ := hcallee.before '(' (by decide) hwithin
    (detached_of_ne_colon (by decide)) hopen
  exact ⟨all, hall, phrase_of_value (.call (value_of_phrase hop hderives) henclosed)⟩

theorem spelt_callQualified {space name : String} {args : List Expr}
    (hspace : Lexeme.isName space) (hname : Lexeme.isName name)
    (hargs : ∀ arg ∈ args, arg.Spelt) :
    (call (ident (space ++ ":" ++ name)) args).Spelt := by
  intro stop rest tokens hwithin _ _ hlexed
  have htext : (call (ident (space ++ ":" ++ name)) args).text.toList ++ rest =
      space.toList ++ ':' :: (name.toList ++ '(' :: ((textItems args).toList ++ ')' :: rest)) := by
    simp [text]
  rw [htext] at hwithin ⊢
  obtain ⟨inner, hinner, henclosed⟩ :=
    lexed_items .paren hargs hwithin.right.tail.right.tail hlexed
  have hopen := lexed_mark '(' .lparen rfl hinner
  have hnamed := lexed_name hname (apart_cons rfl) hopen
  have hcolon := lexed_mark ':' .colon rfl hnamed
  have hspaced := lexed_name hspace (apart_cons rfl) hcolon
  exact ⟨_, hspaced, phrase_of_value
    (.call (.valueOne (.qualified (.touching rfl rfl))) henclosed)⟩

/-!
## Lists, sets and maps
-/

theorem spelt_list {items : List Expr} (hitems : ∀ item ∈ items, item.Spelt) :
    (list items).Spelt := by
  intro stop rest tokens hwithin _ _ hlexed
  have htext : (list items).text.toList ++ rest =
      '[' :: ((textItems items).toList ++ ']' :: rest) := by
    simp [text]
  rw [htext] at hwithin ⊢
  rcases lexed_items .square hitems hwithin.tail hlexed with ⟨inner, hinner, henclosed⟩
  exact ⟨_, lexed_mark '[' .lbracket rfl hinner, phrase_of_value (.valueOne (.list henclosed))⟩

theorem spelt_set {items : List Expr} (hitems : ∀ item ∈ items, item.Spelt) :
    (set items).Spelt := by
  intro stop rest tokens hwithin _ _ hlexed
  have htext : (set items).text.toList ++ rest =
      '\x7b' :: ((textItems items).toList ++ '\x7d' :: rest) := by
    simp [text]
  rw [htext] at hwithin ⊢
  rcases lexed_items .brace hitems hwithin.tail hlexed with ⟨inner, hinner, henclosed⟩
  exact ⟨_, lexed_mark '\x7b' .lbrace rfl hinner,
    phrase_of_value (.valueOne (.set henclosed))⟩

/-- A key and its value.  The blank after the colon keeps a name before it unqualified. -/
theorem lexed_entry {key value : Expr} (hkey : key.Spelt) (hvalue : value.Spelt) (c : Char)
    (hc : IsDelimiter c) (hdetached : Detached tokens)
    (hwithin : Within stop (key.text.toList ++ ':' :: ' ' :: (value.text.toList ++ c :: rest)))
    (hlexed : Lexed stop (c :: rest) tokens) :
    ∃ all colon mid,
      Lexed stop (key.text.toList ++ ':' :: ' ' :: (value.text.toList ++ c :: rest)) all ∧
      Derives (.assignment key) all (⟨.colon, colon⟩ :: mid) ∧
      Derives (.assignment value) mid tokens := by
  obtain ⟨inner, hinner, hvalueDerives⟩ :=
    hvalue.before c hc hwithin.right.tail.tail hdetached hlexed
  have hcolon := lexed_mark ':' .colon rfl (hinner.gap (c := ' ') rfl)
  obtain ⟨all, hall, hkeyDerives⟩ := hkey.before ':' (by decide) hwithin
    (detached_colon hwithin.right.tail hinner) hcolon
  exact ⟨all, _, inner, hall, assignment_of_phrase hkeyDerives,
    assignment_of_phrase hvalueDerives⟩

theorem lexed_entries {entry : Expr × Expr} {entries : List (Expr × Expr)}
    (hkeys : ∀ entry' ∈ entry :: entries, entry'.1.Spelt)
    (hvalues : ∀ entry' ∈ entry :: entries, entry'.2.Spelt)
    (hwithin : Within stop ((textEntries (entry :: entries)).toList ++ '\x7d' :: rest))
    (hdetached : Detached tokens) (hlexed : Lexed stop ('\x7d' :: rest) tokens) :
    ∃ all, Lexed stop ((textEntries (entry :: entries)).toList ++ '\x7d' :: rest) all ∧
      Derives (.entries (entry :: entries)) all tokens := by
  induction entries generalizing entry with
  | nil =>
      rcases entry with ⟨key, value⟩
      have htext : (textEntries [(key, value)]).toList ++ '\x7d' :: rest =
          key.text.toList ++ ':' :: ' ' :: (value.text.toList ++ '\x7d' :: rest) := by
        simp [textEntries]
      rw [htext] at hwithin ⊢
      obtain ⟨all, colon, mid, hall, hkey, hvalue⟩ := lexed_entry (hkeys _ List.mem_cons_self)
        (hvalues _ List.mem_cons_self) '\x7d' (by decide) hdetached hwithin hlexed
      exact ⟨all, hall, .entriesOne hkey hvalue⟩
  | cons next entries ih =>
      rcases entry with ⟨key, value⟩
      have htext : (textEntries ((key, value) :: next :: entries)).toList ++ '\x7d' :: rest =
          key.text.toList ++ ':' :: ' ' :: (value.text.toList ++ ',' :: ' ' ::
            ((textEntries (next :: entries)).toList ++ '\x7d' :: rest)) := by
        simp [textEntries]
      rw [htext] at hwithin ⊢
      obtain ⟨later, hlater, hmore⟩ := ih
        (fun entry hmem => hkeys entry (List.mem_cons_of_mem _ hmem))
        (fun entry hmem => hvalues entry (List.mem_cons_of_mem _ hmem))
        hwithin.right.tail.tail.right.tail.tail
      have hcomma := lexed_mark ',' .comma rfl (hlater.gap (c := ' ') rfl)
      obtain ⟨all, colon, mid, hall, hkey, hvalue⟩ := lexed_entry (hkeys _ List.mem_cons_self)
        (hvalues _ List.mem_cons_self) ',' (by decide) (detached_of_ne_colon (by decide)) hwithin
        hcomma
      exact ⟨all, hall, .entriesMore hkey hvalue hmore⟩

theorem spelt_map {entries : List (Expr × Expr)} (hne : entries ≠ [])
    (hkeys : ∀ entry ∈ entries, entry.1.Spelt) (hvalues : ∀ entry ∈ entries, entry.2.Spelt) :
    (map entries).Spelt := by
  intro stop rest tokens hwithin _ _ hlexed
  have htext : (map entries).text.toList ++ rest =
      '\x7b' :: ((textEntries entries).toList ++ '\x7d' :: rest) := by
    simp [text]
  rw [htext] at hwithin ⊢
  rcases List.exists_cons_of_ne_nil hne with ⟨entry, entries, rfl⟩
  have hclose := lexed_mark '\x7d' .rbrace rfl hlexed
  obtain ⟨inner, hinner, hentries⟩ := lexed_entries hkeys hvalues hwithin.tail
    (detached_of_ne_colon (by decide)) hclose
  exact ⟨_, lexed_mark '\x7b' .lbrace rfl hinner,
    phrase_of_value (.valueOne (.map hentries))⟩

/-!
## Lambdas
-/

/-- The text from the end of the parameters up to the body. -/
theorem lexed_arrow (hlexed : Lexed stop rest tokens) :
    ∃ close arrow, Lexed stop (')' :: ' ' :: '-' :: '>' :: ' ' :: rest)
      (⟨.rparen, close⟩ :: ⟨.arrow, arrow⟩ :: tokens) := by
  have hnext : Lexeme.next? ('-' :: '>' :: ' ' :: rest) = some ⟨['-', '>'], .arrow⟩ := rfl
  have harrow := (hlexed.gap (c := ' ') rfl).lexeme ['-', '>'] hnext (List.cons_ne_nil _ _)
  exact ⟨_, _, lexed_mark ')' .rparen rfl (harrow.gap (c := ' ') rfl)⟩

/-- The parameters of a lambda from the first one on. -/
theorem lexed_params {param : String} {params : List String}
    (hparams : ∀ name ∈ param :: params, Lexeme.isName name) (hlexed : Lexed stop rest tokens) :
    ∃ all, Lexed stop ((", ".intercalate (param :: params)).toList ++
        ')' :: ' ' :: '-' :: '>' :: ' ' :: rest) all ∧
      LambdaNames (param :: params) all tokens := by
  induction params generalizing param with
  | nil =>
      rcases lexed_arrow hlexed with ⟨close, arrow, harrow⟩
      have hname := hparams param List.mem_cons_self
      rw [String.intercalate_singleton]
      exact ⟨_, lexed_name hname (apart_cons rfl) harrow, .last⟩
  | cons next params ih =>
      have htext : (", ".intercalate (param :: next :: params)).toList ++
          ')' :: ' ' :: '-' :: '>' :: ' ' :: rest =
          param.toList ++ ',' :: ' ' :: ((", ".intercalate (next :: params)).toList ++
            ')' :: ' ' :: '-' :: '>' :: ' ' :: rest) := by
        rw [String.intercalate_cons_of_ne_nil (List.cons_ne_nil _ _)]
        simp
      rcases ih fun name hmem => hparams name (List.mem_cons_of_mem _ hmem) with ⟨all, hall, hnames⟩
      have hcomma := lexed_mark ',' .comma rfl (hall.gap (c := ' ') rfl)
      have hname := hparams param List.mem_cons_self
      rw [htext]
      exact ⟨_, lexed_name hname (apart_cons rfl) hcomma, .more hnames⟩

theorem lexed_lambdaHead {params : List String} (hparams : ∀ name ∈ params, Lexeme.isName name)
    (hlexed : Lexed stop rest tokens) :
    ∃ all, Lexed stop ('(' :: ((", ".intercalate params).toList ++
        ')' :: ' ' :: '-' :: '>' :: ' ' :: rest)) all ∧
      LambdaHead params all tokens := by
  cases params with
  | nil =>
      rcases lexed_arrow hlexed with ⟨close, arrow, harrow⟩
      exact ⟨_, lexed_mark '(' .lparen rfl harrow, .none⟩
  | cons param params =>
      rcases lexed_params hparams hlexed with ⟨all, hall, hnames⟩
      exact ⟨_, lexed_mark '(' .lparen rfl hall, .names hnames⟩

/-- What follows a lambda follows its body. -/
theorem spelt_lambda {params : List String} {body : Expr}
    (hparams : ∀ name ∈ params, Lexeme.isName name) (hbody : body.Spelt) :
    (lambda params body).Spelt := by
  intro stop rest tokens hwithin hfollows hdetached hlexed
  have htext : (lambda params body).text.toList ++ rest =
      '(' :: ((", ".intercalate params).toList ++
        ')' :: ' ' :: '-' :: '>' :: ' ' :: (body.text.toList ++ rest)) := by
    simp [text]
  rw [htext] at hwithin ⊢
  have hbodyFollows : body.Follows rest :=
    ⟨hfollows.apart, fun hpoint => absurd hpoint (hfollows.not_point rfl)⟩
  obtain ⟨inner, hinner, hderives⟩ := hbody _ _ _
    hwithin.tail.right.tail.tail.tail.tail.tail hbodyFollows hdetached hlexed
  rcases lexed_lambdaHead hparams hinner with ⟨all, hall, hhead⟩
  exact ⟨all, hall, .lambda hhead (assignment_of_phrase hderives)⟩

/-!
## Expressions in parentheses
-/

/-- An expression is spelt when its text is parentheses around a text that reads as it. -/
theorem spelt_of_group (body : List Char) (htext : e.text.toList = '(' :: (body ++ [')']))
    (hbody : ∀ (stop : Nat) (rest : List Char) (tokens : List Token),
      Within stop (body ++ ')' :: rest) → Detached tokens → Lexed stop (')' :: rest) tokens →
      ∃ all, Lexed stop (body ++ ')' :: rest) all ∧ Derives (.sequence e) all tokens) :
    e.Spelt := by
  intro stop rest tokens hwithin _ _ hlexed
  have hwhole : e.text.toList ++ rest = '(' :: (body ++ ')' :: rest) := by
    rw [htext]
    simp
  rw [hwhole] at hwithin ⊢
  have hclose := lexed_mark ')' .rparen rfl hlexed
  obtain ⟨inner, hinner, hderives⟩ := hbody _ _ _ hwithin.tail
    (detached_of_ne_colon (by decide)) hclose
  exact ⟨_, lexed_mark '(' .lparen rfl hinner, phrase_of_value (.valueOne (.group hderives))⟩

/-- A symbol with blanks around it. -/
theorem lexed_between (symbol : List Char) (kind : TokenKind)
    (hnext : Lexeme.next? (symbol ++ ' ' :: rest) = some ⟨symbol, kind⟩) (hne : symbol ≠ [])
    (h : Lexed stop rest tokens) :
    ∃ span, Lexed stop (' ' :: (symbol ++ ' ' :: rest)) (⟨kind, span⟩ :: tokens) := by
  have hsymbol := (h.gap (c := ' ') rfl).lexeme symbol hnext hne
  exact ⟨_, hsymbol.gap rfl⟩

/-- Two expressions with a symbol between them, in front of a closing parenthesis. -/
theorem lexed_pair {left right : Expr} (hleft : left.Spelt) (hright : right.Spelt)
    (symbol : List Char) (kind : TokenKind)
    (hnext : ∀ rest, Lexeme.next? (symbol ++ ' ' :: rest) = some ⟨symbol, kind⟩)
    (hne : symbol ≠ []) (hkind : kind ≠ .colon)
    (hwithin : Within stop (left.text.toList ++ ' ' :: (symbol ++ ' ' ::
      (right.text.toList ++ ')' :: rest))))
    (hdetached : Detached tokens) (hlexed : Lexed stop (')' :: rest) tokens) :
    ∃ all span mid, Lexed stop (left.text.toList ++ ' ' :: (symbol ++ ' ' ::
        (right.text.toList ++ ')' :: rest))) all ∧
      Derives left.phrase all (⟨kind, span⟩ :: mid) ∧ Derives right.phrase mid tokens := by
  obtain ⟨mid, hmid, hrightDerives⟩ := hright.before ')' (by decide)
    hwithin.right.tail.right.tail hdetached hlexed
  rcases lexed_between symbol kind (hnext _) hne hmid with ⟨span, hsymbol⟩
  obtain ⟨all, hall, hleftDerives⟩ := hleft.before ' ' (by decide) hwithin
    (detached_of_ne_colon hkind) hsymbol
  exact ⟨all, span, mid, hall, hleftDerives, hrightDerives⟩

theorem spelt_binary (op : BinaryOp) {left right : Expr} (hleft : left.Spelt)
    (hleftOp : left.isOperand) (hright : right.Spelt) (hrightOp : right.isOperand) :
    (binary op left right).Spelt := by
  refine spelt_of_group (left.text.toList ++ ' ' :: (op.symbol.toList ++ ' ' ::
    right.text.toList)) (by simp [text]) ?_
  intro stop rest tokens hwithin hdetached hlexed
  simp only [List.append_assoc, List.cons_append] at hwithin ⊢
  obtain ⟨all, span, mid, hall, hl, hr⟩ := lexed_pair hleft hright _ _ op.next?_symbol
    op.symbol_ne_nil op.token_ne_colon hwithin hdetached hlexed
  have hjoined : Derives (.joined op.level (.binary op left right)) all tokens :=
    .joinedMore (.joinedOne ((value_of_phrase hleftOp hl).operand_of_value op.level))
      op.joins_token ((value_of_phrase hrightOp hr).operand_of_value op.level)
  exact ⟨all, hall, .sequenceOne (.assignmentOne hjoined.choice_of_joined)⟩

theorem spelt_concat {left right : Expr} (hleft : left.Spelt) (hleftOp : left.isOperand)
    (hright : right.Spelt) (hrightOp : right.isOperand) : (concat left right).Spelt := by
  refine spelt_of_group (left.text.toList ++ ' ' :: (['+', '='] ++ ' ' ::
    right.text.toList)) (by simp [text]) ?_
  intro stop rest tokens hwithin hdetached hlexed
  simp only [List.append_assoc, List.cons_append] at hwithin ⊢
  obtain ⟨all, span, mid, hall, hl, hr⟩ := lexed_pair hleft hright ['+', '='] .plusEq
    (fun _ => rfl) (by decide) (by decide) hwithin hdetached hlexed
  have hjoined : Derives (.joined .concat (.concat left right)) all tokens :=
    .joinedMore (.joinedOne ((value_of_phrase hleftOp hl).operand_of_value .concat))
      .concat ((value_of_phrase hrightOp hr).operand_of_value .concat)
  exact ⟨all, hall, .sequenceOne (.assignmentOne hjoined.choice_of_joined)⟩

theorem spelt_assign {target value : Expr} (htarget : target.Spelt)
    (htargetOp : target.isOperand) (hvalue : value.Spelt) : (assign target value).Spelt := by
  refine spelt_of_group (target.text.toList ++ ' ' :: (['='] ++ ' ' ::
    value.text.toList)) (by simp [text]) ?_
  intro stop rest tokens hwithin hdetached hlexed
  simp only [List.append_assoc, List.cons_append] at hwithin ⊢
  obtain ⟨all, span, mid, hall, ht, hv⟩ := lexed_pair htarget hvalue ['='] .eq
    (fun _ => rfl) (by decide) (by decide) hwithin hdetached hlexed
  have hassign : Derives (.assignment (.assign target value)) all tokens :=
    .assign (value_of_phrase htargetOp ht).choice_of_value (assignment_of_phrase hv)
  exact ⟨all, hall, .sequenceOne hassign⟩

theorem spelt_ternary {condition yes no : Expr} (hcondition : condition.Spelt)
    (hconditionOp : condition.isOperand) (hyes : yes.Spelt) (hyesOp : yes.isOperand)
    (hno : no.Spelt) (hnoOp : no.isOperand) : (ternary condition yes no).Spelt := by
  refine spelt_of_group (condition.text.toList ++ ' ' :: (['?'] ++ ' ' ::
    (yes.text.toList ++ ' ' :: ([':'] ++ ' ' :: no.text.toList)))) (by simp [text]) ?_
  intro stop rest tokens hwithin hdetached hlexed
  simp only [List.append_assoc, List.cons_append] at hwithin ⊢
  obtain ⟨later, hlater, hn⟩ := hno.before ')' (by decide)
    hwithin.right.tail.tail.tail.right.tail.tail.tail hdetached hlexed
  -- The blank after the colon keeps the branch before it from being a namespace.
  have hcolon := lexed_mark ':' .colon rfl (hlater.gap (c := ' ') rfl)
  have hdetachedColon := detached_colon hwithin.right.tail.tail.tail.right.tail.tail hlater
  obtain ⟨mid, hmid, hy⟩ := hyes.before ' ' (by decide) hwithin.right.tail.tail.tail
    hdetachedColon (hcolon.gap rfl)
  rcases lexed_between ['?'] .question rfl (by decide) hmid with ⟨span, hquestion⟩
  obtain ⟨all, hall, hc⟩ := hcondition.before ' ' (by decide) hwithin
    (detached_of_ne_colon (by decide)) hquestion
  have hchoice : Derives (.choice (.ternary condition yes no)) all tokens :=
    .ternary (.joinedOne ((value_of_phrase hconditionOp hc).operand_of_value .or))
      (value_of_phrase hyesOp hy).choice_of_value (value_of_phrase hnoOp hn).choice_of_value
  exact ⟨all, hall, .sequenceOne (.assignmentOne hchoice)⟩

theorem spelt_seq {left right : Expr} (hleft : left.Spelt) (hright : right.Spelt) :
    (seq left right).Spelt := by
  refine spelt_of_group (left.text.toList ++ ';' :: ' ' :: right.text.toList)
    (by simp [text]) ?_
  intro stop rest tokens hwithin hdetached hlexed
  simp only [List.append_assoc, List.cons_append] at hwithin ⊢
  rcases hright.before ')' (by decide) hwithin.right.tail.tail hdetached hlexed with ⟨mid, hmid, hr⟩
  have hsemicolon := lexed_mark ';' .semicolon rfl (hmid.gap (c := ' ') rfl)
  obtain ⟨all, hall, hl⟩ := hleft.before ';' (by decide) hwithin
    (detached_of_ne_colon (by decide)) hsemicolon
  exact ⟨all, hall, .sequenceMore (.sequenceOne (assignment_of_phrase hl))
    (assignment_of_phrase hr)⟩

theorem spelt_unary (op : UnaryOp) {operand : Expr} (hoperand : operand.Spelt)
    (hop : operand.isOperand) (hstarts : ∀ rest, Starts (operand.text.toList ++ rest)) :
    (unary op operand).Spelt := by
  refine spelt_of_group (op.symbol.toList ++ operand.text.toList) (by simp [text]) ?_
  intro stop rest tokens hwithin hdetached hlexed
  simp only [List.append_assoc] at hwithin ⊢
  obtain ⟨inner, hinner, hderives⟩ := hoperand.before ')' (by decide) hwithin.right hdetached
    hlexed
  rcases op.lexed (hstarts _) hinner with ⟨kind, span, hprefixes, hall⟩
  have hunary : Derives (.unary (.unary op operand)) (⟨kind, span⟩ :: inner) tokens :=
    .unaryPrefix hprefixes (.unaryValue (value_of_phrase hop hderives))
  exact ⟨_, hall, .sequenceOne (.assignmentOne (.choiceOne (.joinedOne
    (hunary.operand_of_unary .or))))⟩

end Expr
end ExprLang
