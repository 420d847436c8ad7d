import ExprLang.Proofs.Token.Table

/-!
# The longest lexeme

`Lexeme.next?` reads the longest lexeme of the token table, and where it reads nothing no pattern of
the table matches.  The lexeme stays the longest when less text follows it, or a blank.
-/

namespace ExprLang
namespace Lexeme

open Pattern (exponent)

variable {text rest : List Char} {lexeme : Lexeme}

/-!
## The next lexeme
-/

theorem mem_table {pattern : Pattern} :
    pattern ∈ Pattern.table ↔
      (∃ entry ∈ words ++ symbols, pattern = .fixed entry.1 entry.2) ∨ pattern = .integer ∨
        pattern = .float ∨ pattern = .string ∨ pattern = .name := by
  simp only [Pattern.table, List.mem_append, List.mem_map, List.mem_cons, List.not_mem_nil,
    or_false, eq_comm]

/-- What the first character of a text says about the patterns that may match it. -/
inductive Head (pattern : Pattern) : List Char → Prop
  /-- A name, or a word among the fixed spellings. -/
  | name {c : Char} {cs : List Char} :
      isNameStart c = true → (∀ d ∈ cs, isNamePart d = true) →
      (pattern = .name ∨ ∃ entry ∈ words, pattern = .fixed entry.1 entry.2) →
      Head pattern (c :: cs)
  | string {quote : Char} {cs : List Char} :
      isQuote quote = true → quote :: cs ∈ Pattern.quotedBy quote → pattern = .string →
      Head pattern (quote :: cs)
  /-- A number; a point in front of it is not all of it. -/
  | number {c : Char} {cs : List Char} :
      c.isDigit = true ∨ c = '.' ∧ cs ≠ [] → (pattern = .integer ∨ pattern = .float) →
      Head pattern (c :: cs)
  | symbol {c : Char} {cs : List Char} :
      isNameStart c = false → isQuote c = false → c.isDigit = false → (c = '.' → cs = []) →
      (∃ entry ∈ symbols, pattern = .fixed entry.1 entry.2) → Head pattern (c :: cs)

theorem words_head : ∀ entry ∈ words, ∃ c cs, entry.1.toList = c :: cs ∧
    isNameStart c = true ∧ ∀ d ∈ cs, isNamePart d = true := by
  have hall : words.all fun entry =>
      entry.1.toList.head?.any isNameStart && entry.1.toList.tail.all isNamePart := by decide
  intro entry hentry
  have h := List.all_eq_true.mp hall entry hentry
  rw [Bool.and_eq_true] at h
  obtain ⟨hstart, hparts⟩ := h
  cases hlist : entry.1.toList with
  | nil =>
      rw [hlist] at hstart
      cases hstart
  | cons c cs =>
      rw [hlist] at hstart hparts
      exact ⟨c, cs, rfl, hstart, List.all_eq_true.mp hparts⟩

theorem symbols_head : ∀ entry ∈ symbols, ∃ c cs, entry.1.toList = c :: cs ∧
    isNameStart c = false ∧ isQuote c = false ∧ c.isDigit = false ∧ (c = '.' → cs = []) := by
  have hall : symbols.all fun entry => entry.1.toList.head?.any fun c =>
      decide (isNameStart c = false ∧ isQuote c = false ∧ c.isDigit = false ∧
        (c = '.' → entry.1.toList.tail = [])) := by decide
  intro entry hentry
  have h := List.all_eq_true.mp hall entry hentry
  cases hlist : entry.1.toList with
  | nil =>
      rw [hlist] at h
      cases h
  | cons c cs =>
      rw [hlist] at h
      exact ⟨c, cs, rfl, of_decide_eq_true h⟩

theorem head_of_mem {pattern : Pattern} (hlisted : pattern ∈ Pattern.table)
    (h : text ∈ pattern.language) : Head pattern text := by
  rcases mem_table.mp hlisted with ⟨entry, hentry, rfl⟩ | rfl | rfl | rfl | rfl
  · obtain rfl : text = entry.1.toList := h
    rcases List.mem_append.mp hentry with hword | hsymbol
    · obtain ⟨c, cs, hlist, hstart, hparts⟩ := words_head entry hword
      rw [hlist]
      exact .name hstart hparts (Or.inr ⟨entry, hword, rfl⟩)
    · obtain ⟨c, cs, hlist, hstart, hquote, hdigit, hpoint⟩ := symbols_head entry hsymbol
      rw [hlist]
      exact .symbol hstart hquote hdigit hpoint ⟨entry, hsymbol, rfl⟩
  · obtain ⟨c, cs, rfl, hc⟩ := exists_cons_of_mem_number (Or.inl h)
    exact .number hc (Or.inl rfl)
  · obtain ⟨c, cs, rfl, hc⟩ := exists_cons_of_mem_number (Or.inr h)
    exact .number hc (Or.inr rfl)
  · rcases h with h | h
    · obtain ⟨body, rfl, -⟩ := stringBody?_of_mem_quotedBy (by decide) h
      exact .string rfl h rfl
    · obtain ⟨body, rfl, -⟩ := stringBody?_of_mem_quotedBy (by decide) h
      exact .string rfl h rfl
  · obtain ⟨c, rest, rfl, hc, hrest⟩ := Pattern.mem_name.mp h
    exact .name hc hrest (Or.inl rfl)

theorem isNameStart_of_isQuote {c : Char} (h : isQuote c = true) : isNameStart c = false := by
  rw [isQuote, Bool.or_eq_true, decide_eq_true_eq, decide_eq_true_eq] at h
  rcases h with rfl | rfl <;> rfl

/-- A spelling is a word or a symbol, as its first character tells. -/
theorem spelling_cases {entry : String × TokenKind} (hentry : entry ∈ words ++ symbols) {c : Char}
    {cs : List Char} (h : c :: cs = entry.1.toList) :
    entry ∈ words ∧ isNameStart c = true ∨
      isNameStart c = false ∧ isQuote c = false ∧ c.isDigit = false ∧ (c = '.' → cs = []) := by
  rcases List.mem_append.mp hentry with hword | hsymbol
  · obtain ⟨d, ds, hlist, hstart, -⟩ := words_head entry hword
    obtain ⟨rfl, rfl⟩ := List.cons.inj (h.trans hlist)
    exact Or.inl ⟨hword, hstart⟩
  · obtain ⟨d, ds, hlist, hsymbol⟩ := symbols_head entry hsymbol
    obtain ⟨rfl, rfl⟩ := List.cons.inj (h.trans hlist)
    exact Or.inr hsymbol

/-- Among the spellings of a list, the first one that begins a text is the longest if none is in
front of a longer one. -/
theorem length_le_of_find? {entries : List (String × TokenKind)}
    (hsorted : entries.Pairwise fun a b => b.1.toList.length ≤ a.1.toList.length)
    {found other : String × TokenKind}
    (hfound : entries.find? (fun entry => entry.1.toList.isPrefixOf text) = some found)
    (hother : other ∈ entries) (hhead : other.1.toList <+: text) :
    other.1.toList.length ≤ found.1.toList.length := by
  obtain ⟨-, before, after, rfl, hbefore⟩ := List.find?_eq_some_iff_append.mp hfound
  have hmem : other ∈ found :: after := by
    refine (List.mem_append.mp hother).resolve_left fun hmem => ?_
    have hnot := hbefore other hmem
    rw [Bool.not_eq_true', List.isPrefixOf_iff_prefix.mpr hhead] at hnot
    cases hnot
  rcases List.mem_cons.mp hmem with rfl | hafter
  · exact Nat.le_refl _
  · exact List.rel_of_pairwise_cons (List.pairwise_append.mp hsorted).2.1 hafter

theorem exists_symbol? {entry : String × TokenKind} (hentry : entry ∈ symbols)
    (rest : List Char) :
    ∃ lexeme, symbol? (entry.1.toList ++ rest) = some lexeme ∧
      entry.1.toList.length ≤ lexeme.text.length := by
  have hhead : entry.1.toList <+: entry.1.toList ++ rest := List.prefix_append _ _
  have hsorted : symbols.Pairwise fun a b => b.1.toList.length ≤ a.1.toList.length := by decide
  unfold symbol?
  cases hfind : symbols.find? fun entry' => entry'.1.toList.isPrefixOf (entry.1.toList ++ rest) with
  | none =>
      have hnot := List.find?_eq_none.mp hfind entry hentry
      exact absurd (List.isPrefixOf_iff_prefix.mpr hhead) hnot
  | some found =>
      exact ⟨_, rfl, length_le_of_find? hsorted hfind hentry hhead⟩

/-- A number that starts with no digit starts with a point. -/
theorem eq_point_of_number? {c : Char} {cs : List Char} (hdigit : c.isDigit = false)
    (h : number? (c :: cs) = some lexeme) : c = '.' := by
  have hkind := (mem_of_number? h).imp And.left And.left
  obtain ⟨d, ds, hlexeme, hd⟩ := exists_cons_of_mem_number hkind
  have hhead := (number?_text h).1
  rw [hlexeme, List.cons_prefix_cons] at hhead
  rw [hhead.1, hdigit] at hd
  exact (hd.resolve_left Bool.false_ne_true).1

/-- A text that a pattern matches is read at least up to its end, whatever follows. -/
theorem exists_next? {pattern : Pattern} (hlisted : pattern ∈ Pattern.table) {text : List Char}
    (h : text ∈ pattern.language) (rest : List Char) :
    ∃ lexeme, next? (text ++ rest) = some lexeme ∧ text.length ≤ lexeme.text.length := by
  cases head_of_mem hlisted h with
  | @name c cs hstart hparts _ =>
      have hword : ∀ d ∈ c :: cs, isNamePart d = true :=
        List.forall_mem_cons.mpr ⟨isNamePart_of_isNameStart hstart, hparts⟩
      refine ⟨word (c :: cs ++ rest), by rw [List.cons_append, next?, if_pos hstart], ?_⟩
      simp only [word, List.takeWhile_append_of_pos hword, List.length_append]
      lia
  | @string quote cs hquote hmem _ =>
      have hplain : quote ≠ '\\' := by
        rintro rfl
        cases hquote
      obtain ⟨body, hbody, hread⟩ := stringBody?_of_mem_quotedBy hplain hmem
      obtain rfl : cs = body ++ [quote] := (List.cons.inj hbody).2
      refine ⟨⟨quote :: body ++ [quote], .string (String.ofList (unescape body))⟩, ?_, le_rfl⟩
      have hclose : body ++ [quote] ++ rest = body ++ quote :: rest := by simp
      rw [List.cons_append, next?, if_neg (by simp [isNameStart_of_isQuote hquote]), if_pos hquote,
        string?, hclose, hread]
      rfl
  | @number c cs hc hpattern =>
      have hnumber : c :: cs ∈ Pattern.integer.language ∨ c :: cs ∈ Pattern.float.language := by
        rcases hpattern with rfl | rfl
        · exact Or.inl h
        · exact Or.inr h
      obtain ⟨lexeme, hread, hlength⟩ := exists_number? hnumber rest
      refine ⟨lexeme, ?_, hlength⟩
      have hclass : isNameStart c = false ∧ isQuote c = false := by
        rcases hc with hdigit | ⟨rfl, -⟩
        · exact ⟨isNameStart_of_isDigit hdigit, isQuote_of_isDigit hdigit⟩
        · exact ⟨rfl, rfl⟩
      rw [List.cons_append] at hread ⊢
      rw [next?, if_neg (by simp [hclass.1]), if_neg (by simp [hclass.2]), hread]
      rfl
  | @symbol c cs hstart hquote hdigit hpoint hpattern =>
      obtain ⟨entry, hentry, rfl⟩ := hpattern
      have hspelling : c :: cs = entry.1.toList := h
      obtain ⟨found, hfound, hlength⟩ := exists_symbol? hentry rest
      rw [← hspelling, List.cons_append] at hfound
      rw [← hspelling] at hlength
      rw [List.cons_append, next?, if_neg (by simp [hstart]), if_neg (by simp [hquote])]
      cases hnumber : number? (c :: (cs ++ rest)) with
      | none =>
          rw [hfound]
          exact ⟨found, rfl, hlength⟩
      | some lexeme =>
          refine ⟨lexeme, rfl, ?_⟩
          -- only a point starts both a number and a symbol, and it is all of the symbol
          rw [hpoint (eq_point_of_number? hdigit hnumber)]
          exact List.length_pos_of_ne_nil (number?_text hnumber).2

/-- The text of a lexeme has its kind by a pattern, and is not spelt like a word or a symbol unless
it is one. -/
structure Follows (pattern : Pattern) (lexeme : Lexeme) : Prop where
  listed : pattern ∈ Pattern.table
  matched : lexeme.text ∈ pattern.language
  kind : lexeme.kind = pattern.kind lexeme.text
  unspelt : pattern.isFixed = false → ∀ entry ∈ words ++ symbols, lexeme.text ≠ entry.1.toList

theorem follows_fixed {entry : String × TokenKind} (hentry : entry ∈ words ++ symbols) :
    Follows (.fixed entry.1 entry.2) ⟨entry.1.toList, entry.2⟩ where
  listed := mem_table.mpr (Or.inl ⟨entry, hentry, rfl⟩)
  matched := rfl
  kind := rfl
  unspelt h := by cases h

theorem exists_follows_word {c : Char} (hstart : isNameStart c = true) (rest : List Char) :
    ∃ pattern, Follows pattern (word (c :: rest)) := by
  have hname : (c :: rest).takeWhile isNamePart = c :: rest.takeWhile isNamePart := by
    rw [List.takeWhile_cons, if_pos (isNamePart_of_isNameStart hstart)]
  have hword : word (c :: rest) = ⟨c :: rest.takeWhile isNamePart,
      (words.lookup (String.ofList (c :: rest.takeWhile isNamePart))).getD
        (.ident (String.ofList (c :: rest.takeWhile isNamePart)))⟩ := by
    rw [word, hname]
  rw [hword]
  cases hlookup : words.lookup (String.ofList (c :: rest.takeWhile isNamePart)) with
  | some kind =>
      obtain ⟨before, after, hwords, -⟩ := List.lookup_eq_some_iff.mp hlookup
      have hentry : (String.ofList (c :: rest.takeWhile isNamePart), kind) ∈ words := by
        rw [hwords]
        exact List.mem_append_right before List.mem_cons_self
      have hfollows := follows_fixed (List.mem_append_left symbols hentry)
      rw [String.toList_ofList] at hfollows
      exact ⟨_, hfollows⟩
  | none =>
      refine ⟨.name, mem_table.mpr (by simp), ?_, rfl, ?_⟩
      · exact Pattern.mem_name.mpr ⟨c, _, rfl, hstart, fun d hd => List.mem_takeWhile_imp hd⟩
      · intro _ entry hentry hspelt
        rcases spelling_cases hentry hspelt with ⟨hword, -⟩ | ⟨hplain, -⟩
        · have hne := List.lookup_eq_none_iff.mp hlookup entry hword
          dsimp only at hspelt
          rw [hspelt, String.ofList_toList, bne_self_eq_false] at hne
          cases hne
        · rw [hstart] at hplain
          cases hplain

theorem follows_string {quote : Char} (hquote : isQuote quote = true) {text body : List Char}
    (h : stringBody? quote text = some body) :
    Follows .string ⟨quote :: body ++ [quote], .string (String.ofList (unescape body))⟩ where
  listed := mem_table.mpr (by simp)
  matched := by
    have hmem := mem_quotedBy_of_stringBody? h
    rw [isQuote, Bool.or_eq_true, decide_eq_true_eq, decide_eq_true_eq] at hquote
    rcases hquote with rfl | rfl
    · exact Or.inl hmem
    · exact Or.inr hmem
  kind := by simp [Pattern.kind]
  unspelt := by
    intro _ entry hentry hspelt
    rcases spelling_cases hentry hspelt with ⟨-, hstart⟩ | ⟨-, hplain, -⟩
    · rw [isNameStart_of_isQuote hquote] at hstart
      cases hstart
    · rw [hquote] at hplain
      cases hplain

theorem exists_follows_number (h : number? text = some lexeme) :
    ∃ pattern, Follows pattern lexeme := by
  have hunspelt : (lexeme.text ∈ Pattern.integer.language ∨ lexeme.text ∈ Pattern.float.language) →
      ∀ entry ∈ words ++ symbols, lexeme.text ≠ entry.1.toList := by
    intro hmem entry hentry hspelt
    obtain ⟨c, cs, hlexeme, hc⟩ := exists_cons_of_mem_number hmem
    rw [hlexeme] at hspelt
    rcases spelling_cases hentry hspelt with ⟨-, hstart⟩ | ⟨-, -, hdigit, hpoint⟩
    · rcases hc with hdigit | ⟨rfl, -⟩
      · rw [isNameStart_of_isDigit hdigit] at hstart
        cases hstart
      · cases hstart
    · rcases hc with hdigit' | ⟨rfl, hne⟩
      · rw [hdigit] at hdigit'
        cases hdigit'
      · exact hne (hpoint rfl)
  rcases mem_of_number? h with ⟨hmem, hkind⟩ | ⟨hmem, hkind⟩
  · exact ⟨.integer, mem_table.mpr (by simp), hmem, congrArg kind hkind,
      fun _ => hunspelt (Or.inl hmem)⟩
  · exact ⟨.float, mem_table.mpr (by simp), hmem, congrArg kind hkind,
      fun _ => hunspelt (Or.inr hmem)⟩

theorem exists_follows_symbol (h : symbol? text = some lexeme) :
    ∃ pattern, Follows pattern lexeme := by
  obtain ⟨entry, hentry, rfl⟩ := Option.map_eq_some_iff.mp h
  exact ⟨_, follows_fixed (List.mem_append_right words (List.mem_of_find?_eq_some hentry))⟩

theorem exists_follows (h : next? text = some lexeme) : ∃ pattern, Follows pattern lexeme := by
  cases text with
  | nil => cases h
  | cons c rest =>
      rw [next?] at h
      split at h
      · rename_i hstart
        cases h
        exact exists_follows_word hstart rest
      · split at h
        · rename_i hquote
          obtain ⟨body, hbody, rfl⟩ := Option.map_eq_some_iff.mp h
          exact ⟨.string, follows_string hquote hbody⟩
        · rcases Option.or_eq_some_iff.mp h with hnumber | ⟨-, hsymbol⟩
          · exact exists_follows_number hnumber
          · exact exists_follows_symbol hsymbol

theorem Follows.isLongest {pattern : Pattern} (hfollows : Follows pattern lexeme)
    (h : next? text = some lexeme) : IsLongest pattern lexeme text where
  listed := hfollows.listed
  matched := hfollows.matched
  kind := hfollows.kind
  head := by
    cases text with
    | nil => cases h
    | cons c rest => exact (next?_text h).1
  longest := by
    rintro other hother head ⟨rest, rfl⟩ hmatch
    obtain ⟨found, hfound, hlength⟩ := exists_next? hother hmatch rest
    rw [h] at hfound
    cases hfound
    exact hlength
  fixedFirst := by
    intro other hother hmatch hfixed
    rcases mem_table.mp hother with ⟨entry, hentry, rfl⟩ | rfl | rfl | rfl | rfl
    · refine Bool.not_eq_false _ |>.mp fun hplain => ?_
      exact hfollows.unspelt hplain entry hentry hmatch
    all_goals cases hfixed

theorem not_mem_float_of_mem_integer (hinteger : text ∈ Pattern.integer.language) :
    text ∉ Pattern.float.language := by
  intro hfloat
  have hdigits := (Pattern.mem_digits.mp hinteger).2
  rcases Pattern.mem_float.mp hfloat with ⟨whole, fraction, mark, rfl, -⟩ |
    ⟨whole, mark, rfl, -, hmark⟩
  · have hpoint := hdigits '.' (by simp)
    cases hpoint
  · obtain ⟨c, cs, rfl, hc, -⟩ := exists_cons_of_mem_exponent hmark
    rw [hdigits c (by simp)] at hc
    cases hc

/-- The sort of a first character; both kinds of numbers start alike. -/
def Pattern.starts : Pattern → Char → Bool
  | .fixed .., _ => true
  | .integer, c | .float, c => c.isDigit || c = '.'
  | .string, c => isQuote c
  | .name, c => isNameStart c

theorem exists_start_of_mem {pattern : Pattern} (hlisted : pattern ∈ Pattern.table)
    (h : text ∈ pattern.language) : ∃ c cs, text = c :: cs ∧ pattern.starts c = true := by
  cases head_of_mem hlisted h with
  | name hstart _ hpattern =>
      refine ⟨_, _, rfl, ?_⟩
      rcases hpattern with rfl | ⟨entry, -, rfl⟩
      · exact hstart
      · rfl
  | string hquote _ hpattern => exact ⟨_, _, rfl, hpattern ▸ hquote⟩
  | number hc hpattern =>
      refine ⟨_, _, rfl, ?_⟩
      rcases hpattern with rfl | rfl <;> simpa [Pattern.starts] using hc.imp id And.left
  | symbol _ _ _ _ hpattern =>
      obtain ⟨entry, -, rfl⟩ := hpattern
      exact ⟨_, _, rfl, rfl⟩

/-- Spellings differ from one another. -/
theorem nodup_spellings : ((words ++ symbols).map Prod.fst).Nodup := by decide

/-- Two patterns for one text give it one kind: fixed spellings differ, and other patterns match
different texts. -/
theorem kind_eq_of_mem {pattern other : Pattern} (hpattern : pattern ∈ Pattern.table)
    (hother : other ∈ Pattern.table) (hfixed : pattern.isFixed = other.isFixed)
    (h : text ∈ pattern.language) (h' : text ∈ other.language) :
    pattern.kind text = other.kind text := by
  obtain ⟨c, cs, hcons, hstart⟩ := exists_start_of_mem hpattern h
  obtain ⟨d, ds, hcons', hstart'⟩ := exists_start_of_mem hother h'
  obtain ⟨rfl, rfl⟩ := List.cons.inj (hcons.symm.trans hcons')
  have hquote : isQuote c = true → isNameStart c = false := isNameStart_of_isQuote
  have hnumber : (c.isDigit || c = '.') = true → isNameStart c = false ∧ isQuote c = false := by
    rw [Bool.or_eq_true, decide_eq_true_eq]
    rintro (hdigit | rfl)
    · exact ⟨isNameStart_of_isDigit hdigit, isQuote_of_isDigit hdigit⟩
    · exact ⟨rfl, rfl⟩
  cases pattern <;> cases other
  case fixed.fixed spelling kind spelling' kind' =>
      have hspelling : spelling = spelling' := String.toList_inj.mp (h.symm.trans h')
      have hentry : (spelling, kind) ∈ words ++ symbols := by
        simpa [mem_table] using hpattern
      have hentry' : (spelling', kind') ∈ words ++ symbols := by
        simpa [mem_table] using hother
      have hsame := List.inj_on_of_nodup_map nodup_spellings hentry hentry' hspelling
      exact congrArg Prod.snd hsame
  case integer.float => exact absurd h' (not_mem_float_of_mem_integer h)
  case float.integer => exact absurd h (not_mem_float_of_mem_integer h')
  all_goals simp_all [Pattern.starts, Pattern.isFixed]

/-- At most one lexeme is the longest. -/
theorem IsLongest.unique {pattern other : Pattern} {lexeme' : Lexeme}
    (h : IsLongest pattern lexeme text) (h' : IsLongest other lexeme' text) : lexeme = lexeme' := by
  have hle := h'.longest pattern h.listed lexeme.text h.head h.matched
  have hge := h.longest other h'.listed lexeme'.text h'.head h'.matched
  have htext : lexeme.text = lexeme'.text :=
    (List.prefix_of_prefix_length_le h.head h'.head hle).eq_of_length (Nat.le_antisymm hle hge)
  have hfixed : pattern.isFixed = other.isFixed := by
    rw [Bool.eq_iff_iff]
    constructor
    · exact h'.fixedFirst pattern h.listed (htext ▸ h.matched)
    · exact h.fixedFirst other h'.listed (htext ▸ h'.matched)
  have hkind := kind_eq_of_mem h.listed h'.listed hfixed h.matched (htext ▸ h'.matched)
  rcases lexeme with ⟨text, kind⟩
  rcases lexeme' with ⟨text', kind'⟩
  obtain rfl : text = text' := htext
  have hkinds : kind = kind' := h.kind.trans (hkind.trans h'.kind.symm)
  rw [hkinds]

/-- The next lexeme of a text is the longest one of the table. -/
theorem next?_eq_some_iff :
    next? text = some lexeme ↔ ∃ pattern, IsLongest pattern lexeme text := by
  constructor
  · intro h
    obtain ⟨pattern, hfollows⟩ := exists_follows h
    exact ⟨pattern, hfollows.isLongest h⟩
  · rintro ⟨pattern, hlongest⟩
    obtain ⟨rest, hrest⟩ := hlongest.head
    obtain ⟨found, hfound, -⟩ := exists_next? hlongest.listed hlongest.matched rest
    rw [hrest] at hfound
    obtain ⟨other, hfollows⟩ := exists_follows hfound
    rw [hlongest.unique (hfollows.isLongest hfound)]
    exact hfound

/-- Where nothing is read, no pattern matches. -/
theorem next?_eq_none_iff :
    next? text = none ↔
      ∀ pattern ∈ Pattern.table, ∀ head, head <+: text → head ∉ pattern.language := by
  constructor
  · rintro h pattern hpattern head ⟨rest, rfl⟩ hmatch
    obtain ⟨found, hfound, -⟩ := exists_next? hpattern hmatch rest
    rw [h] at hfound
    cases hfound
  · intro h
    refine Option.eq_none_iff_forall_ne_some.mpr fun lexeme hlexeme => ?_
    obtain ⟨pattern, hlongest⟩ := next?_eq_some_iff.mp hlexeme
    exact h pattern hlongest.listed _ hlongest.head hlongest.matched

/-!
## Lexemes in other texts
-/

/-- A lexeme is still the longest when less text follows it. -/
theorem IsLongest.of_prefix {pattern : Pattern} {text' : List Char}
    (h : IsLongest pattern lexeme text) (hhead : lexeme.text <+: text') (htext : text' <+: text) :
    IsLongest pattern lexeme text' where
  listed := h.listed
  head := hhead
  matched := h.matched
  longest other hother head hstart := h.longest other hother head (hstart.trans htext)
  fixedFirst := h.fixedFirst
  kind := h.kind

/-- A string ends at the first quote that may close it. -/
theorem length_le_of_mem_quotedBy {quote : Char} (hquote : isQuote quote = true)
    {text longer : List Char} (h : text ∈ Pattern.quotedBy quote)
    (hlonger : longer ∈ Pattern.quotedBy quote) (hhead : text <+: longer) :
    longer.length ≤ text.length := by
  have hplain : quote ≠ '\\' := by
    rintro rfl
    cases hquote
  obtain ⟨body, rfl, hbody⟩ := stringBody?_of_mem_quotedBy hplain h
  obtain ⟨body', rfl, hbody'⟩ := stringBody?_of_mem_quotedBy hplain hlonger
  obtain ⟨rest, hrest⟩ := hhead
  have hinner : body ++ quote :: rest = body' ++ quote :: [] := by
    simpa using hrest
  have hsame := hbody rest
  rw [hinner, hbody'] at hsame
  cases hsame
  exact Nat.le_refl _

theorem isGap_of_isDigit {c : Char} (h : c.isDigit = true) : Token.isGap c = false :=
  eq_false_of_isDigit (by decide) h

theorem isGap_of_isNamePart {c : Char} (h : isNamePart c = true) : Token.isGap c = false := by
  refine Bool.eq_false_iff.mpr fun hgap => ?_
  simp only [Token.isGap, Bool.or_eq_true, decide_eq_true_eq] at hgap
  rcases hgap with (((rfl | rfl) | rfl) | rfl) | rfl <;> cases h

theorem isGap_of_mem_exponent {mark : List Char} (h : mark ∈ exponent) :
    ∀ c ∈ mark, Token.isGap c = false := by
  obtain ⟨m, signs, ds, rfl, hm, hsigns, hds⟩ := Pattern.mem_exponent.mp h
  rw [Bool.or_eq_true, decide_eq_true_eq, decide_eq_true_eq] at hm
  have hmark : Token.isGap m = false := by
    rcases hm with rfl | rfl <;> rfl
  have hsign : ∀ c ∈ signs, Token.isGap c = false := by
    rcases hsigns with rfl | ⟨s, hs, rfl⟩
    · exact List.forall_mem_nil _
    · rw [Bool.or_eq_true, decide_eq_true_eq, decide_eq_true_eq] at hs
      refine List.forall_mem_singleton.mpr ?_
      rcases hs with rfl | rfl <;> rfl
  have hdigits : ∀ c ∈ ds, Token.isGap c = false := fun c hc =>
    isGap_of_isDigit ((Pattern.mem_digits.mp hds).2 c hc)
  exact List.forall_mem_cons.mpr ⟨hmark, List.forall_mem_append.mpr ⟨hsign, hdigits⟩⟩

theorem isGap_of_mem_float (h : text ∈ Pattern.float.language) :
    ∀ c ∈ text, Token.isGap c = false := by
  rcases Pattern.mem_float.mp h with ⟨whole, fraction, mark, rfl, hwhole, hfraction, -, hmark⟩ |
    ⟨whole, mark, rfl, hwhole, hmark⟩
  · have hafter : ∀ c ∈ mark, Token.isGap c = false := by
      rcases hmark with rfl | hmark
      · exact List.forall_mem_nil _
      · exact isGap_of_mem_exponent hmark
    refine List.forall_mem_append.mpr ⟨fun c hc => isGap_of_isDigit (hwhole c hc), ?_⟩
    refine List.forall_mem_cons.mpr ⟨rfl, ?_⟩
    exact List.forall_mem_append.mpr ⟨fun c hc => isGap_of_isDigit (hfraction c hc), hafter⟩
  · refine List.forall_mem_append.mpr ⟨fun c hc => ?_, isGap_of_mem_exponent hmark⟩
    exact isGap_of_isDigit ((Pattern.mem_digits.mp hwhole).2 c hc)

/-- Only a string has blank characters in it. -/
theorem isGap_of_mem {pattern : Pattern} (hlisted : pattern ∈ Pattern.table)
    (h : text ∈ pattern.language) (hplain : pattern ≠ .string) :
    ∀ c ∈ text, Token.isGap c = false := by
  intro c hc
  rcases mem_table.mp hlisted with ⟨entry, hentry, rfl⟩ | rfl | rfl | rfl | rfl
  · obtain rfl : text = entry.1.toList := h
    have hspellings : (words ++ symbols).all fun entry =>
        entry.1.toList.all fun c => !Token.isGap c := by decide
    have hspelling := List.all_eq_true.mp hspellings entry hentry
    exact Bool.not_eq_true' _ ▸ List.all_eq_true.mp hspelling c hc
  · exact isGap_of_isDigit ((Pattern.mem_digits.mp h).2 c hc)
  · exact isGap_of_mem_float h c hc
  · exact absurd rfl hplain
  · obtain ⟨d, ds, rfl, hd, hds⟩ := Pattern.mem_name.mp h
    have hparts : ∀ c ∈ d :: ds, isNamePart c = true :=
      List.forall_mem_cons.mpr ⟨isNamePart_of_isNameStart hd, hds⟩
    exact isGap_of_isNamePart (hparts c hc)

/-- What begins a string is a string itself. -/
theorem exists_quote_of_prefix {pattern : Pattern} (hlisted : pattern ∈ Pattern.table)
    (h : text ∈ pattern.language) {longer : List Char}
    (hlonger : longer ∈ Pattern.string.language) (hhead : text <+: longer) :
    ∃ quote, isQuote quote = true ∧ text ∈ Pattern.quotedBy quote ∧
      longer ∈ Pattern.quotedBy quote := by
  have hquoted : ∃ quote cs, isQuote quote = true ∧ longer = quote :: cs ∧
      longer ∈ Pattern.quotedBy quote := by
    rcases hlonger with hlonger | hlonger
    · obtain ⟨body, hbody, -⟩ := stringBody?_of_mem_quotedBy (by decide) hlonger
      exact ⟨'"', _, rfl, hbody, hlonger⟩
    · obtain ⟨body, hbody, -⟩ := stringBody?_of_mem_quotedBy (by decide) hlonger
      exact ⟨'\'', _, rfl, hbody, hlonger⟩
  obtain ⟨quote, cs, hquote, rfl, hmem⟩ := hquoted
  refine ⟨quote, hquote, ?_, hmem⟩
  cases head_of_mem hlisted h with
  | name hstart =>
      obtain ⟨rfl, -⟩ := List.cons_prefix_cons.mp hhead
      rw [isNameStart_of_isQuote hquote] at hstart
      cases hstart
  | string _ hstring =>
      obtain ⟨rfl, -⟩ := List.cons_prefix_cons.mp hhead
      exact hstring
  | number hnumber =>
      obtain ⟨rfl, -⟩ := List.cons_prefix_cons.mp hhead
      rcases hnumber with hdigit | ⟨rfl, -⟩
      · rw [isQuote_of_isDigit hdigit] at hquote
        cases hquote
      · cases hquote
  | symbol _ hplain =>
      obtain ⟨rfl, -⟩ := List.cons_prefix_cons.mp hhead
      rw [hplain] at hquote
      cases hquote

/-- A lexeme is still the longest when a blank follows it. -/
theorem IsLongest.before_gap {pattern : Pattern} {c : Char} (h : IsLongest pattern lexeme text)
    (hc : Token.isGap c = true) (rest : List Char) :
    IsLongest pattern lexeme (lexeme.text ++ c :: rest) where
  listed := h.listed
  head := List.prefix_append _ _
  matched := h.matched
  fixedFirst := h.fixedFirst
  kind := h.kind
  longest := by
    intro other hother head hhead hmatch
    by_contra hlong
    have hlonger : lexeme.text ++ [c] <+: head := by
      have hblank : lexeme.text ++ [c] <+: lexeme.text ++ c :: rest :=
        (List.prefix_append_right_inj _).mpr (List.prefix_append [c] rest)
      refine List.prefix_of_prefix_length_le hblank hhead ?_
      rw [List.length_append, List.length_singleton]
      lia
    have hmem : c ∈ head := hlonger.subset (by simp)
    by_cases hstring : other = .string
    · subst hstring
      have hbegins : lexeme.text <+: head := (List.prefix_append _ _).trans hlonger
      obtain ⟨quote, hquote, htext, hquoted⟩ :=
        exists_quote_of_prefix h.listed h.matched hmatch hbegins
      exact hlong (length_le_of_mem_quotedBy hquote htext hquoted hbegins)
    · rw [isGap_of_mem hother hmatch hstring c hmem] at hc
      cases hc

end Lexeme
end ExprLang
