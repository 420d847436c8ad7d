import ExprLang.Proofs.Number.Rounding
import ExprLang.Proofs.Source.IntegerLiterals
import ExprLang.Proofs.Template.Meaning
import ExprLang.Proofs.Token.Longest

/-!
# Parsed trees

Every tree that parsing answers is well formed down to its leaves.  Its literals and names are ones
that the lexer reads, it has no node of a template, and a qualified name is called in it.  The tokens
bring the first of these, and the lookahead behind a qualified name the last.
-/

namespace ExprLang

open Grammar

/-!
## Well-formed nodes
-/

/-- The decimal digits of a number that no integer of 64 bits is. -/
def IsLarge (digits : String) : Prop :=
  ∃ n : Nat, 2 ^ 63 ≤ n ∧ digits = String.ofList (natDigits n)

/-- Two names with the one colon of the text between them. -/
def IsQualified (name : String) : Prop :=
  name.toList.count ':' = 1 ∧
    ∃ space inner, Lexeme.isName space ∧ Lexeme.isName inner ∧ name = space ++ ":" ++ inner

/-- The place of an expression in the one around it. -/
inductive Role
  /-- What a call calls. -/
  | callee
  | other

namespace Expr

/-- The expressions that an expression is built from, each with its place. -/
def places : Expr → List (Role × Expr)
  | call callee args => (.callee, callee) :: args.map (.other, ·)
  | e => e.parts.map (.other, ·)

/-- The expression stands in the first one, at any depth, in a place of this kind. -/
inductive OccursAs (root : Expr) : Role → Expr → Prop
  | self : OccursAs root .other root
  | place {role role' : Role} {e part : Expr} :
      OccursAs root role e → (role', part) ∈ e.places → OccursAs root role' part

/-- What is right about an expression in its place, whatever it is built from. -/
def Sound (role : Role) : Expr → Prop
  | int n => 0 ≤ n
  | bigInt digits => IsLarge digits
  | float x => ¬ x.isNaN ∧ ¬ x.isNegative
  | ident name =>
    if ':' ∈ name.toList then role = .callee ∧ IsQualified name else Lexeme.isName name
  | member _ name => Lexeme.isName name
  | lambda params _ => ∀ param ∈ params, Lexeme.isName param
  | map entries => entries ≠ []
  | _ => True

/-- Everything in the expression is sound in its place. -/
inductive WellFormed : Role → Expr → Prop
  | node {role : Role} {e : Expr} :
      e.Sound role → (∀ place ∈ e.places, WellFormed place.1 place.2) → WellFormed role e

variable {role : Role} {e : Expr}

theorem WellFormed.sound (h : WellFormed role e) : e.Sound role := by
  cases h with
  | node hsound => exact hsound

theorem WellFormed.occursAs {root part : Expr} (h : WellFormed .other root)
    (hpart : OccursAs root role part) : WellFormed role part := by
  induction hpart with
  | self => exact h
  | place _ hmem ih =>
      cases ih with
      | node _ hplaces => exact hplaces _ hmem

/-- What stands in an expression has a place there. -/
theorem Occurs.exists_occursAs {root part : Expr} (h : Occurs part e)
    (he : OccursAs root role e) : ∃ role, OccursAs root role part := by
  induction h generalizing role with
  | self => exact ⟨role, he⟩
  | @part inner whole hinner _ ih =>
      have hplace : ∃ role', (role', inner) ∈ whole.places := by
        cases whole with
        | call callee args =>
            rcases List.mem_cons.mp hinner with rfl | harg
            · exact ⟨.callee, List.mem_cons_self⟩
            · exact ⟨.other, List.mem_cons_of_mem _ (List.mem_map_of_mem harg)⟩
        | _ => exact ⟨.other, List.mem_map_of_mem hinner⟩
      obtain ⟨role', hmem⟩ := hplace
      exact ih (.place he hmem)

/-- A tree that is well formed where it may not be a qualified name is so in every place. -/
theorem WellFormed.anywhere (h : WellFormed .other e) : WellFormed role e := by
  obtain ⟨hsound, hplaces⟩ := h
  refine .node ?_ hplaces
  cases e with
  | ident name =>
      simp only [Sound] at hsound ⊢
      split at hsound
      · cases hsound.1
      · rename_i hcolon
        rwa [if_neg hcolon]
  | _ => exact hsound

end Expr

/-!
## Tokens

A token carries the data of the leaf or of the name that it becomes.
-/

/-- What is right about a token. -/
def TokenKind.Sound : TokenKind → Prop
  | .int n => 0 ≤ n
  | .bigInt digits => IsLarge digits
  | .float x => ¬ x.isNaN ∧ ¬ x.isNegative
  | .ident name => Lexeme.isName name
  | _ => True

namespace Lexeme

theorem sound_of_mem {entry : String × TokenKind} (h : entry ∈ words ++ symbols) :
    entry.2.Sound := by
  have hall : ∀ entry ∈ words ++ symbols, entry.2.Sound := by
    simp [words, symbols, TokenKind.Sound]
  exact hall entry h

theorem integer_sound {digits : List Char} (hdigits : ∀ c ∈ digits, c.isDigit = true) :
    (integer digits).kind.Sound := by
  rcases Nat.lt_or_ge (digitsValue digits) (2 ^ 63) with hsmall | hlarge
  · rw [integer_of_lt hsmall]
    change 0 ≤ Int64.ofNat (digitsValue digits)
    rw [Int64.le_iff_toInt_le, Int64.toInt_ofNat_of_lt hsmall]
    exact Int.natCast_nonneg _
  · rw [integer_of_le hdigits hlarge]
    exact ⟨_, hlarge, rfl⟩

theorem isName_of_mem {text : List Char} (h : text ∈ Pattern.name.language)
    (hunspelt : ∀ entry ∈ words ++ symbols, text ≠ entry.1.toList) :
    isName (String.ofList text) := by
  obtain ⟨c, cs, rfl, hstart, hparts⟩ := Pattern.mem_name.mp h
  have hlookup : words.lookup (String.ofList (c :: cs)) = none := by
    refine List.lookup_eq_none_iff.mpr fun entry hentry => ?_
    refine bne_iff_ne.mpr fun heq => hunspelt entry (List.mem_append_left _ hentry) ?_
    rw [← heq, String.toList_ofList]
  rw [isName, String.toList_ofList]
  simp only [hstart, List.all_eq_true.mpr hparts, hlookup]
  rfl

theorem next?_sound {text : List Char} {lexeme : Lexeme} (h : next? text = some lexeme) :
    lexeme.kind.Sound := by
  obtain ⟨pattern, hlisted, hmatched, hkind, hunspelt⟩ := exists_follows h
  rw [hkind]
  rcases mem_table.mp hlisted with ⟨entry, hentry, rfl⟩ | rfl | rfl | rfl | rfl
  · exact sound_of_mem hentry
  · exact integer_sound (Pattern.mem_digits.mp hmatched).2
  · obtain ⟨hnan, hsign⟩ :=
      Binary.ofDecimal_isNaN_isNegative (f := .double) (by decide) _ _
    exact ⟨Bool.eq_false_iff.mp hnan, Bool.eq_false_iff.mp hsign⟩
  · exact trivial
  · exact isName_of_mem hmatched (hunspelt rfl)

end Lexeme

theorem Token.sound_of_listFrom {braces : Option Nat} {offset : Nat} {text : List Char}
    {tokens : List Token} {ending : Option (List Char × Nat)}
    (h : Token.listFrom braces offset text = .ok (tokens, ending)) :
    ∀ token ∈ tokens, token.kind.Sound := by
  fun_induction Token.listFrom braces offset text generalizing tokens ending with
  | case1 =>
      cases h
      simp [TokenKind.Sound]
  | case2 _ _ _ _ _ ih => exact ih h
  | case3 => cases h
  | case4 =>
      cases h
      simp [TokenKind.Sound]
  | case5 _ _ _ _ _ lexeme hlexeme _ ih =>
      obtain ⟨inner, hinner, rfl⟩ := Token.exists_inner h
      exact List.forall_mem_cons.mpr ⟨Lexeme.next?_sound hlexeme, ih hinner⟩

theorem Token.sound_of_list {text : List Char} {tokens : List Token}
    (h : Token.list text = .ok tokens) : ∀ token ∈ tokens, token.kind.Sound := by
  cases hfrom : Token.listFrom none 0 text with
  | error error =>
      rw [Token.list, hfrom] at h
      cases h
  | ok read =>
      rw [Token.list, hfrom] at h
      cases h
      exact sound_of_listFrom hfrom

/-!
## Derivations
-/

namespace Grammar

variable {ts mid rest : List Token}

/-- No list of arguments begins here. -/
def NoArgs (rest : List Token) : Prop := (head rest).kind ≠ .lparen

theorem noArgs_cons {kind : TokenKind} (span : Span) (rest : List Token) (h : kind ≠ .lparen) :
    NoArgs (⟨kind, span⟩ :: rest) := h

/-- The trees of a phrase are well formed.  A value may be a qualified name in front of its
arguments, and so may be each phrase that ends with a value. -/
def Phrase.Forms (rest : List Token) : Phrase → Prop
  | .value e | .primary e =>
    Expr.WellFormed .callee e ∧ (NoArgs rest → Expr.WellFormed .other e)
  | .sequence e | .assignment e | .choice e | .joined _ e | .operand _ e | .unary e =>
    NoArgs rest → Expr.WellFormed .other e
  | .items es => NoArgs rest → ∀ e ∈ es, Expr.WellFormed .other e
  | .enclosed _ es => ∀ e ∈ es, Expr.WellFormed .other e
  | .entries es =>
    es ≠ [] ∧ (NoArgs rest → ∀ e ∈ (Phrase.entries es).trees, Expr.WellFormed .other e)

/-- A value that is no qualified name is well formed whatever follows it. -/
theorem Phrase.Forms.of_other {e : Expr} (h : Expr.WellFormed .other e) :
    Phrase.Forms rest (.value e) := ⟨h.anywhere, fun _ => h⟩

theorem Leaves.subset (h : Leaves ts rest) : rest ⊆ ts := by
  induction h with
  | refl => exact List.Subset.refl _
  | step _ _ ih => exact List.subset_cons_of_subset _ ih

/-- All tokens carry sound data. -/
def AllSound (tokens : List Token) : Prop := ∀ token ∈ tokens, token.kind.Sound

theorem AllSound.leaves (h : AllSound ts) (hleaves : Leaves ts rest) : AllSound rest :=
  fun token htoken => h token (hleaves.subset htoken)

theorem AllSound.tail {token : Token} (h : AllSound (token :: ts)) : AllSound ts :=
  fun other hother => h other (List.mem_cons_of_mem _ hother)

theorem AllSound.after {phrase : Phrase} {token : Token} (h : AllSound ts)
    (hderives : Derives phrase ts (token :: mid)) : AllSound mid :=
  (h.leaves hderives.leaves).tail

theorem LambdaNames.isName {xs : List String} (h : LambdaNames xs ts rest) (hts : AllSound ts) :
    ∀ x ∈ xs, Lexeme.isName x := by
  induction h with
  | last => exact List.forall_mem_singleton.mpr (hts _ List.mem_cons_self)
  | more _ ih =>
      exact List.forall_mem_cons.mpr ⟨hts _ List.mem_cons_self, ih hts.tail.tail⟩

theorem LambdaHead.isName {xs : List String} (h : LambdaHead xs ts rest) (hts : AllSound ts) :
    ∀ x ∈ xs, Lexeme.isName x := by
  cases h with
  | one => exact List.forall_mem_singleton.mpr (hts _ List.mem_cons_self)
  | none => simp
  | names hnames => exact hnames.isName hts.tail

theorem Denotes.wellFormed {kind : TokenKind} {e : Expr} (h : Denotes kind e) (hkind : kind.Sound)
    (role : Role) : Expr.WellFormed role e := by
  cases h <;> exact .node hkind (by simp [Expr.places, Expr.parts])

theorem Joins.noArgs {level : Level} {kind : TokenKind} {apply : Expr → Expr → Expr}
    (h : Joins level kind apply) : kind ≠ .lparen := by
  cases h <;> decide

theorem Joins.wellFormed {level : Level} {kind : TokenKind} {apply : Expr → Expr → Expr}
    (h : Joins level kind apply) {left right : Expr} (hleft : Expr.WellFormed .other left)
    (hright : Expr.WellFormed .other right) : Expr.WellFormed .other (apply left right) := by
  cases h <;> exact .node trivial (by simp [Expr.places, Expr.parts, hleft, hright])

theorem Bracket.noArgs (bracket : Bracket) : bracket.close ≠ .lparen := by
  cases bracket <;> decide

end Grammar

theorem Lexeme.colon_notMem_of_isName {name : String} (h : isName name) :
    ':' ∉ name.toList := by
  unfold isName at h
  split at h
  · cases h
  · rename_i c cs hlist
    simp only [Bool.and_eq_true, List.all_eq_true] at h
    rw [hlist]
    intro hmem
    rcases List.mem_cons.mp hmem with heq | hmem
    · have hstart := h.1.1
      rw [← heq] at hstart
      cases hstart
    · cases h.1.2 ':' hmem

theorem Expr.wellFormed_name {name : String} (h : Lexeme.isName name) :
    WellFormed .other (.ident name) :=
  .node (by rwa [Sound, if_neg (Lexeme.colon_notMem_of_isName h)]) (by simp [places, parts])

theorem Expr.wellFormed_qualified {space inner : String} (hspace : Lexeme.isName space)
    (hinner : Lexeme.isName inner) : WellFormed .callee (.ident (space ++ ":" ++ inner)) := by
  have hcount : (space ++ ":" ++ inner).toList.count ':' = 1 := by
    simp [List.count_eq_zero.mpr (Lexeme.colon_notMem_of_isName hspace),
      List.count_eq_zero.mpr (Lexeme.colon_notMem_of_isName hinner)]
  have hmem : ':' ∈ (space ++ ":" ++ inner).toList := List.count_pos_iff.mp (by lia)
  refine .node ?_ (by simp [places, parts])
  rw [Sound, if_pos hmem]
  exact ⟨rfl, hcount, space, inner, hspace, hinner, rfl⟩

theorem Grammar.Derives.forms {phrase : Phrase} {ts rest : List Token}
    (h : Derives phrase ts rest) (hts : AllSound ts) : phrase.Forms rest := by
  induction h with
  | sequenceOne _ ih | assignmentOne _ ih | choiceOne _ ih | joinedOne _ ih
  | operandJoined _ _ ih | operandUnary _ ih | valueOne _ ih => exact ih hts
  | unaryValue _ ih => exact (ih hts).2
  | sequenceMore hleft _ ihl ihr | assign hleft _ ihl ihr =>
      intro hrest
      have hleft' := ihl hts (noArgs_cons _ _ (by decide))
      have hright' := ihr (hts.after hleft) hrest
      exact .node trivial (by simp [Expr.places, Expr.parts, hleft', hright'])
  | lambda hhead _ ih =>
      intro hrest
      have hbody := ih (hts.leaves hhead.leaves) hrest
      exact .node (hhead.isName hts) (by simpa [Expr.places, Expr.parts] using hbody)
  | ternary hcondition hyes _ ihc ihy ihn =>
      intro hrest
      have hafter := hts.after hcondition
      have hc := ihc hts (noArgs_cons _ _ (by decide))
      have hy := ihy hafter (noArgs_cons _ _ (by decide))
      have hn := ihn (hafter.after hyes) hrest
      exact .node trivial (by simp [Expr.places, Expr.parts, hc, hy, hn])
  | joinedMore hleft hjoins _ ihl ihr =>
      intro hrest
      exact hjoins.wellFormed (ihl hts (noArgs_cons _ _ hjoins.noArgs))
        (ihr (hts.after hleft) hrest)
  | unaryPrefix _ _ ih =>
      intro hrest
      have hoperand := ih hts.tail hrest
      exact .node trivial (by simpa [Expr.places, Expr.parts] using hoperand)
  | member hobject ih =>
      have hname : Lexeme.isName _ := hts.after hobject _ List.mem_cons_self
      have hobject' := (ih hts).2 (noArgs_cons _ _ (by decide))
      exact .of_other (.node hname (by simpa [Expr.places, Expr.parts] using hobject'))
  | index hobject _ iho ihk =>
      have hobject' := (iho hts).2 (noArgs_cons _ _ (by decide))
      have hkey := ihk (hts.after hobject) (noArgs_cons _ _ (by decide))
      exact .of_other (.node trivial (by simp [Expr.places, Expr.parts, hobject', hkey]))
  | call hcallee _ ihc iha =>
      have hcallee' := (ihc hts).1
      have hargs := iha (hts.after hcallee)
      exact .of_other
        (.node trivial (List.forall_mem_cons.mpr ⟨hcallee', List.forall_mem_map.mpr hargs⟩))
  | literal hdenotes => exact .of_other (hdenotes.wellFormed (hts _ List.mem_cons_self) _)
  | name => exact .of_other (Expr.wellFormed_name (hts _ List.mem_cons_self))
  | qualified hqualifies =>
      have hspace := hts _ List.mem_cons_self
      cases hqualifies with
      | touching =>
          have hinner := hts.tail.tail _ List.mem_cons_self
          exact ⟨Expr.wellFormed_qualified hspace hinner, fun hrest => absurd rfl hrest⟩
  | group _ ih => exact .of_other (ih hts.tail (noArgs_cons _ _ (by decide)))
  | list _ ih | set _ ih =>
      exact .of_other (.node trivial (List.forall_mem_map.mpr (ih hts.tail)))
  | map _ ih =>
      obtain ⟨hne, hentries⟩ := ih hts.tail
      exact .of_other
        (.node hne (List.forall_mem_map.mpr (hentries (noArgs_cons _ _ (by decide)))))
  | itemsOne _ ih => exact fun hrest => List.forall_mem_singleton.mpr (ih hts hrest)
  | itemsMore hitem _ ihi ihs =>
      intro hrest
      have hitem' := ihi hts (noArgs_cons _ _ (by decide))
      exact List.forall_mem_cons.mpr ⟨hitem', ihs (hts.after hitem) hrest⟩
  | enclosedNone => exact fun e he => absurd he List.not_mem_nil
  | enclosedItems bracket _ ih => exact ih hts (noArgs_cons _ _ bracket.noArgs)
  | @entriesOne key value _ _ _ _ hkey _ ihk ihv =>
      refine ⟨List.cons_ne_nil _ _, fun hrest => ?_⟩
      have hkey' := ihk hts (noArgs_cons _ _ (by decide))
      have hvalue' := ihv (hts.after hkey) hrest
      change ∀ e ∈ [key, value], Expr.WellFormed .other e
      simp [hkey', hvalue']
  | @entriesMore key value es _ _ _ _ _ _ hkey hvalue _ ihk ihv ihes =>
      refine ⟨List.cons_ne_nil _ _, fun hrest => ?_⟩
      have hafter := hts.after hkey
      have hkey' := ihk hts (noArgs_cons _ _ (by decide))
      have hvalue' := ihv hafter (noArgs_cons _ _ (by decide))
      have hes := (ihes (hafter.after hvalue)).2 hrest
      change ∀ e ∈ key :: value :: (Phrase.entries es).trees, Expr.WellFormed .other e
      exact List.forall_mem_cons.mpr ⟨hkey', List.forall_mem_cons.mpr ⟨hvalue', hes⟩⟩

theorem Expr.exists_tokens {source : String} {e : Expr} (h : parse source = .ok e) :
    ∃ tokens, Token.list source.toList = .ok tokens ∧ ofTokens tokens = .ok e := by
  cases hlist : Token.list source.toList with
  | error error =>
      rw [parse, hlist] at h
      cases h
  | ok tokens =>
      rw [parse, hlist] at h
      exact ⟨tokens, rfl, h⟩

theorem Expr.wellFormed_of_parse {source : String} {e : Expr} (h : parse source = .ok e) :
    WellFormed .other e := by
  obtain ⟨tokens, hlist, htree⟩ := exists_tokens h
  obtain ⟨last, hlast, hderives⟩ := spells_of_ofTokens (terminated_of_list hlist) htree
  have heof : NoArgs [last] := by
    change last.kind ≠ .lparen
    rw [hlast]
    decide
  exact hderives.forms (Token.sound_of_list hlist) heof

/-- Whatever a text is parsed as, no segment of a template is in it, and everything in it is sound
in its place: numbers have no sign, a map has an entry, and a name is one that is no word, except
that a call may call a name of a namespace.  An integer literal of more than 64 bits has a value in
every context. -/
theorem Expr.parse_sound {source : String} {e : Expr} (h : parse source = .ok e) :
    e.Undelimited ∧ (∀ role part, e.OccursAs role part → part.Sound role) ∧
      ∀ digits, Occurs (.bigInt digits) e → ∃ n : Nat, 2 ^ 63 ≤ n ∧
        digits = String.ofList (natDigits n) ∧
        ∀ (context : Context) (world : World),
          context.eval (.bigInt digits) world = .ok (.bigInteger n) world := by
  have hsound : ∀ role part, e.OccursAs role part → part.Sound role :=
    fun role part hpart => ((wellFormed_of_parse h).occursAs hpart).sound
  obtain ⟨tokens, hlist, htree⟩ := exists_tokens h
  refine ⟨undelimited_of_ofTokens (terminated_of_list hlist) htree, hsound, ?_⟩
  intro digits hoccurs
  obtain ⟨role, hpart⟩ := hoccurs.exists_occursAs .self
  obtain ⟨n, hlarge, rfl⟩ := hsound role _ hpart
  exact ⟨n, hlarge, rfl, fun context world => Evaluation.bigLiteral_natDigits n world⟩

/-- A call of a qualified name, and the least literal that no integer of 64 bits is, behind a zero. -/
theorem Expr.parse_sound_call :
    let e : Expr := .call (.ident "n:f") [.map [(.ident "a", .ident "b")]]
    (parse "n:f(\x7ba:b\x7d)" = .ok e ∧ e.OccursAs .callee (.ident "n:f") ∧
      (Expr.ident "n:f").Sound .callee) ∧
    parse "09223372036854775808" = .ok (.bigInt (String.ofList (natDigits (2 ^ 63)))) ∧
      ∃ n : Nat, 2 ^ 63 ≤ n ∧ String.ofList (natDigits (2 ^ 63)) = String.ofList (natDigits n) ∧
        ∀ (context : Context) (world : World),
          context.eval (.bigInt (String.ofList (natDigits (2 ^ 63)))) world =
            .ok (.bigInteger n) world := by
  intro e
  have hcall : parse "n:f(\x7ba:b\x7d)" = .ok e := by cbv
  have hcallee : e.OccursAs .callee (.ident "n:f") := .place .self List.mem_cons_self
  have hdigits : IsDigits "09223372036854775808".toList := ⟨by simp, by simp⟩
  have hliteral : parse "09223372036854775808" =
      .ok (.bigInt (String.ofList (natDigits (2 ^ 63)))) := parse_signed false hdigits
  exact ⟨⟨hcall, hcallee, (parse_sound hcall).2.1 _ _ hcallee⟩, hliteral,
    (parse_sound hliteral).2.2 _ .self⟩

end ExprLang
