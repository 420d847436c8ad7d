import ExprLang.Proofs.Grammar.Readers
import ExprLang.Proofs.Grammar.Syntax

/-!
# Readers derive what they read

What a reader answers is derivable from the tokens it took.  The functions that look a token up
answer exactly as the tables of the grammar say, so each reader follows the rules of its level.
-/

namespace ExprLang
namespace Grammar

/-!
## Tables and names
-/

theorem encloses_iff {level inner : Level} :
    Encloses level inner ↔ level.tighter = some inner := by
  constructor
  · intro h
    cases h <;> rfl
  · intro h
    cases level <;> cases h <;> constructor

theorem multiplicative_of_tighter {level : Level} (h : level.tighter = none) :
    level = .multiplicative := by
  cases level <;> cases h
  rfl

theorem joins_iff {level : Level} {kind : TokenKind} {apply : Expr → Expr → Expr} :
    Joins level kind apply ↔ level.operator? kind = some apply := by
  constructor
  · intro h
    cases h <;> rfl
  · intro h
    cases level <;> cases kind <;> cases h <;> constructor

theorem prefixes_iff {kind : TokenKind} {op : UnaryOp} :
    Prefixes kind op ↔ unaryOp? kind = some op := by
  constructor
  · intro h
    cases h <;> rfl
  · intro h
    cases kind <;> cases h <;> constructor

theorem denotes_iff {kind : TokenKind} {e : Expr} :
    Denotes kind e ↔ literal? kind = some e := by
  constructor
  · intro h
    cases h <;> rfl
  · intro h
    cases kind <;> cases h <;> constructor

theorem LambdaNames.shorter {xs : List String} {ts rest : List Token}
    (h : LambdaNames xs ts rest) : rest.length < ts.length := by
  induction h with
  | last => simp only [List.length_cons]; lia
  | more _ ih => simp only [List.length_cons]; lia

theorem lambdaNames_iff {xs : List String} {ts rest : List Token} :
    LambdaNames xs ts rest ↔ ∃ shorter, lambdaNames? ts = some ⟨xs, rest, shorter⟩ := by
  constructor
  · intro h
    refine ⟨h.shorter, ?_⟩
    induction h with
    | last => rw [lambdaNames?]
    | more _ ih => rw [lambdaNames?, ih]
  · intro hread
    rcases hread with ⟨shorter, h⟩
    fun_induction lambdaNames? ts generalizing xs rest with
    | case1 =>
        cases h
        exact .last
    | case2 _ _ _ _ _ _ _ hnames ih =>
        cases h
        exact .more (ih _ hnames)
    | case3 | case4 => cases h

theorem lambdaHead_iff {xs : List String} {ts rest : List Token} :
    LambdaHead xs ts rest ↔ ∃ shorter, lambdaHead? ts = some ⟨xs, rest, shorter⟩ := by
  constructor
  · intro h
    cases h with
    | one => exact ⟨_, by rw [lambdaHead?]⟩
    | none => exact ⟨_, by rw [lambdaHead?]⟩
    | names hnames =>
        rcases lambdaNames_iff.mp hnames with ⟨shorter, heq⟩
        refine ⟨Nat.lt_succ_of_lt shorter, ?_⟩
        rw [lambdaHead?, heq]
        intro close arrow after heq
        subst heq
        cases hnames
  · intro hread
    rcases hread with ⟨shorter, h⟩
    unfold lambdaHead? at h
    split at h
    · cases h
      exact .one
    · cases h
      exact .none
    · split at h
      · rename_i hnames
        cases h
        exact .names (lambdaNames_iff.mpr ⟨_, hnames⟩)
      · cases h
    · cases h

/-- A name is qualified, or it is read by itself. -/
theorem name_cases (x : String) (span : Span) (ts : List Token) :
    (∃ second after, Qualifies span second ts after ∧
        (name x span ts).value = .ident (x ++ ":" ++ second) ∧ (name x span ts).rest = after) ∨
      ((∀ second after, ¬ Qualifies span second ts after) ∧
        (name x span ts).value = .ident x ∧ (name x span ts).rest = ts) := by
  unfold name
  split
  · rename_i colon second inner paren after
    split
    · rename_i htouch
      simp only [adjacent, Bool.and_eq_true, decide_eq_true_eq] at htouch
      exact Or.inl ⟨second, _, .touching htouch.1 htouch.2, rfl, rfl⟩
    · rename_i htouch
      simp only [adjacent, Bool.and_eq_true, decide_eq_true_eq] at htouch
      refine Or.inr ⟨?_, rfl, rfl⟩
      intro second' after' h
      cases h with
      | touching hcolon hinner => exact htouch ⟨hcolon, hinner⟩
  · rename_i hshape
    refine Or.inr ⟨?_, rfl, rfl⟩
    intro second after h
    cases h with
    | touching => exact hshape _ _ _ _ _ rfl

theorem name_leaves (x : String) (span : Span) (ts : List Token) :
    Leaves ts (name x span ts).rest := by
  rcases name_cases x span ts with ⟨second, after, hqualifies, -, hrest⟩ | ⟨-, -, hrest⟩
  · rw [hrest]
    exact hqualifies.leaves
  · rw [hrest]
    exact .refl

/-- A name is qualified by the same tokens when a function of the token list keeps them in place. -/
theorem name_related (x : String) {span span' : Span} {ts ts' : List Token}
    {f : List Token → List Token}
    (hqualifies : ∀ second rest, Qualifies span' second ts' rest ↔
      ∃ after, rest = f after ∧ Qualifies span second ts after) (hts : ts' = f ts) :
    (name x span' ts').value = (name x span ts).value ∧
      (name x span' ts').rest = f (name x span ts).rest := by
  rcases name_cases x span ts with ⟨second, after, hsecond, hvalue, hrest⟩ | ⟨hplain, hvalue, hrest⟩
  · have hmatch := (hqualifies _ _).mpr ⟨after, rfl, hsecond⟩
    rcases name_cases x span' ts' with ⟨second', after', hsecond', hvalue', hrest'⟩ | ⟨hplain', -⟩
    · rcases hsecond'.unique hmatch with ⟨rfl, rfl⟩
      rw [hvalue, hrest, hvalue', hrest']
      exact ⟨rfl, rfl⟩
    · exact absurd hmatch (hplain' _ _)
  · rcases name_cases x span' ts' with ⟨second, after, hsecond, -⟩ | ⟨-, hvalue', hrest'⟩
    · rcases (hqualifies _ _).mp hsecond with ⟨after, -, hmatch⟩
      exact absurd hmatch (hplain _ _)
    · rw [hvalue, hrest, hvalue', hrest', hts]
      exact ⟨rfl, rfl⟩

/-!
## Readers

Every reader calls itself only on fewer tokens, so one induction on their number covers all of
them.  Within a step the levels follow one another from the tightest to the loosest, and the
rest of a repetition extends a derivation of what stands before it.
-/

/-- The reader of a phrase reads it. -/
def Phrase.Read : Phrase → List Token → List Token → Prop
  | .sequence e, ts, rest => Reads (Grammar.sequence ts) e rest
  | .assignment e, ts, rest => Reads (Grammar.assignment ts) e rest
  | .choice e, ts, rest => Reads (Grammar.choice ts) e rest
  | .joined level e, ts, rest => Reads (binaryAt level ts) e rest
  | .operand level e, ts, rest => Reads (operandOf level ts) e rest
  | .unary e, ts, rest => Reads (Grammar.unary ts) e rest
  | .value e, ts, rest => Reads (Grammar.value ts) e rest
  | .primary e, ts, rest => Reads (Grammar.primary ts) e rest
  | .items es, ts, rest => Reads (itemList ts) es rest
  | .enclosed bracket es, ts, rest => Reads (itemsUntil bracket.close ts) es rest
  | .entries es, ts, rest =>
    ∃ key colon after value mid more,
      Reads (Grammar.assignment ts) key (⟨.colon, colon⟩ :: after) ∧
        Reads (Grammar.assignment after) value mid ∧ Reads (entryTail mid) more rest ∧
        es = (key, value) :: more

/-- What is read from fewer than `n` tokens is derivable. -/
def SoundBelow (n : Nat) : Prop :=
  ∀ (phrase : Phrase) {ts rest : List Token},
    ts.length < n → phrase.Read ts rest → Derives phrase ts rest

section Step

variable {n : Nat} {ts mid rest : List Token} {e : Expr}

theorem setOrMap_sound {brace : Span} (sound : SoundBelow n) (hts : ts.length < n)
    (h : Reads (setOrMap ts) e rest) : Derives (.primary e) (⟨.lbrace, brace⟩ :: ts) rest := by
  rcases head_kind_eq_or .rbrace (by decide) ts with ⟨span, after, rfl⟩ | hne
  · rcases reads_setOrMap_empty.mp h with ⟨rfl, rfl⟩
    exact .set (.enclosedNone .brace)
  · rcases (reads_setOrMap_iff hne).mp h with ⟨first, mid, span, hfirst, hrest⟩
    rcases hrest with ⟨colon, after, value, later, entries, rfl, hvalue, hentries, rfl⟩ |
      ⟨_, items, hitems, rfl⟩
    · exact .map (sound (.entries _) hts
        ⟨first, colon, after, value, later, entries, hfirst, hvalue, hentries, rfl⟩)
    · have hlist : Reads (itemList ts) (first :: items) (⟨.rbrace, span⟩ :: rest) :=
        reads_itemList_iff.mpr ⟨first, mid, items, hfirst, hitems, rfl⟩
      exact .set (.enclosedItems .brace (sound (.items _) hts hlist))

theorem primary_sound (sound : SoundBelow n) (hts : ts.length ≤ n)
    (h : Reads (primary ts) e rest) : Derives (.primary e) ts rest := by
  cases ts with
  | nil => exact absurd h not_reads_primary_nil
  | cons token after =>
      have hafter : after.length < n := hts
      rcases primary_cases token with ⟨first, span, rfl⟩ | ⟨span, rfl⟩ | ⟨span, rfl⟩ |
        ⟨span, rfl⟩ | ⟨hname, hparen, hbracket, hbrace⟩
      · rcases reads_primary_name.mp h with ⟨rfl, rfl⟩
        rcases name_cases first span after with
          ⟨second, later, hqualifies, hvalue, hrest⟩ | ⟨halone, hvalue, hrest⟩
        · rw [hvalue, hrest]
          exact .qualified hqualifies
        · rw [hvalue, hrest]
          exact .name halone
      · rcases reads_primary_paren.mp h with ⟨span', hinner⟩
        exact .group (sound (.sequence _) hafter hinner)
      · rcases reads_primary_bracket.mp h with ⟨items, hitems, rfl⟩
        exact .list (sound (.enclosed .square _) hafter hitems)
      · exact setOrMap_sound sound hafter (reads_primary_brace.mp h)
      · rcases (reads_primary_iff_literal hname hparen hbracket hbrace).mp h with ⟨hliteral, rfl⟩
        exact .literal (denotes_iff.mpr hliteral)

theorem suffixes_sound {object : Expr} (sound : SoundBelow n) (hmid : mid.length ≤ n)
    (hobject : Derives (.value object) ts mid) (h : Reads (suffixes object mid) e rest) :
    Derives (.value e) ts rest := by
  induction hlength : mid.length using Nat.strongRecOn generalizing object mid with
  | ind length ih =>
      subst hlength
      rcases suffix_cases mid with ⟨span, after, rfl⟩ | ⟨span, after, rfl⟩ | ⟨span, after, rfl⟩ |
        hstop
      · rcases reads_suffixes_dot.mp h with ⟨name, span', later, rfl, htail⟩
        simp only [List.length_cons] at ih hmid
        exact ih later.length (by lia) (by lia) (.member hobject) htail rfl
      · rcases reads_suffixes_bracket.mp h with ⟨key, span', later, hkey, htail⟩
        have hlater := hkey.shorter
        have hderives := sound (.sequence _) hmid hkey
        simp only [List.length_cons] at ih hmid hlater
        exact ih later.length (by lia) (by lia) (.index hobject hderives) htail rfl
      · rcases reads_suffixes_paren.mp h with ⟨args, later, hargs, htail⟩
        have hlater := hargs.shorter
        have hderives := sound (.enclosed .paren _) hmid hargs
        simp only [List.length_cons] at ih hmid
        exact ih later.length (by lia) (by lia) (.call hobject hderives) htail rfl
      · rcases (reads_suffixes_stop hstop).mp h with ⟨rfl, rfl⟩
        exact hobject

theorem value_sound (sound : SoundBelow n) (hts : ts.length ≤ n)
    (h : Reads (value ts) e rest) : Derives (.value e) ts rest := by
  rcases reads_value_iff.mp h with ⟨first, mid, hfirst, htail⟩
  have hmid := hfirst.shorter
  exact suffixes_sound sound (by lia) (.valueOne (primary_sound sound hts hfirst)) htail

theorem unary_sound (sound : SoundBelow n) (hts : ts.length ≤ n)
    (h : Reads (unary ts) e rest) : Derives (.unary e) ts rest := by
  cases hop : unaryOp? (head ts).kind with
  | none =>
      rw [unary_eq_value hop] at h
      exact .unaryValue (value_sound sound hts h)
  | some op =>
      cases ts with
      | nil => cases hop
      | cons token after =>
          rcases (reads_unary_operator hop).mp h with ⟨operand, hoperand, rfl⟩
          exact .unaryPrefix (prefixes_iff.mpr hop)
            (sound (.unary _) hts hoperand)

theorem binaryTail_sound {level : Level} {left : Expr} (sound : SoundBelow n)
    (hmid : mid.length ≤ n) (hleft : Derives (.joined level left) ts mid)
    (h : Reads (binaryTail level left mid) e rest) : Derives (.joined level e) ts rest := by
  induction hlength : mid.length using Nat.strongRecOn generalizing left mid with
  | ind length ih =>
      subst hlength
      cases hoperator : level.operator? (head mid).kind with
      | none =>
          rcases (reads_binaryTail_stop hoperator).mp h with ⟨rfl, rfl⟩
          exact hleft
      | some apply =>
          cases mid with
          | nil => cases level <;> cases hoperator
          | cons token after =>
              rcases (reads_binaryTail_operator hoperator).mp h with ⟨right, later, hright, htail⟩
              have hlater := hright.shorter
              have hderives := sound (.operand _ _) hmid hright
              simp only [List.length_cons] at ih hmid
              exact ih later.length (by lia) (by lia)
                (.joinedMore hleft (joins_iff.mpr hoperator) hderives) htail rfl

theorem operandOf_sound {level : Level} (sound : SoundBelow n) (hts : ts.length ≤ n)
    (hinner : ∀ {inner}, level.tighter = some inner → Reads (binaryAt inner ts) e rest →
      Derives (.joined inner e) ts rest)
    (h : Reads (operandOf level ts) e rest) : Derives (.operand level e) ts rest := by
  cases htighter : level.tighter with
  | some inner =>
      rw [operandOf_eq_binaryAt htighter] at h
      exact .operandJoined (encloses_iff.mpr htighter) (hinner htighter h)
  | none =>
      rw [operandOf_eq_unary htighter] at h
      obtain rfl := multiplicative_of_tighter htighter
      exact .operandUnary (unary_sound sound hts h)

theorem binaryAt_sound {level : Level} (sound : SoundBelow n) (hts : ts.length ≤ n)
    (h : Reads (binaryAt level ts) e rest) : Derives (.joined level e) ts rest := by
  induction hrank : level.rank using Nat.strongRecOn generalizing level e rest with
  | ind rank ih =>
      subst hrank
      rcases reads_binaryAt_iff.mp h with ⟨left, mid, hleft, htail⟩
      have hmid := hleft.shorter
      have hoperand : Derives (.operand level left) ts mid :=
        operandOf_sound sound hts
          (fun htighter hinner => ih _ (Level.rank_lt_of_tighter htighter) hinner rfl) hleft
      exact binaryTail_sound sound (by lia) (.joinedOne hoperand) htail

theorem choice_sound (sound : SoundBelow n) (hts : ts.length ≤ n)
    (h : Reads (choice ts) e rest) : Derives (.choice e) ts rest := by
  rcases reads_choice_iff.mp h with ⟨condition, mid, hcondition, hrest⟩
  rcases hrest with ⟨span, after, yes, colon, later, no, rfl, hyes, hno, rfl⟩ | ⟨_, rfl, rfl⟩
  · have hafter := hcondition.shorter
    have hlater := hyes.shorter
    simp only [List.length_cons] at hafter hlater
    exact .ternary (binaryAt_sound sound hts hcondition)
      (sound (.choice _) (by lia) hyes) (sound (.choice _) (by lia) hno)
  · exact .choiceOne (binaryAt_sound sound hts hcondition)

theorem assignment_sound (sound : SoundBelow n) (hts : ts.length ≤ n)
    (h : Reads (assignment ts) e rest) : Derives (.assignment e) ts rest := by
  cases hhead : lambdaHead? ts with
  | some parsed =>
      rcases parsed with ⟨params, mid, shorter⟩
      rcases (reads_assignment_lambda hhead).mp h with ⟨body, hbody, rfl⟩
      exact .lambda (lambdaHead_iff.mpr ⟨shorter, hhead⟩)
        (sound (.assignment _) (by lia) hbody)
  | none =>
      rcases (reads_assignment_choice hhead).mp h with ⟨target, mid, htarget, hrest⟩
      rcases hrest with ⟨span, after, value, rfl, hvalue, rfl⟩ | ⟨_, rfl, rfl⟩
      · have hafter := htarget.shorter
        simp only [List.length_cons] at hafter
        exact .assign (choice_sound sound hts htarget)
          (sound (.assignment _) (by lia) hvalue)
      · exact .assignmentOne (choice_sound sound hts htarget)

theorem sequenceTail_sound {left : Expr} (sound : SoundBelow n) (hmid : mid.length ≤ n)
    (hleft : Derives (.sequence left) ts mid) (h : Reads (sequenceTail left mid) e rest) :
    Derives (.sequence e) ts rest := by
  induction hlength : mid.length using Nat.strongRecOn generalizing left mid with
  | ind length ih =>
      subst hlength
      rcases head_kind_eq_or .semicolon (by decide) mid with ⟨span, after, rfl⟩ | hstop
      · rcases reads_sequenceTail_semicolon.mp h with ⟨right, later, hright, htail⟩
        have hlater := hright.shorter
        have hderives := sound (.assignment _) hmid hright
        simp only [List.length_cons] at ih hmid
        exact ih later.length (by lia) (by lia) (.sequenceMore hleft hderives) htail rfl
      · rcases (reads_sequenceTail_stop hstop).mp h with ⟨rfl, rfl⟩
        exact hleft

theorem sequence_sound (sound : SoundBelow n) (hts : ts.length ≤ n)
    (h : Reads (sequence ts) e rest) : Derives (.sequence e) ts rest := by
  rcases reads_sequence_iff.mp h with ⟨left, mid, hleft, htail⟩
  have hmid := hleft.shorter
  exact sequenceTail_sound sound (by lia) (.sequenceOne (assignment_sound sound hts hleft)) htail

theorem itemList_sound {es : List Expr} (sound : SoundBelow n) (hts : ts.length ≤ n)
    (h : Reads (itemList ts) es rest) : Derives (.items es) ts rest := by
  rcases reads_itemList_iff.mp h with ⟨item, mid, more, hitem, hmore, rfl⟩
  have hderives := assignment_sound sound hts hitem
  rcases head_kind_eq_or .comma (by decide) mid with ⟨span, after, rfl⟩ | hstop
  · have hafter := hitem.shorter
    simp only [List.length_cons] at hafter
    exact .itemsMore hderives
      (sound (.items _) (by lia) (reads_itemTail_comma.mp hmore))
  · rcases (reads_itemTail_stop hstop).mp hmore with ⟨rfl, rfl⟩
    exact .itemsOne hderives

theorem itemsUntil_sound {bracket : Bracket} {es : List Expr} (sound : SoundBelow n)
    (hts : ts.length ≤ n) (h : Reads (itemsUntil bracket.close ts) es rest) :
    Derives (.enclosed bracket es) ts rest := by
  rcases head_kind_eq_or _ (Bracket.close_ne_eof bracket) ts with ⟨span, after, rfl⟩ | hne
  · rcases reads_itemsUntil_close.mp h with ⟨rfl, rfl⟩
    exact .enclosedNone bracket
  · rcases (reads_itemsUntil_items hne).mp h with ⟨span, hitems⟩
    exact .enclosedItems bracket (itemList_sound sound hts hitems)

theorem entries_sound {es : List (Expr × Expr)} (sound : SoundBelow n) (hts : ts.length ≤ n)
    (h : (Phrase.entries es).Read ts rest) : Derives (.entries es) ts rest := by
  rcases h with ⟨key, colon, after, value, mid, more, hkey, hvalue, hmore, rfl⟩
  have hafter := hkey.shorter
  have hmid := hvalue.shorter
  simp only [List.length_cons] at hafter
  have hderives := assignment_sound sound hts hkey
  have hvalue := sound (.assignment _) (by lia) hvalue
  rcases head_kind_eq_or .comma (by decide) mid with ⟨span, later, rfl⟩ | hstop
  · simp only [List.length_cons] at hmid
    exact .entriesMore hderives hvalue
      (sound (.entries _) (by lia) (reads_entryTail_comma.mp hmore))
  · rcases (reads_entryTail_stop hstop).mp hmore with ⟨rfl, rfl⟩
    exact .entriesOne hderives hvalue

end Step

/-- Every reader answers only what the grammar derives. -/
theorem Phrase.Read.derives (phrase : Phrase) {ts rest : List Token} (h : phrase.Read ts rest) :
    Derives phrase ts rest := by
  have sound : ∀ n, SoundBelow n := by
    intro n
    induction n with
    | zero =>
        intro phrase ts rest hts
        exact absurd hts (Nat.not_lt_zero _)
    | succ n ih =>
        intro phrase ts rest hts h
        have hts : ts.length ≤ n := Nat.le_of_lt_succ hts
        cases phrase with
        | sequence => exact sequence_sound ih hts h
        | assignment => exact assignment_sound ih hts h
        | choice => exact choice_sound ih hts h
        | joined => exact binaryAt_sound ih hts h
        | operand => exact operandOf_sound ih hts (fun _ => binaryAt_sound ih hts) h
        | unary => exact unary_sound ih hts h
        | value => exact value_sound ih hts h
        | primary => exact primary_sound ih hts h
        | items => exact itemList_sound ih hts h
        | enclosed => exact itemsUntil_sound ih hts h
        | entries => exact entries_sound ih hts h
  exact sound (ts.length + 1) phrase (Nat.lt_succ_self _) h

end Grammar
end ExprLang
