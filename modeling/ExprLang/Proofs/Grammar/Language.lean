import Mathlib
import ExprLang.Proofs.Grammar.Completeness

/-!
# The language of the parser

The parser accepts exactly the token lists that the grammar derives, and answers the one tree
derived.  It stops at the first empty token, so this holds of lists whose only empty token is
the last one, as the lexer makes them.
-/

namespace ExprLang
namespace Grammar

/-!
## Terminated token lists
-/

/-- A token list whose only empty token is the last one. -/
inductive Terminated : List Token → Prop
  | eof {span : Span} : Terminated [⟨.eof, span⟩]
  | cons {kind : TokenKind} {span : Span} {ts : List Token} :
      kind ≠ .eof → Terminated ts → Terminated (⟨kind, span⟩ :: ts)

theorem Terminated.of_leaves {ts rest : List Token} (h : Terminated ts) (hrest : Leaves ts rest) :
    Terminated rest := by
  induction hrest with
  | refl => exact h
  | step hkind _ ih =>
      cases h with
      | eof => exact absurd rfl hkind
      | cons _ h => exact ih h

theorem Terminated.eq_eof {ts : List Token} (h : Terminated ts) (heof : (head ts).kind = .eof) :
    ∃ span, ts = [⟨.eof, span⟩] := by
  cases h with
  | eof => exact ⟨_, rfl⟩
  | cons hkind _ => exact absurd heof hkind

theorem word_kind_ne_eof (text : List Char) : (Lexeme.word text).kind ≠ .eof := by
  unfold Lexeme.word
  dsimp only
  cases hword : Lexeme.words.lookup (String.ofList (text.takeWhile Lexeme.isNamePart)) with
  | none => exact TokenKind.noConfusion
  | some kind =>
      rcases List.lookup_eq_some_iff.mp hword with ⟨before, after, hsplit, _⟩
      have hmem : (String.ofList (text.takeWhile Lexeme.isNamePart), kind) ∈ Lexeme.words := by
        rw [hsplit]
        exact List.mem_append_right before List.mem_cons_self
      have hwords : ∀ entry ∈ Lexeme.words, entry.2 ≠ .eof := by decide
      exact hwords _ hmem

theorem symbol?_kind_ne_eof {text : List Char} {lexeme : Lexeme}
    (h : Lexeme.symbol? text = some lexeme) : lexeme.kind ≠ .eof := by
  rcases Option.map_eq_some_iff.mp h with ⟨entry, hfind, rfl⟩
  have hsymbols : ∀ entry ∈ Lexeme.symbols, entry.2 ≠ .eof := by decide
  exact hsymbols entry (List.mem_of_find?_eq_some hfind)

theorem number?_kind_ne_eof {text : List Char} {lexeme : Lexeme}
    (h : Lexeme.number? text = some lexeme) : lexeme.kind ≠ .eof := by
  have hfloat : ∀ cs, (Lexeme.float cs).kind ≠ .eof := by simp [Lexeme.float]
  have hinteger : ∀ cs, (Lexeme.integer cs).kind ≠ .eof := by
    intro cs
    simp only [Lexeme.integer]
    split <;> simp
  simp only [Lexeme.number?] at h
  split at h
  · split at h
    · cases h
    · cases h
      exact hfloat _
  · split at h
    · cases h
    · split at h
      · cases h
        exact hinteger _
      · cases h
        exact hfloat _

theorem next?_kind_ne_eof {text : List Char} {lexeme : Lexeme}
    (h : Lexeme.next? text = some lexeme) : lexeme.kind ≠ .eof := by
  cases text with
  | nil => cases h
  | cons c rest =>
      simp only [Lexeme.next?] at h
      split at h
      · cases h
        exact word_kind_ne_eof _
      · split at h
        · rcases Option.map_eq_some_iff.mp h with ⟨body, _, rfl⟩
          simp
        · rcases Option.or_eq_some_iff.mp h with h | ⟨_, h⟩
          · exact number?_kind_ne_eof h
          · exact symbol?_kind_ne_eof h

/-- The lexer terminates its lists, whether or not a brace ends them. -/
theorem terminated_of_listFrom {braces : Option Nat} {offset : Nat} {text : List Char}
    {tokens : List Token} {ending : Option (List Char × Nat)}
    (h : Token.listFrom braces offset text = .ok (tokens, ending)) : Terminated tokens := by
  fun_induction Token.listFrom braces offset text generalizing tokens ending with
  | case1 =>
      cases h
      exact .eof
  | case2 _ _ _ _ _ ih => exact ih h
  | case3 => cases h
  | case4 =>
      cases h
      exact .eof
  | case5 _ _ _ _ _ lexeme hlexeme _ ih =>
      simp only [bind, Except.bind, pure, Except.pure] at h
      split at h
      · cases h
      · rename_i result hresult
        rcases result with ⟨inner, ending⟩
        cases h
        exact .cons (next?_kind_ne_eof hlexeme) (ih hresult)

theorem terminated_of_list {text : List Char} {tokens : List Token}
    (h : Token.list text = .ok tokens) : Terminated tokens := by
  unfold Token.list at h
  cases hfrom : Token.listFrom none 0 text with
  | error e =>
      rw [hfrom] at h
      cases h
  | ok read =>
      rw [hfrom] at h
      cases h
      exact terminated_of_listFrom hfrom

/-!
## The parser and the grammar
-/

theorem reads_of_spells {tokens : List Token} {e : Expr} (h : Spells tokens e) :
    ∃ last, last.kind = .eof ∧ Reads (sequence tokens) e [last] := by
  rcases h with ⟨last, hlast, hderives⟩
  have hloose : looseness (head [last]).kind = 12 := by
    change looseness last.kind = 12
    rw [hlast]
    rfl
  have hpassed : (Phrase.sequence e).Passed tokens [last] :=
    hderives.passed (hloose ▸ (by decide : 10 ≤ 12))
  exact ⟨last, hlast, sequence_read hpassed (hloose ▸ (by decide : 11 ≤ 12))⟩

/-- No token list has two trees. -/
theorem Spells.unique {tokens : List Token} {e e' : Expr} (h : Spells tokens e)
    (h' : Spells tokens e') : e = e' := by
  rcases reads_of_spells h with ⟨_, _, hread⟩
  rcases reads_of_spells h' with ⟨_, _, hread'⟩
  exact (hread.unique hread').1

theorem ofTokens_of_spells {tokens : List Token} {e : Expr} (h : Spells tokens e) :
    Expr.ofTokens tokens = .ok e := by
  rcases reads_of_spells h with ⟨last, hlast, shorter, hread⟩
  have heof : (head [last]).kind = .eof := hlast
  simp only [Expr.ofTokens, hread, bind, Except.bind, if_pos heof, pure, Except.pure]

theorem spells_of_ofTokens {tokens : List Token} {e : Expr} (hterminated : Terminated tokens)
    (h : Expr.ofTokens tokens = .ok e) : Spells tokens e := by
  unfold Expr.ofTokens at h
  cases hread : sequence tokens with
  | error error =>
      rw [hread] at h
      cases h
  | ok parsed =>
      rcases parsed with ⟨tree, rest, shorter⟩
      simp only [hread, bind, Except.bind] at h
      split at h
      · rename_i heof
        cases h
        have hderives : Derives (.sequence e) tokens rest :=
          Phrase.Read.derives (.sequence e) ⟨shorter, hread⟩
        rcases (hterminated.of_leaves hderives.leaves).eq_eof heof with ⟨span, rfl⟩
        exact ⟨_, rfl, hderives⟩
      · cases h

/-- On what the lexer answers, the parser accepts exactly what the grammar derives. -/
theorem ofTokens_eq_ok_iff_spells {text : List Char} {tokens : List Token}
    (h : Token.list text = .ok tokens) :
    (∀ e, Expr.ofTokens tokens = .ok e ↔ Spells tokens e) ∧
      ∀ e e', Spells tokens e → Spells tokens e' → e = e' := by
  constructor
  · intro e
    exact ⟨spells_of_ofTokens (terminated_of_list h), ofTokens_of_spells⟩
  · intro e e' h h'
    exact h.unique h'

/-- The colon between touching names belongs to a qualified name, the other one to the choice. -/
theorem qualified_choice_spells :
    ∃ tokens, Token.list "a?n:f():b".toList = .ok tokens ∧
      Spells tokens (.ternary (.ident "a") (.call (.ident "n:f") []) (.ident "b")) := by
  have hlist : Token.list "a?n:f():b".toList = .ok
      [⟨.ident "a", ⟨0, 1⟩⟩, ⟨.question, ⟨1, 2⟩⟩, ⟨.ident "n", ⟨2, 3⟩⟩, ⟨.colon, ⟨3, 4⟩⟩,
        ⟨.ident "f", ⟨4, 5⟩⟩, ⟨.lparen, ⟨5, 6⟩⟩, ⟨.rparen, ⟨6, 7⟩⟩, ⟨.colon, ⟨7, 8⟩⟩,
        ⟨.ident "b", ⟨8, 9⟩⟩, ⟨.eof, ⟨9, 9⟩⟩] := by cbv
  exact ⟨_, hlist, ((ofTokens_eq_ok_iff_spells hlist).1 _).mp (by cbv)⟩

end Grammar
end ExprLang
