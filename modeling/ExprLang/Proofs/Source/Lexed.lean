import Mathlib.Tactic.Common
import ExprLang.Proofs.Grammar.Syntax

/-!
# Reading text from its end

The tokens of a text are found one lexeme at a time, and what a lexeme is depends on what
follows it.  `Lexed` therefore speaks of a text in its place before a fixed end: from the tokens
of the text after a lexeme it gives the tokens of the text that begins with it.
-/

namespace ExprLang

/-!
## Bytes
-/

@[simp]
theorem byteLength_cons (c : Char) (text : List Char) :
    byteLength (c :: text) = c.utf8Size + byteLength text := rfl

@[simp]
theorem byteLength_append (text after : List Char) :
    byteLength (text ++ after) = byteLength text + byteLength after := by
  induction text with
  | nil => simp [byteLength]
  | cons c rest ih =>
      rw [List.cons_append, byteLength_cons, byteLength_cons, ih, Nat.add_assoc]

/-- The text has its place before the end, and offsets up to the end fit spans. -/
structure Within (stop : Nat) (text : List Char) : Prop where
  bytes_le : byteLength text ≤ stop
  stop_le : stop ≤ Span.limit

theorem Within.tail {stop : Nat} {c : Char} {text : List Char} (h : Within stop (c :: text)) :
    Within stop text := by
  constructor
  · have hbytes := h.bytes_le
    rw [byteLength_cons] at hbytes
    lia
  · exact h.stop_le

theorem Within.right {stop : Nat} {text after : List Char} (h : Within stop (text ++ after)) :
    Within stop after := by
  constructor
  · have hbytes := h.bytes_le
    rw [byteLength_append] at hbytes
    lia
  · exact h.stop_le

/-!
## Tokens
-/

/-- The text whose end is at the offset `stop` reads as the tokens. -/
def Lexed (stop : Nat) (text : List Char) (tokens : List Token) : Prop :=
  ∀ offset, offset + byteLength text = stop →
    Token.listFrom none offset text = .ok (tokens, none)

namespace Lexed

variable {stop : Nat} {rest : List Char} {tokens : List Token}

theorem nil (stop : Nat) : Lexed stop [] [⟨.eof, .point stop⟩] := by
  intro offset hoffset
  obtain rfl : offset = stop := hoffset
  rw [Token.listFrom]

theorem gap {c : Char} (hgap : Token.isGap c = true) (h : Lexed stop rest tokens) :
    Lexed stop (c :: rest) tokens := by
  intro offset hoffset
  rw [Token.listFrom, if_pos hgap]
  refine h _ ?_
  rw [← hoffset, byteLength_cons, Nat.add_assoc]

/-- The span of a text that ends at the offset `stop` and begins with a lexeme. -/
def span (stop : Nat) (lexeme rest : List Char) : Span :=
  .ofRange (stop - byteLength (lexeme ++ rest)) (stop - byteLength rest)

theorem next?_gap {c : Char} (hgap : Token.isGap c = true) (rest : List Char) :
    Lexeme.next? (c :: rest) = none := by
  have hc : (((c = ' ' ∨ c = '\t') ∨ c = '\r') ∨ c = '\n') ∨ c = '\x0c' := by
    simpa [Token.isGap] using hgap
  rcases hc with (((rfl | rfl) | rfl) | rfl) | rfl <;> rfl

theorem lexeme (text : List Char) {kind : TokenKind}
    (hnext : Lexeme.next? (text ++ rest) = some ⟨text, kind⟩) (htext : text ≠ [])
    (h : Lexed stop rest tokens) :
    Lexed stop (text ++ rest) (⟨kind, span stop text rest⟩ :: tokens) := by
  intro offset hoffset
  rcases List.exists_cons_of_ne_nil htext with ⟨c, cs, rfl⟩
  have hgap : Token.isGap c = false := by
    refine Bool.eq_false_iff.mpr fun hgap => ?_
    rw [List.cons_append, next?_gap hgap] at hnext
    cases hnext
  have hremainder : Token.remainder ⟨c :: cs, kind⟩ (cs ++ rest) = rest := by
    simp [Token.remainder]
  have hstop : Token.stopOf offset ⟨c :: cs, kind⟩ + byteLength rest = stop := by
    rw [← hoffset, byteLength_append, Token.stopOf, Nat.add_assoc]
  have hnest : Token.nest none kind = none := by
    unfold Token.nest
    split <;> rfl
  have hspan : span stop (c :: cs) rest =
      .ofRange offset (Token.stopOf offset ⟨c :: cs, kind⟩) := by
    unfold span
    congr 1 <;> lia
  rw [List.cons_append] at hnext
  rw [List.cons_append, Token.listFrom, if_neg (by simp [hgap])]
  simp only [hnext]
  rw [if_neg (by simp), hremainder, hnest, h _ hstop, hspan]
  rfl

end Lexed

/-!
## Tokens that leave a name alone
-/

theorem start_ge_of_listFrom {braces : Option Nat} {offset : Nat} {text : List Char}
    {kind : TokenKind} {span : Span} {tokens : List Token} {ending : Option (List Char × Nat)}
    (h : Token.listFrom braces offset text = .ok (⟨kind, span⟩ :: tokens, ending)) :
    min offset Span.limit ≤ span.start := by
  fun_induction Token.listFrom braces offset text generalizing ending with
  | case1 | case4 =>
      cases h
      exact Nat.le_refl _
  | case2 _ _ c _ _ ih =>
      have hstart := ih h
      lia
  | case3 => cases h
  | case5 _ _ _ _ _ lexeme _ _ _ =>
      simp only [bind, Except.bind, pure, Except.pure] at h
      split at h
      · cases h
      · cases h
        exact Nat.le_refl _

/-- The tokens do not make a name in front of them the namespace of a name. -/
def Detached (tokens : List Token) : Prop :=
  ∀ first second after, ¬ Grammar.Qualifies first second tokens after

theorem detached_of_ne_colon {kind : TokenKind} {span : Span} {tokens : List Token}
    (h : kind ≠ .colon) : Detached (⟨kind, span⟩ :: tokens) := by
  intro first second after hqualifies
  cases hqualifies
  exact h rfl

/-- A blank after a colon keeps it from what follows. -/
theorem detached_colon {stop : Nat} {rest : List Char} {tokens : List Token}
    (hwithin : Within stop (' ' :: rest)) (h : Lexed stop rest tokens) :
    Detached (⟨.colon, Lexed.span stop [':'] (' ' :: rest)⟩ :: tokens) := by
  intro first second after hqualifies
  cases hqualifies with
  | touching hfirst hsecond =>
      have hbytes := hwithin.bytes_le
      rw [byteLength_cons] at hbytes
      have hblank : Char.utf8Size ' ' = 1 := rfl
      have hstart := start_ge_of_listFrom (h (stop - byteLength rest) (by lia))
      rw [← hsecond] at hstart
      have hstop := hwithin.stop_le
      simp only [Lexed.span, Span.ofRange, byteLength_cons] at hstart
      lia

end ExprLang
