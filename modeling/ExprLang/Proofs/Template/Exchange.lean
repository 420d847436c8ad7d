import ExprLang.Proofs.Token.Tokenization
import ExprLang.Template

/-!
# Exchanged marks

The mark in front of an expression tells only whether it is immediate or deferred: what the scanner
reads up to the closing brace, and what it reads behind it, does not depend on the mark.  A template
with all its marks exchanged therefore has the same segments, of the other kind.
-/

namespace ExprLang

/-!
## Bodies and what follows them
-/

namespace Lexeme

theorem text_of_rbrace {pattern : Pattern} {lexeme : Lexeme} {text : List Char}
    (h : IsLongest pattern lexeme text) (hkind : lexeme.kind = .rbrace) :
    lexeme.text = ['\x7d'] := by
  have hpattern := h.kind
  rw [hkind] at hpattern
  rcases mem_table.mp h.listed with ⟨entry, hentry, rfl⟩ | rfl | rfl | rfl | rfl
  · have hspelling : ∀ entry ∈ words ++ symbols, entry.2 = .rbrace → entry.1.toList = ['\x7d'] := by
      decide
    have htext : lexeme.text = entry.1.toList := h.matched
    rw [htext]
    exact hspelling entry hentry hpattern.symm
  · simp only [Pattern.kind, integer] at hpattern
    split at hpattern <;> cases hpattern
  all_goals cases hpattern

/-- A lexeme is still the longest when the text behind it ends at a brace. -/
theorem IsLongest.before_brace {pattern : Pattern} {lexeme : Lexeme} {body rest : List Char}
    (h : IsLongest pattern lexeme (lexeme.text ++ (body ++ rest))) (tail : List Char) :
    ∃ pattern, IsLongest pattern lexeme (lexeme.text ++ (body ++ '\x7d' :: tail)) := by
  have halone : IsLongest pattern lexeme (lexeme.text ++ body) := by
    refine h.of_prefix (List.prefix_append _ _) ?_
    rw [← List.append_assoc]
    exact List.prefix_append _ _
  obtain ⟨c, cs, htext, -⟩ := exists_start_of_mem h.listed h.matched
  have hnext := next?_eq_some_iff.mpr ⟨pattern, halone⟩
  rw [htext, List.cons_append] at hnext
  have hbrace := next?_before_brace hnext tail
  rw [← List.cons_append, ← htext, List.append_assoc] at hbrace
  exact next?_eq_some_iff.mp hbrace

end Lexeme

namespace Token

open Lexeme (IsLongest)

theorem listFrom_closing (offset : Nat) (tail : List Char) :
    listFrom (some 0) offset ('\x7d' :: tail) =
      .ok ([⟨.eof, .point offset⟩], some (tail, offset + 1)) := by
  rw [listFrom, if_neg (by decide)]
  rfl

/-- A body that is closed is closed by its brace, whatever follows. -/
theorem listFrom_closed {braces : Option Nat} {offset stop : Nat} {text after : List Char}
    {tokens : List Token} (h : listFrom braces offset text = .ok (tokens, some (after, stop))) :
    ∃ body, text = body ++ '\x7d' :: after ∧ ∀ tail,
      listFrom braces offset (body ++ '\x7d' :: tail) = .ok (tokens, some (tail, stop)) := by
  fun_induction listFrom braces offset text generalizing tokens with
  | case1 | case3 => cases h
  | case2 braces offset c rest hgap ih =>
      obtain ⟨body, rfl, hbody⟩ := ih h
      refine ⟨c :: body, rfl, fun tail => ?_⟩
      rw [List.cons_append, listFrom_gap braces offset hgap, hbody]
  | case4 braces offset c rest _ lexeme hlexeme hclose =>
      rw [Bool.and_eq_true, decide_eq_true_eq, decide_eq_true_eq] at hclose
      obtain ⟨hkind, rfl⟩ := hclose
      obtain ⟨pattern, hlongest⟩ := Lexeme.next?_eq_some_iff.mp hlexeme
      have hbrace := Lexeme.text_of_rbrace hlongest hkind
      have hread := Lexeme.text_append_remainder hlexeme
      cases h
      refine ⟨[], by rw [← hread, hbrace]; rfl, fun tail => ?_⟩
      rw [List.nil_append, listFrom_closing, stopOf, hbrace]
      rfl
  | case5 braces offset c rest _ lexeme hlexeme hopen ih =>
      have hread := Lexeme.text_append_remainder hlexeme
      obtain ⟨pattern, hlongest⟩ := Lexeme.next?_eq_some_iff.mp hlexeme
      obtain ⟨inner, hinner, rfl⟩ := exists_inner h
      obtain ⟨body, hremainder, hbody⟩ := ih hinner
      rw [hremainder] at hread
      rw [← hread] at hlongest
      refine ⟨lexeme.text ++ body, by rw [← hread, List.append_assoc], fun tail => ?_⟩
      obtain ⟨_, hagain⟩ := hlongest.before_brace tail
      have hbraces : lexeme.kind = .rbrace → braces ≠ some 0 := by simpa using hopen
      rw [List.append_assoc, listFrom_lexeme offset hagain hbraces, hbody]
      rfl

end Token

/-!
## Templates with exchanged marks
-/

namespace Template

open Segment (isMark collected)

def otherMark (c : Char) : Char := if c = '#' then '$' else '#'

/-- The text from `offset` on, with the mark of every expression in it exchanged. -/
def exchangeFrom (offset : Nat) : List Char → List Char
  | [] => []
  | [c] => [c]
  | c :: d :: rest =>
    if c = '\\' && isMark d then c :: d :: exchangeFrom (offset + 2) rest
    else if isMark c && d = '\x7b' then
      match _h : Token.listBody (offset + 2) rest with
      | .ok (_, some (after, stop)) =>
        otherMark c :: d :: (rest.take (rest.length - after.length) ++ exchangeFrom stop after)
      | _ => c :: d :: rest
    else c :: exchangeFrom (offset + c.utf8Size) (d :: rest)
termination_by text => text.length
decreasing_by
  · simp only [List.length_cons]; omega
  · have := Token.length_after_lt _h
    simp only [List.length_cons]; omega
  · simp

def exchange (source : String) : String := String.ofList (exchangeFrom 0 source.toList)

/-- The segment with the other mark. -/
def exchanged : Segment → Segment
  | .text content => .text content
  | .expression deferred tokens span => .expression (!deferred) tokens span

theorem map_collected (pending : List Char) :
    (collected pending).map exchanged = collected pending := by
  unfold collected
  split <;> rfl

/-- The scan at a marked brace goes by what is read up to the closing one. -/
theorem listFrom_marked (pending : List Char) (offset : Nat) {c : Char} (hmark : isMark c = true)
    (rest : List Char) :
    Segment.listFrom pending offset (c :: '\x7b' :: rest) =
      match Token.listBody (offset + 2) rest with
      | .error e => .error e
      | .ok (_, none) =>
        .error (.unterminatedExpression (.ofRange offset (offset + 2 + byteLength rest)))
      | .ok (tokens, some (after, stop)) =>
        (Segment.listFrom [] stop after).map
          (collected pending ++ .expression (c = '#') tokens (.ofRange offset stop) :: ·) := by
  have hescape : ¬ (c = '\\' && isMark '\x7b') = true := by
    simp [show isMark '\x7b' = false from rfl]
  rw [Segment.listFrom, if_neg hescape, if_pos (by simp [hmark])]
  split <;> rename_i hbody <;> rw [hbody]
  rfl

theorem exchangeFrom_closed {offset stop : Nat} {c : Char} {body after : List Char}
    {tokens : List Token} (hmark : isMark c = true)
    (hbody : Token.listBody (offset + 2) (body ++ '\x7d' :: after) =
      .ok (tokens, some (after, stop))) :
    exchangeFrom offset (c :: '\x7b' :: (body ++ '\x7d' :: after)) =
      otherMark c :: '\x7b' :: (body ++ '\x7d' :: exchangeFrom stop after) := by
  have hescape : ¬ (c = '\\' && isMark '\x7b') = true := by
    simp [show isMark '\x7b' = false from rfl]
  have htake : (body ++ '\x7d' :: after).take ((body ++ '\x7d' :: after).length - after.length) =
      body ++ ['\x7d'] := by
    have hsplit : body ++ '\x7d' :: after = (body ++ ['\x7d']) ++ after := by simp
    rw [hsplit, List.length_append, Nat.add_sub_cancel, List.take_left]
  rw [exchangeFrom, if_neg hescape, if_pos (by simp [hmark])]
  split
  · rename_i hread
    rw [hbody] at hread
    cases hread
    rw [htake, List.append_assoc]
    rfl
  · rename_i hopen
    exact absurd hbody (hopen _ _ _)

theorem exchangeFrom_open {offset : Nat} {c : Char} {rest : List Char} (hmark : isMark c = true)
    (hbody : ∀ tokens after stop,
      Token.listBody (offset + 2) rest ≠ .ok (tokens, some (after, stop))) :
    exchangeFrom offset (c :: '\x7b' :: rest) = c :: '\x7b' :: rest := by
  have hescape : ¬ (c = '\\' && isMark '\x7b') = true := by
    simp [show isMark '\x7b' = false from rfl]
  rw [exchangeFrom, if_neg hescape, if_pos (by simp [hmark])]
  split
  · rename_i hread
    exact absurd hread (hbody _ _ _)
  · rfl

theorem isMark_otherMark (c : Char) : isMark (otherMark c) = true := by
  unfold otherMark
  split <;> rfl

theorem otherMark_eq {c : Char} (hmark : isMark c = true) :
    decide (otherMark c = '#') = !decide (c = '#') := by
  rw [isMark, Bool.or_eq_true, decide_eq_true_eq, decide_eq_true_eq] at hmark
  rcases hmark with rfl | rfl <;> rfl

/-- A character that is exchanged is a mark before and after. -/
theorem exists_cons_exchangeFrom (offset : Nat) (d : Char) (rest : List Char) :
    ∃ e after, exchangeFrom offset (d :: rest) = e :: after ∧ (e = d ∨
      isMark d = true ∧ e = otherMark d) := by
  cases rest with
  | nil => exact ⟨d, [], by rw [exchangeFrom], Or.inl rfl⟩
  | cons f rest =>
      rw [exchangeFrom]
      split
      · exact ⟨d, _, rfl, Or.inl rfl⟩
      · split
        · rename_i hmark
          rw [Bool.and_eq_true] at hmark
          split
          · exact ⟨_, _, rfl, Or.inr ⟨hmark.1, rfl⟩⟩
          · exact ⟨d, _, rfl, Or.inl rfl⟩
        · exact ⟨d, _, rfl, Or.inl rfl⟩

/-- The scan of the text with exchanged marks finds the segments exchanged, and fails as it fails
without. -/
theorem listFrom_exchangeFrom (pending : List Char) (offset : Nat) (text : List Char) :
    Segment.listFrom pending offset (exchangeFrom offset text) =
      (Segment.listFrom pending offset text).map (List.map exchanged) := by
  fun_induction Segment.listFrom pending offset text with
  | case1 pending offset =>
      rw [exchangeFrom, Segment.listFrom]
      exact congrArg Except.ok (map_collected pending).symm
  | case2 pending offset c =>
      rw [exchangeFrom, Segment.listFrom]
      exact congrArg Except.ok (map_collected (c :: pending)).symm
  | case3 pending offset c d rest hescape ih =>
      rw [exchangeFrom, if_pos hescape, Segment.listFrom, if_pos hescape, ih]
  | case4 pending offset c d rest hescape hmark e hbody =>
      rw [Bool.and_eq_true, decide_eq_true_eq] at hmark
      obtain ⟨hmark, rfl⟩ := hmark
      rw [exchangeFrom_open hmark (by simp [hbody]), listFrom_marked pending offset hmark, hbody]
      rfl
  | case5 pending offset c d rest hescape hmark tokens hbody =>
      rw [Bool.and_eq_true, decide_eq_true_eq] at hmark
      obtain ⟨hmark, rfl⟩ := hmark
      rw [exchangeFrom_open hmark (by simp [hbody]), listFrom_marked pending offset hmark, hbody]
      rfl
  | case6 pending offset c d rest hescape hmark tokens after stop hbody ih =>
      rw [Bool.and_eq_true, decide_eq_true_eq] at hmark
      obtain ⟨hmark, rfl⟩ := hmark
      obtain ⟨body, rfl, hclosed⟩ := Token.listFrom_closed hbody
      have hbody' : Token.listBody (offset + 2) (body ++ '\x7d' :: exchangeFrom stop after) =
          .ok (tokens, some (exchangeFrom stop after, stop)) := hclosed _
      rw [exchangeFrom_closed hmark hbody, listFrom_marked pending offset (isMark_otherMark c),
        hbody']
      simp only
      rw [ih, otherMark_eq hmark]
      cases Segment.listFrom [] stop after with
      | error e => rfl
      | ok segments =>
          have hsegments := map_collected pending
          simp [Except.map, bind, Except.bind, pure, Except.pure, hsegments, exchanged]
  | case7 pending offset c d rest hescape hmark ih =>
      obtain ⟨e, after, hexchange, he⟩ :=
        exists_cons_exchangeFrom (offset + c.utf8Size) d rest
      have hsame : isMark e = isMark d ∧ decide (e = '\x7b') = decide (d = '\x7b') := by
        rcases he with rfl | ⟨hmark, rfl⟩
        · exact ⟨rfl, rfl⟩
        · rw [isMark, Bool.or_eq_true, decide_eq_true_eq, decide_eq_true_eq] at hmark
          rcases hmark with rfl | rfl <;> exact ⟨rfl, rfl⟩
      rw [exchangeFrom, if_neg hescape, if_neg hmark, hexchange, Segment.listFrom,
        if_neg (by rwa [hsame.1]), if_neg (by rwa [hsame.2]), ← hexchange, ih]

end Template
end ExprLang
