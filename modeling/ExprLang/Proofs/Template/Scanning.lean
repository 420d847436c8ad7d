import Mathlib
import ExprLang.Proofs.Template.Body
import ExprLang.Template.Segment

/-!
# Scanning a written template

A template is written piece by piece: literal text with a backslash in front of every mark, and
bodies between a marked opening brace and a closing one.  Scanning what was written gives the
pieces back, each body with the tokens it has by itself, moved to where the body stands.
-/

namespace ExprLang

open Segment (isMark collected)

namespace Template

/-- The text of an expression: it can be read, and its braces are balanced. -/
structure Body where
  text : String
  tokens : List Token
  lexes : Token.list text.toList = .ok tokens
  balanced : Token.Balanced tokens

inductive Piece
  | text (content : String) (nonempty : content ≠ "")
  | expression (deferred : Bool) (body : Body)

namespace Piece

/-- Text with a backslash in front of every mark. -/
def escaped (text : List Char) : List Char :=
  text.flatMap fun c => if isMark c then ['\\', c] else [c]

def mark (deferred : Bool) : Char := if deferred then '#' else '$'

def written : Piece → List Char
  | text content _ => escaped content.toList
  | expression deferred body => mark deferred :: '\x7b' :: (body.text.toList ++ ['\x7d'])

/-- Texts do not meet, and no text in front of an expression ends in a backslash. -/
def MayPrecede : Piece → Piece → Prop
  | text .., text .. => False
  | text content _, expression .. => content.toList.getLast? ≠ some '\\'
  | expression .., _ => True

/-- The segment of a piece that is written at an offset. -/
def segment (offset : Nat) : Piece → Segment
  | text content _ => .text content
  | expression deferred body =>
    .expression deferred (body.tokens.map (Token.shift (offset + 2)))
      ⟨offset, offset + byteLength (expression deferred body).written⟩

end Piece

/-- The text of a template that has the given pieces. -/
def source (pieces : List Piece) : List Char := pieces.flatMap Piece.written

def segmentsFrom (offset : Nat) : List Piece → List Segment
  | [] => []
  | piece :: rest => piece.segment offset :: segmentsFrom (offset + byteLength piece.written) rest

namespace Body

theorem listFrom_none (body : Body) :
    ∃ ending, Token.listFrom none 0 body.text.toList = .ok (body.tokens, ending) := by
  have hlexes := body.lexes
  unfold Token.list at hlexes
  cases hread : Token.listFrom none 0 body.text.toList with
  | error error =>
      rw [hread] at hlexes
      cases hlexes
  | ok read =>
      rw [hread] at hlexes
      have htokens : read.1 = body.tokens := Except.ok.inj hlexes
      exact ⟨read.2, by rw [← htokens]⟩

/-- A body in front of its closing brace ends there. -/
theorem listBody_closed (body : Body) (offset : Nat)
    (hfits : offset + byteLength body.text.toList ≤ Span.limit) (tail : List Char) :
    Token.listBody offset (body.text.toList ++ '\x7d' :: tail) =
      .ok (body.tokens.map (Token.shift offset),
        some (tail, offset + byteLength body.text.toList + 1)) := by
  rcases body.listFrom_none with ⟨ending, hread⟩
  exact Token.listFrom_before_brace rfl hread body.balanced (Nat.zero_add offset).symm hfits tail

end Body

/-!
## Literal text
-/

section Literal

variable {c : Char} (pending : List Char) (offset : Nat)

theorem listFrom_escapedMark (hmark : isMark c = true) (rest : List Char) :
    Segment.listFrom pending offset ('\\' :: c :: rest) =
      Segment.listFrom (c :: pending) (offset + 2) rest := by
  rw [Segment.listFrom, if_pos (by simp [hmark])]

/-- A plain character is collected, unless it is a backslash that would hide a mark. -/
theorem listFrom_plain (hmark : isMark c = false) {rest : List Char}
    (hrest : c = '\\' → ∀ d ∈ rest.head?, isMark d = false) :
    Segment.listFrom pending offset (c :: rest) =
      Segment.listFrom (c :: pending) (offset + c.utf8Size) rest := by
  cases rest with
  | nil => rw [Segment.listFrom, Segment.listFrom]
  | cons d rest =>
      have hescape : ¬ (c = '\\' && isMark d) = true := by
        intro hboth
        rw [Bool.and_eq_true, decide_eq_true_eq] at hboth
        have hd := hrest hboth.1 d rfl
        rw [hboth.2] at hd
        cases hd
      rw [Segment.listFrom, if_neg hescape, if_neg (by simp [hmark])]

theorem utf8Size_of_isMark (hmark : isMark c = true) : c.utf8Size = 1 := by
  rw [isMark, Bool.or_eq_true, decide_eq_true_eq, decide_eq_true_eq] at hmark
  rcases hmark with rfl | rfl <;> rfl

theorem isMark_head?_escaped (text : List Char) :
    ∀ d ∈ (Piece.escaped text).head?, isMark d = false := by
  intro d hd
  cases text with
  | nil => cases hd
  | cons c cs =>
      rw [Piece.escaped, List.flatMap_cons] at hd
      split at hd
      · cases hd
        rfl
      · rename_i hmark
        cases hd
        simpa using hmark

/-- Escaped text is collected as it was before it was escaped. -/
theorem listFrom_escaped {text rest : List Char}
    (hlast : text.getLast? = some '\\' → ∀ d ∈ rest.head?, isMark d = false) :
    Segment.listFrom pending offset (Piece.escaped text ++ rest) =
      Segment.listFrom (text.reverse ++ pending)
        (offset + byteLength (Piece.escaped text)) rest := by
  induction text generalizing pending offset with
  | nil => rfl
  | cons c cs ih =>
      have hlast' : cs.getLast? = some '\\' → ∀ d ∈ rest.head?, isMark d = false := by
        intro hcs
        exact hlast (by rw [List.getLast?_cons, hcs]; rfl)
      have hcons : Piece.escaped (c :: cs) =
          (if isMark c then ['\\', c] else [c]) ++ Piece.escaped cs := rfl
      rw [hcons, List.reverse_cons, List.append_assoc _ [c] pending]
      cases hmark : isMark c with
      | true =>
          have hbytes : byteLength ('\\' :: c :: Piece.escaped cs) =
              2 + byteLength (Piece.escaped cs) := by
            rw [byteLength_cons, byteLength_cons, utf8Size_of_isMark hmark, ← Nat.add_assoc]
            rfl
          simp only [if_true, List.cons_append, List.nil_append, hbytes, ← Nat.add_assoc]
          rw [listFrom_escapedMark pending offset hmark, ih _ _ hlast']
      | false =>
          have hnext : c = '\\' → ∀ d ∈ (Piece.escaped cs ++ rest).head?, isMark d = false := by
            rintro rfl d hd
            cases cs with
            | nil => exact hlast rfl d hd
            | cons e es =>
                have hne : Piece.escaped (e :: es) ≠ [] := by
                  rw [Piece.escaped, List.flatMap_cons]
                  split <;> simp
                rw [List.head?_append, Option.or_of_isSome (List.isSome_head?.mpr hne)] at hd
                exact isMark_head?_escaped (e :: es) d hd
          simp only [Bool.false_eq_true, if_false, List.cons_append, List.nil_append,
            byteLength_cons, ← Nat.add_assoc]
          rw [listFrom_plain pending offset hmark hnext, ih _ _ hlast']

end Literal

/-!
## Expressions
-/

theorem byteLength_expression (deferred : Bool) (body : Body) :
    byteLength (Piece.expression deferred body).written = 2 + byteLength body.text.toList + 1 := by
  have hmark : (Piece.mark deferred).utf8Size = 1 := by
    cases deferred <;> rfl
  have hopen : Char.utf8Size '\x7b' = 1 := rfl
  have hclose : byteLength ['\x7d'] = 1 := rfl
  rw [Piece.written, byteLength_cons, byteLength_cons, byteLength_append, hmark, hopen, hclose]
  lia

/-- An expression ends the text in front of it, and what follows it is read from its end. -/
theorem listFrom_expression (deferred : Bool) (body : Body) (pending : List Char) {offset : Nat}
    (hfits : offset + byteLength (Piece.expression deferred body).written ≤ Span.limit)
    (rest : List Char) :
    Segment.listFrom pending offset ((Piece.expression deferred body).written ++ rest) =
      (Segment.listFrom [] (offset + byteLength (Piece.expression deferred body).written)
        rest).map (collected pending ++ (Piece.expression deferred body).segment offset :: ·) := by
  have hlength := byteLength_expression deferred body
  have hescape : ¬ (Piece.mark deferred = '\\' && isMark '\x7b') = true := by
    simp [show isMark '\x7b' = false from rfl]
  have hmark : (isMark (Piece.mark deferred) && '\x7b' = '\x7b') = true := by
    cases deferred <;> rfl
  have hdeferred : decide (Piece.mark deferred = '#') = deferred := by
    cases deferred <;> rfl
  have hbody := body.listBody_closed (offset + 2) (by lia) rest
  have hstop : offset + 2 + byteLength body.text.toList + 1 =
      offset + byteLength (Piece.expression deferred body).written := by
    lia
  have hspan : Span.ofRange offset (offset + byteLength (Piece.expression deferred body).written) =
      ⟨offset, offset + byteLength (Piece.expression deferred body).written⟩ := by
    rw [Span.ofRange, Nat.min_eq_left (by lia), Nat.min_eq_left hfits]
  rw [hstop] at hbody
  have hwritten : (Piece.expression deferred body).written ++ rest =
      Piece.mark deferred :: '\x7b' :: (body.text.toList ++ '\x7d' :: rest) := by
    simp [Piece.written]
  rw [hwritten, Segment.listFrom, if_neg hescape, if_pos hmark]
  split
  · rename_i hfail
    rw [hbody] at hfail
    cases hfail
  · rename_i hopen
    rw [hbody] at hopen
    cases hopen
  · rename_i hclosed
    rw [hbody] at hclosed
    cases hclosed
    rw [hdeferred, hspan]
    rfl

/-!
## Whole templates
-/

theorem segments_collected (content : String) (hcontent : content ≠ "") :
    collected content.toList.reverse = [.text content] := by
  have hne : content.toList ≠ [] := fun heq => hcontent (String.toList_eq_nil_iff.mp heq)
  rw [collected, if_neg (by simpa using hne), List.reverse_reverse, String.ofList_toList]

theorem head?_source_of_isChain {content : String} {hcontent : content ≠ ""} {pieces : List Piece}
    (hchain : (Piece.text content hcontent :: pieces).IsChain Piece.MayPrecede)
    (hlast : content.toList.getLast? = some '\\') :
    ∀ d ∈ (source pieces).head?, isMark d = false := by
  intro d hd
  cases pieces with
  | nil => cases hd
  | cons piece rest =>
      have hpair := hchain.rel
      cases piece with
      | text => exact absurd hpair id
      | expression => exact absurd hlast hpair

/-- The scan of the pieces after some collected text, which only an expression or the end of the
template may follow. -/
theorem listFrom_source {pieces : List Piece} (hchain : pieces.IsChain Piece.MayPrecede)
    (pending : List Char)
    (hpending : ∀ content hcontent, .text content hcontent ∈ pieces.head? → pending = [])
    (offset : Nat) (hfits : offset + byteLength (source pieces) ≤ Span.limit) :
    Segment.listFrom pending offset (source pieces) =
      .ok (collected pending ++ segmentsFrom offset pieces) := by
  induction pieces generalizing pending offset with
  | nil =>
      rw [source, List.flatMap_nil, Segment.listFrom, segmentsFrom, List.append_nil]
  | cons piece rest ih =>
      have hsource : source (piece :: rest) = piece.written ++ source rest := rfl
      rw [hsource, byteLength_append, ← Nat.add_assoc] at hfits
      rw [hsource]
      obtain ⟨hhead, hrest⟩ := List.isChain_cons.mp hchain
      cases piece with
      | text content hcontent =>
          cases hpending content hcontent rfl
          have hnext : ∀ other hother, .text other hother ∈ rest.head? →
              content.toList.reverse = [] := by
            intro other hother htext
            exact absurd (hhead _ htext) id
          rw [Piece.written] at hfits ⊢
          rw [listFrom_escaped _ _ (head?_source_of_isChain hchain),
            List.append_nil, ih hrest _ hnext _ hfits, segments_collected content hcontent]
          rfl
      | expression deferred body =>
          rw [listFrom_expression deferred body pending (by lia),
            ih hrest _ (fun _ _ _ => rfl) _ hfits]
          rfl

/-- Scanning a written template gives its pieces back in order, every body with the tokens it has
alone. -/
theorem scan_source (pieces : List Piece) (hchain : pieces.IsChain Piece.MayPrecede)
    (hfits : byteLength (source pieces) ≤ Span.limit) :
    Segment.list (source pieces) = .ok (segmentsFrom 0 pieces) := by
  have hscan := listFrom_source hchain [] (fun _ _ _ => rfl) 0 (by rwa [Nat.zero_add])
  rw [Segment.list, hscan]
  rfl

/-- A body with a brace of its own around a text that holds a closing brace. -/
def bracedBody : Body where
  text := "\x7b'\x7d':n\x7d"
  tokens := [⟨.lbrace, ⟨0, 1⟩⟩, ⟨.string "\x7d", ⟨1, 4⟩⟩, ⟨.colon, ⟨4, 5⟩⟩, ⟨.ident "n", ⟨5, 6⟩⟩,
    ⟨.rbrace, ⟨6, 7⟩⟩, ⟨.eof, ⟨7, 7⟩⟩]
  lexes := by cbv
  balanced := by cbv

/-- An escaped mark, an immediate and a deferred expression, and a backslash at the end. -/
def mixedPieces : List Piece :=
  [.text "é$" (by decide), .expression false bracedBody, .expression true bracedBody,
    .text "\\" (by decide)]

theorem scan_mixedPieces :
    mixedPieces.IsChain Piece.MayPrecede ∧ byteLength (source mixedPieces) ≤ Span.limit ∧
      Segment.list (source mixedPieces) = .ok (segmentsFrom 0 mixedPieces) := by
  have hchain : mixedPieces.IsChain Piece.MayPrecede := by
    simp [mixedPieces, Piece.MayPrecede]
  have hfits : byteLength (source mixedPieces) ≤ Span.limit := by decide
  exact ⟨hchain, hfits, scan_source mixedPieces hchain hfits⟩

end Template
end ExprLang
