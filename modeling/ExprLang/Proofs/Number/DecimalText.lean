import Mathlib.Data.List.TakeWhile
import ExprLang.Number.Decimal
import ExprLang.Proofs.Number.IntegerText
import ExprLang.Text.Blank

/-!
# The text of decimals

Decimal text sets digits out: a point may stand among them, and an exponent may follow them.  The
digits after the point less the exponent are the scale.  The text of a decimal is in one of three
forms, and in each of them it is read back with the same digits and at the same scale.
-/

namespace ExprLang
namespace Decimal

/-!
## Splitting text
-/

section Split

variable {p : Char → Bool} {text : List Char}

theorem splitFirst_of_forall (h : ∀ c ∈ text, p c = false) : splitFirst p text = (text, none) := by
  have hnot : ∀ c ∈ text, (!p c) = true := fun c hc => by rw [h c hc, Bool.not_false]
  rw [splitFirst, List.takeWhile_eq_self_iff.mpr hnot, List.dropWhile_eq_nil_iff.mpr hnot]
  rfl

theorem splitFirst_append_cons (h : ∀ c ∈ text, p c = false) {c : Char} (hc : p c = true)
    (rest : List Char) : splitFirst p (text ++ c :: rest) = (text, some rest) := by
  have hnot : ∀ c ∈ text, (!p c) = true := fun c hc => by rw [h c hc, Bool.not_false]
  rw [splitFirst, List.takeWhile_append_of_pos hnot, List.dropWhile_append_of_pos hnot,
    List.takeWhile_cons_of_neg (by simp [hc]), List.dropWhile_cons_of_neg (by simp [hc]),
    List.append_nil]
  rfl

end Split

/-!
## Digits set out
-/

/-- A point in front of the digits after it, or nothing. -/
inductive Pointed : List Char → List Char → Prop
  | whole : Pointed [] []
  | point (trail : List Char) : Pointed ('.' :: trail) trail

/-- A mark in front of an exponent, or nothing. -/
inductive Marked : List Char → Int → Prop
  | plain : Marked [] 0
  | mark {text : List Char} {exponent : Int} :
      IntegerText text exponent → Marked ('E' :: text) exponent

/-- Text that sets digits out at a scale. -/
inductive SetOut : List Char → Int → List Char → Prop
  | intro (lead : List Char) {trail point mark : List Char} {exponent : Int} :
      Pointed point trail → Marked mark exponent →
      SetOut (lead ++ trail) ((trail.filter (· ≠ '_')).length - exponent) (lead ++ (point ++ mark))

theorem SetOut.cons {digits text : List Char} {scale : Int} (h : SetOut digits scale text)
    (c : Char) : SetOut (c :: digits) scale (c :: text) := by
  cases h with
  | @intro lead _ _ _ _ hpoint hmark => exact .intro (c :: lead) hpoint hmark

theorem SetOut.plain (digits : List Char) : SetOut digits 0 digits := by
  have h := SetOut.intro digits .whole .plain
  rwa [List.append_nil, List.append_nil, List.append_nil] at h

section Readers

variable {digits lead trail point mark text : List Char} {exponent scale n : Int}

theorem Pointed.splitFirst (h : Pointed point trail)
    (hlead : ∀ c ∈ lead, decide (c = '.') = false) :
    ∃ trailText, Decimal.splitFirst (· = '.') (lead ++ point) = (lead, trailText) ∧
      trailText.getD [] = trail := by
  cases h with
  | whole =>
      rw [List.append_nil]
      exact ⟨none, splitFirst_of_forall hlead, rfl⟩
  | point => exact ⟨some trail, splitFirst_append_cons hlead rfl trail, rfl⟩

theorem Marked.splitFirst (h : Marked mark exponent)
    (htext : ∀ c ∈ text, (c = 'e' || c = 'E') = false) :
    ∃ exponentText,
      Decimal.splitFirst (fun c => c = 'e' || c = 'E') (text ++ mark) = (text, exponentText) ∧
      exponentText.elim (some 0) readInt? = some exponent := by
  cases h with
  | plain =>
      rw [List.append_nil]
      exact ⟨none, splitFirst_of_forall htext, rfl⟩
  | @mark rest _ hrest =>
      exact ⟨some rest, splitFirst_append_cons htext rfl rest, readInt?_eq_some_iff.mpr hrest⟩

theorem Pointed.mem {c : Char} (h : Pointed point trail) (hc : c ∈ lead ++ point) :
    c = '.' ∨ c ∈ lead ++ trail := by
  cases h with
  | whole => exact .inr hc
  | point =>
      rw [List.mem_append, List.mem_cons] at hc
      rw [List.mem_append]
      tauto

/-- Digits set out at a scale that fits are read as the integer that they say, at that scale. -/
theorem SetOut.read? (h : SetOut digits scale text) (hdigits : readBigInt? digits = some n)
    (hlow : scaleLow ≤ scale) (hhigh : scale ≤ scaleHigh) : read? text = some ⟨n, scale⟩ := by
  cases h with
  | @intro lead trail point mark exponent hpoint hmark =>
      have hpoints : FailsOnIntegers (· = '.') := by decide
      have hmarks : FailsOnIntegers (fun c => c = 'e' || c = 'E') := by decide
      have hlead : ∀ c ∈ lead, decide (c = '.') = false := fun c hc =>
        hpoints.eq_false hdigits c (List.mem_append_left trail hc)
      have hbase : ∀ c ∈ lead ++ point, (c = 'e' || c = 'E') = false := by
        intro c hc
        rcases hpoint.mem hc with rfl | hc
        · rfl
        · exact hmarks.eq_false hdigits c hc
      obtain ⟨trailText, htrailText, htrail⟩ := hpoint.splitFirst hlead
      obtain ⟨exponentText, hexponentText, hexponent⟩ := hmark.splitFirst hbase
      rw [List.append_assoc] at hexponentText
      have hfits : (scaleLow ≤ ((trail.filter (· ≠ '_')).length - exponent : Int) &&
          ((trail.filter (· ≠ '_')).length - exponent : Int) ≤ scaleHigh) = true := by
        rw [decide_eq_true hlow, decide_eq_true hhigh, Bool.and_self]
      rw [Decimal.read?, hexponentText]
      dsimp only
      rw [hexponent, htrailText]
      dsimp only [Option.bind_eq_bind, Option.bind_some]
      rw [htrail, hdigits]
      dsimp only [Option.bind_some]
      rw [if_pos hfits]

theorem SetOut.eq_false (h : SetOut digits scale text) (hdigits : readBigInt? digits = some n)
    {p : Char → Bool} (hp : FailsOnIntegers p) (hpoint : p '.' = false) (hmark : p 'E' = false) :
    ∀ c ∈ text, p c = false := by
  cases h with
  | intro _ hpointed hmarked =>
      intro c hc
      rw [← List.append_assoc, List.mem_append] at hc
      rcases hc with hc | hc
      · rcases hpointed.mem hc with rfl | hc
        · exact hpoint
        · exact hp.eq_false hdigits c hc
      · cases hmarked with
        | plain => cases hc
        | mark hexponent =>
            rcases List.mem_cons.mp hc with rfl | hc
            · exact hmark
            · exact hp.eq_false hexponent.readBigInt? c hc

/-- Digits that are set out are read alike with or without trimming. -/
theorem SetOut.trim (h : SetOut digits scale text) (hdigits : readBigInt? digits = some n) :
    Text.trim text = text :=
  Text.trim_of_forall (h.eq_false hdigits (by decide) (by decide) (by decide))

end Readers

/-!
## The text of a decimal
-/

section Forms

variable {digits lead trail point mark : List Char} {exponent : Int}

theorem filter_ne_line (h : ∀ c ∈ digits, c.isDigit) : digits.filter (· ≠ '_') = digits :=
  List.filter_eq_self.mpr fun c hc => by
    have hline := eq_false_of_isDigit (p := (· = '_')) (by decide) (h c hc)
    simpa using hline

theorem SetOut.of_isDigit (lead : List Char) (htrail : ∀ c ∈ trail, c.isDigit)
    (hpoint : Pointed point trail) (hmark : Marked mark exponent) :
    SetOut (lead ++ trail) (trail.length - exponent) (lead ++ (point ++ mark)) := by
  have hset := SetOut.intro lead hpoint hmark
  rwa [filter_ne_line htrail] at hset

/-- A point among the digits. -/
theorem SetOut.inner (hdigits : ∀ c ∈ digits, c.isDigit) {places : Nat}
    (hplaces : places ≤ digits.length) :
    SetOut digits places
      (digits.take (digits.length - places) ++ '.' :: digits.drop (digits.length - places)) := by
  have htrail : ∀ c ∈ digits.drop (digits.length - places), c.isDigit :=
    fun c hc => hdigits c (List.mem_of_mem_drop hc)
  have hset := SetOut.of_isDigit (digits.take (digits.length - places)) htrail
    (.point _) .plain
  rw [List.take_append_drop, List.append_nil, List.length_drop] at hset
  have hscale : ((digits.length - (digits.length - places) : Nat) : Int) - 0 = places := by lia
  rwa [hscale] at hset

theorem isDigit_of_mem_zeros_append (hdigits : ∀ c ∈ digits, c.isDigit) (zeros : Nat) :
    ∀ c ∈ List.replicate zeros '0' ++ digits, c.isDigit := by
  intro c hc
  rcases List.mem_append.mp hc with hc | hc
  · rw [List.eq_of_mem_replicate hc]
    rfl
  · exact hdigits c hc

theorem digitsValue_zeros_append (zeros : Nat) :
    digitsValue (List.replicate zeros '0' ++ digits) = digitsValue digits := by
  rw [digitsValue_append, digitsValue_replicate, Nat.mul_zero, Nat.zero_add]

/-- A zero and a point in front of the digits, with zeros that bring them to their places. -/
theorem SetOut.padded (hdigits : ∀ c ∈ digits, c.isDigit) {places : Nat}
    (hplaces : digits.length ≤ places) :
    SetOut (List.replicate (places - digits.length + 1) '0' ++ digits) places
      ('0' :: '.' :: List.replicate (places - digits.length) '0' ++ digits) := by
  have hset := SetOut.of_isDigit ['0']
    (isDigit_of_mem_zeros_append hdigits (places - digits.length)) (.point _) .plain
  rw [List.append_nil, List.length_append, List.length_replicate] at hset
  have hscale : ((places - digits.length + digits.length : Nat) : Int) - 0 = places := by lia
  rwa [hscale] at hset

theorem integerText_signed (exponent : Int) :
    IntegerText ((if 0 ≤ exponent then ['+'] else []) ++ (intText exponent).toList) exponent := by
  split
  · rename_i hnonneg
    have htext := IntegerText.plus (isDigits_natDigits exponent.natAbs)
    rwa [digitsValue_natDigits, Int.natAbs_of_nonneg hnonneg,
      ← intText_of_nonneg hnonneg] at htext
  · exact integerText_intText exponent

/-- One digit, a point in front of the digits after it, if there are any, and the exponent of
the first digit. -/
theorem SetOut.scientific (hdigits : IsDigits digits) {scale : Int}
    (hexponent : exponent = digits.length - 1 - scale) :
    SetOut digits scale
      (digits.take 1 ++ (if (digits.drop 1).isEmpty then [] else '.' :: digits.drop 1) ++
        'E' :: (if 0 ≤ exponent then ['+'] else []) ++ (intText exponent).toList) := by
  have hpoint : Pointed (if (digits.drop 1).isEmpty then [] else '.' :: digits.drop 1)
      (digits.drop 1) := by
    split
    · rename_i hempty
      rw [List.isEmpty_iff.mp hempty]
      exact .whole
    · exact .point _
  have htrail : ∀ c ∈ digits.drop 1, c.isDigit := fun c hc => hdigits.2 c (List.mem_of_mem_drop hc)
  have hset := SetOut.of_isDigit (digits.take 1) htrail hpoint
    (.mark (integerText_signed exponent))
  have hlength : 0 < digits.length := List.length_pos_iff.mpr hdigits.1
  have hscale : ((digits.drop 1).length : Int) - exponent = scale := by
    rw [List.length_drop]
    lia
  rw [List.take_append_drop, hscale] at hset
  rwa [List.append_assoc, List.append_assoc, List.cons_append]

end Forms

/-- In each form the text sets out the digits, which zeros may precede, at the scale. -/
theorem exists_setOut {digits : List Char} (hdigits : IsDigits digits) (scale : Int) :
    ∃ padded, IsDigits padded ∧ digitsValue padded = digitsValue digits ∧
      SetOut padded scale (setOut digits scale) := by
  unfold setOut
  dsimp only
  split
  · rename_i hzero
    rw [hzero]
    exact ⟨digits, hdigits, rfl, .plain digits⟩
  · split
    · rename_i hpositive
      rw [Bool.and_eq_true, decide_eq_true_eq, decide_eq_true_eq] at hpositive
      have hscale : (scale.toNat : Int) = scale := by lia
      split
      · rename_i hinner
        have hset := SetOut.inner hdigits.2 hinner.le
        rw [hscale] at hset
        exact ⟨digits, hdigits, rfl, hset⟩
      · rename_i houter
        have hset := SetOut.padded hdigits.2 (Nat.le_of_not_lt houter)
        rw [hscale] at hset
        have hpadded : IsDigits (List.replicate (scale.toNat - digits.length + 1) '0' ++ digits) :=
          ⟨List.append_ne_nil_of_right_ne_nil _ hdigits.1,
            isDigit_of_mem_zeros_append hdigits.2 _⟩
        exact ⟨_, hpadded, digitsValue_zeros_append _, hset⟩
    · exact ⟨digits, hdigits, rfl, .scientific hdigits rfl⟩

/-- The text of a decimal sets out the integer at the scale. -/
theorem exists_setOut_text (d : Decimal) :
    ∃ digits, IntegerText digits d.unscaled ∧ SetOut digits d.scale d.text.toList := by
  obtain ⟨padded, hpadded, hvalue, hset⟩ :=
    exists_setOut (isDigits_natDigits d.unscaled.natAbs) d.scale
  rw [digitsValue_natDigits] at hvalue
  rw [text, String.toList_ofList]
  split
  · rename_i hneg
    have hdigits := IntegerText.minus hpadded
    rw [hvalue, Int.ofNat_natAbs_of_nonpos (Int.le_of_lt hneg), Int.neg_neg] at hdigits
    exact ⟨_, hdigits, hset.cons '-'⟩
  · rename_i hnonneg
    have hdigits := IntegerText.digits hpadded
    rw [hvalue, Int.natAbs_of_nonneg (Int.not_lt.mp hnonneg)] at hdigits
    exact ⟨padded, hdigits, hset⟩

/-- The text of a decimal is read as the decimal. -/
theorem read?_text {d : Decimal} (hlow : scaleLow ≤ d.scale) (hhigh : d.scale ≤ scaleHigh) :
    read? (Text.trim d.text.toList) = some d := by
  obtain ⟨digits, hdigits, hset⟩ := exists_setOut_text d
  rw [hset.trim hdigits.readBigInt?]
  exact hset.read? hdigits.readBigInt? hlow hhigh

/-- Text of an integer of any size is read as the decimal of scale zero. -/
theorem read?_of_readBigInt? {text : List Char} {n : Int} (h : readBigInt? text = some n) :
    read? (Text.trim text) = some (ofInt n) := by
  have hset := SetOut.plain text
  rw [hset.trim h]
  exact hset.read? h (by decide) (by decide)

end Decimal
end ExprLang
