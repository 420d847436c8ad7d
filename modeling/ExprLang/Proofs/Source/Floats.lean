import Mathlib.Tactic.Common
import ExprLang.Proofs.Number.IntegerText
import ExprLang.Proofs.Number.Shortest
import ExprLang.Proofs.Source.Lexemes

/-!
# Floating literals

The text of a finite number without a sign is one lexeme, and the number it is read as is the
one that was written.
-/

namespace ExprLang

namespace Binary

variable {f : BinaryFormat} {x : Binary f}

/-!
## Exact numbers
-/

theorem ofMagnitude_magnitude (hsign : x.isNegative = false) :
    ofMagnitude f false x.magnitude = x := by
  have hlt : x.bits.toNat < 2 ^ (f.width - 1) := by
    unfold isNegative at hsign
    rw [BitVec.msb_eq_decide, decide_eq_false_iff_not] at hsign
    exact Nat.lt_of_not_le hsign
  have hmagnitude : x.magnitude = x.bits.toNat := Nat.mod_eq_of_lt hlt
  unfold ofMagnitude
  rw [if_neg Bool.false_ne_true, hmagnitude, BitVec.ofNat_toNat, BitVec.setWidth_eq]

/-- A decimal in the rounding interval of a number is read as that number. -/
theorem ofDecimal_of_rounds (hf : 1 < f.precision) (hfinite : x.isFinite)
    (hsign : x.isNegative = false) {digits : Nat} {exponent : Int} (hdigits : 0 < digits)
    (hlow : -400 ≤ exponent) (hhigh : exponent ≤ 400)
    (h : x.Rounds (decimalUnits f exponent digits)) : ofDecimal f false digits exponent = x := by
  have hunits : f.inUnits (digits * Nat.pow 10 exponent.toNat) (Nat.pow 10 (-exponent).toNat) =
      decimalUnits f exponent digits := by
    have hpow : (10 : ℚ) ^ exponent = 10 ^ exponent.toNat / 10 ^ (-exponent).toNat := by
      rw [← zpow_natCast, ← zpow_natCast, ← zpow_sub₀ (by norm_num)]
      congr 1
      lia
    unfold BinaryFormat.inUnits decimalUnits
    simp only [Nat.pow_eq]
    rw [hpow]
    push_cast
    ring
  have hnum : 0 < digits * Nat.pow 10 exponent.toNat :=
    Nat.mul_pos hdigits (Nat.pow_pos (by decide))
  have hden : 0 < Nat.pow 10 (-exponent).toNat := Nat.pow_pos (by decide)
  have hmagnitude := magnitudeOfRatio_of_rounds hf hfinite hnum hden (hunits ▸ h)
  unfold ofDecimal
  dsimp only
  rw [if_neg (by lia), if_neg (by lia), if_neg (by lia), ofRatio, hmagnitude,
    ofMagnitude_magnitude hsign]

end Binary

/-!
## Exponents
-/

/-- The exponent part of a literal, which may be missing, and its value. -/
inductive Mark : List Char → Int → Prop
  | missing : Mark [] 0
  | exponent (n : Int) : Mark ('e' :: (intText n).toList) n

namespace Mark

variable {mark rest : List Char} {exponent : Int}

theorem readMarkedExponent? (h : Mark mark exponent) :
    Binary.readMarkedExponent? mark = some exponent := by
  cases h with
  | missing => rfl
  | exponent n => exact readInt?_intText exponent

theorem exponentPart (h : Mark mark exponent) (hrest : Apart rest) :
    Lexeme.exponentPart (mark ++ rest) = mark := by
  cases h with
  | missing => exact Lexeme.exponentPart_of_apart hrest
  | exponent n =>
      have hdigits : (natDigits exponent.natAbs ++ rest).takeWhile Char.isDigit =
          natDigits exponent.natAbs :=
        Lexeme.takeWhile_append_stop (fun c => isDigit_of_mem_natDigits)
          (Lexeme.isDigit_of_apart hrest)
      have hempty : (natDigits exponent.natAbs).isEmpty = false :=
        List.isEmpty_eq_false_iff.mpr (natDigits_ne_nil _)
      rcases lt_or_ge exponent 0 with hn | hn
      · rw [intText_of_neg hn]
        simp [Lexeme.exponentPart, hdigits, hempty]
      · rcases exists_cons_natDigits exponent.natAbs with ⟨c, cs, hcons, hc⟩
        have hsign := isSign_of_isDigit hc
        rw [hcons, List.cons_append] at hdigits
        rw [intText_of_nonneg hn, hcons]
        simp [Lexeme.exponentPart, hsign, hdigits]

/-- No digit goes on after the digits in front of the exponent part. -/
theorem stop (h : Mark mark exponent) (hrest : Apart rest) :
    ∀ c ∈ (mark ++ rest).head?, c.isDigit = false := by
  cases h with
  | missing => exact Lexeme.isDigit_of_apart hrest
  | exponent n =>
      intro c hc
      cases hc
      rfl

end Mark

/-!
## Lexemes
-/

/-- In front of text that does not continue it, the text is a floating literal of a decimal. -/
structure Reads (text : List Char) (digits : Nat) (exponent : Int) : Prop where
  head : ∃ c cs, text = c :: cs ∧ c.isDigit = true
  next : ∀ rest, Apart rest → Lexeme.next? (text ++ rest) =
    some ⟨text, .float (Binary.ofDecimal .double false digits exponent)⟩

section Texts

variable {mark : List Char} {exponent : Int}

theorem reads_pointed (whole fraction : List Char) (hne : whole ≠ []) (hwhole : ∀ c ∈ whole, c.isDigit = true)
    (hfraction : ∀ c ∈ fraction, c.isDigit = true) (hmark : Mark mark exponent) :
    Reads (whole ++ '.' :: (fraction ++ mark)) (digitsValue (whole ++ fraction))
      (exponent - fraction.length) := by
  have hpoint (text : List Char) : ∀ c ∈ ('.' :: text).head?, c.isDigit = false := by
    intro c hc
    cases hc
    rfl
  rcases List.exists_cons_of_ne_nil hne with ⟨c, cs, rfl⟩
  have hread : Binary.readUnsigned? (c :: cs ++ '.' :: (fraction ++ mark)) =
      some (digitsValue (c :: cs ++ fraction), exponent - fraction.length) := by
    have hstop : ∀ d ∈ mark.head?, d.isDigit = false := by
      have hnil : Apart [] := fun d hd => by cases hd
      have hend := hmark.stop hnil
      rw [List.append_nil] at hend
      exact hend
    unfold Binary.readUnsigned?
    simp only [Lexeme.takeWhile_append_stop hwhole (hpoint _),
      Lexeme.dropWhile_append_stop hwhole (hpoint _),
      Lexeme.takeWhile_append_stop hfraction hstop,
      Lexeme.dropWhile_append_stop hfraction hstop, hmark.readMarkedExponent?]
    rfl
  refine ⟨⟨c, _, rfl, hwhole c List.mem_cons_self⟩, fun rest hrest => ?_⟩
  have happend : c :: cs ++ '.' :: (fraction ++ mark) ++ rest =
      c :: cs ++ '.' :: (fraction ++ (mark ++ rest)) := by
    simp
  have hnumber : Lexeme.number? (c :: cs ++ '.' :: (fraction ++ (mark ++ rest))) =
      some (Lexeme.float (c :: cs ++ '.' :: (fraction ++ mark))) := by
    unfold Lexeme.number?
    simp only [Lexeme.takeWhile_append_stop hwhole (hpoint _),
      Lexeme.dropWhile_append_stop hwhole (hpoint _),
      Lexeme.takeWhile_append_stop hfraction (hmark.stop hrest),
      Lexeme.dropWhile_append_stop hfraction (hmark.stop hrest), hmark.exponentPart hrest]
    simp
  rw [happend]
  refine (Lexeme.next?_of_number? (hwhole c List.mem_cons_self) hnumber).trans ?_
  rw [Lexeme.float, hread]
  rfl

theorem reads_marked {whole : List Char} (hne : whole ≠ [])
    (hwhole : ∀ c ∈ whole, c.isDigit = true) (n : Int) :
    Reads (whole ++ 'e' :: (intText n).toList) (digitsValue whole) n := by
  have hmark := Mark.exponent n
  have hletter (text : List Char) : ∀ c ∈ ('e' :: text).head?, c.isDigit = false := by
    intro c hc
    cases hc
    rfl
  rcases List.exists_cons_of_ne_nil hne with ⟨c, cs, rfl⟩
  have hread : Binary.readUnsigned? (c :: cs ++ 'e' :: (intText n).toList) =
      some (digitsValue (c :: cs), n) := by
    unfold Binary.readUnsigned?
    simp only [Lexeme.takeWhile_append_stop hwhole (hletter _),
      Lexeme.dropWhile_append_stop hwhole (hletter _)]
    simp [hmark.readMarkedExponent?]
  refine ⟨⟨c, _, rfl, hwhole c List.mem_cons_self⟩, fun rest hrest => ?_⟩
  have happend : c :: cs ++ 'e' :: (intText n).toList ++ rest =
      c :: cs ++ ('e' :: ((intText n).toList ++ rest)) := by
    simp
  have hpart : Lexeme.exponentPart ('e' :: ((intText n).toList ++ rest)) =
      'e' :: (intText n).toList :=
    hmark.exponentPart hrest
  have hnumber : Lexeme.number? (c :: cs ++ 'e' :: ((intText n).toList ++ rest)) =
      some (Lexeme.float (c :: cs ++ 'e' :: (intText n).toList)) := by
    unfold Lexeme.number?
    simp only [Lexeme.takeWhile_append_stop hwhole (hletter _),
      Lexeme.dropWhile_append_stop hwhole (hletter _)]
    simp [hpart]
  rw [happend]
  refine (Lexeme.next?_of_number? (hwhole c List.mem_cons_self) hnumber).trans ?_
  rw [Lexeme.float, hread]
  rfl

end Texts

/-!
## Layouts
-/

section Layouts

variable {digits : Nat} {exponent : Int}

theorem isDigit_of_mem_replicate {n : Nat} {c : Char} (h : c ∈ List.replicate n '0') :
    c.isDigit = true := by
  rw [List.eq_of_mem_replicate h]
  rfl

theorem isDigit_of_mem_zero : ∀ c ∈ ['0'], c.isDigit = true :=
  List.forall_mem_singleton.mpr rfl

/-- All digits are behind the point. -/
theorem reads_positional_of_neg (hexponent : exponent < 0) :
    Reads (positional (natDigits digits) exponent) digits
      (exponent + 1 - (natDigits digits).length) := by
  have hread := reads_pointed ['0']
    (List.replicate (-exponent - 1).toNat '0' ++ natDigits digits) (List.cons_ne_nil _ _)
    isDigit_of_mem_zero ?_ .missing
  · have hvalue : digitsValue
        (['0'] ++ (List.replicate (-exponent - 1).toNat '0' ++ natDigits digits)) = digits := by
      rw [digitsValue_append, digitsValue_append, digitsValue_replicate, digitsValue_natDigits]
      have hzero : digitsValue ['0'] = 0 := rfl
      rw [hzero, Nat.mul_zero, Nat.mul_zero, Nat.zero_add, Nat.zero_add]
    have hplace : (0 : Int) -
        (List.replicate (-exponent - 1).toNat '0' ++ natDigits digits).length =
        exponent + 1 - (natDigits digits).length := by
      rw [List.length_append, List.length_replicate]
      lia
    rw [hvalue, hplace, List.append_nil] at hread
    rw [positional, if_pos hexponent]
    exact hread
  · intro c hc
    rcases List.mem_append.mp hc with hc | hc
    · exact isDigit_of_mem_replicate hc
    · exact isDigit_of_mem_natDigits hc

/-- The point is among the digits. -/
theorem reads_positional_of_lt (hexponent : 0 ≤ exponent)
    (hlength : exponent.toNat + 1 < (natDigits digits).length) :
    Reads (positional (natDigits digits) exponent) digits
      (exponent + 1 - (natDigits digits).length) := by
  have hwhole : (natDigits digits).take (exponent.toNat + 1) ≠ [] := by
    refine List.length_pos_iff.mp ?_
    rw [List.length_take]
    lia
  have hfraction : (natDigits digits).drop (exponent.toNat + 1) ≠ [] := by
    refine List.length_pos_iff.mp ?_
    rw [List.length_drop]
    lia
  have hread := reads_pointed _ ((natDigits digits).drop (exponent.toNat + 1)) hwhole
    (fun c hc => isDigit_of_mem_natDigits (List.mem_of_mem_take hc))
    (fun c hc => isDigit_of_mem_natDigits (List.mem_of_mem_drop hc)) .missing
  have hplace : (0 : Int) - ((natDigits digits).drop (exponent.toNat + 1)).length =
      exponent + 1 - (natDigits digits).length := by
    rw [List.length_drop]
    lia
  have hzeros : exponent.toNat + 1 - (natDigits digits).length = 0 := by lia
  rw [List.take_append_drop, digitsValue_natDigits, hplace, List.append_nil] at hread
  rw [positional, if_neg (Int.not_lt.mpr hexponent)]
  dsimp only
  rw [hzeros, List.replicate_zero, List.append_nil, List.isEmpty_eq_false_iff.mpr hfraction]
  exact hread

/-- Zeros fill the digits up to the point. -/
theorem reads_positional_of_le (hexponent : 0 ≤ exponent)
    (hlength : (natDigits digits).length ≤ exponent.toNat + 1) :
    Reads (positional (natDigits digits) exponent)
      (digits * Nat.pow 10 (exponent.toNat + 2 - (natDigits digits).length)) (-1) := by
  have hread := reads_pointed
    (natDigits digits ++ List.replicate (exponent.toNat + 1 - (natDigits digits).length) '0')
    ['0'] ?_ ?_ isDigit_of_mem_zero .missing
  · have hvalue : digitsValue (natDigits digits ++
        List.replicate (exponent.toNat + 1 - (natDigits digits).length) '0' ++ ['0']) =
        digits * Nat.pow 10 (exponent.toNat + 2 - (natDigits digits).length) := by
      have hzeros : exponent.toNat + 2 - (natDigits digits).length =
          exponent.toNat + 1 - (natDigits digits).length + 1 := by
        lia
      have hlast : digitsValue ['0'] = 0 := rfl
      rw [digitsValue_append, digitsValue_append, digitsValue_replicate, digitsValue_natDigits,
        hlast, List.length_replicate, hzeros, Nat.pow_eq, Nat.pow_succ, List.length_singleton]
      ring
    rw [hvalue, List.append_nil] at hread
    rw [positional, if_neg (Int.not_lt.mpr hexponent)]
    dsimp only
    rw [List.take_of_length_le hlength, List.drop_of_length_le hlength]
    exact hread
  · intro hnil
    exact natDigits_ne_nil digits (List.append_eq_nil_iff.mp hnil).1
  · intro c hc
    rcases List.mem_append.mp hc with hc | hc
    · exact isDigit_of_mem_natDigits hc
    · exact isDigit_of_mem_replicate hc

theorem reads_exponential (digits : Nat) (exponent : Int) :
    Reads (exponential .literal (natDigits digits) exponent) digits
      (exponent + 1 - (natDigits digits).length) := by
  rcases exists_cons_natDigits digits with ⟨c, cs, hcons, hc⟩
  have hdigits : ∀ d ∈ c :: cs, d.isDigit = true := by
    intro d hd
    exact isDigit_of_mem_natDigits (hcons ▸ hd)
  have hvalue := digitsValue_natDigits digits
  rw [hcons] at hvalue ⊢
  cases cs with
  | nil =>
      have hread := reads_marked (List.cons_ne_nil c []) hdigits exponent
      have hplace : exponent + 1 - ([c].length : Nat) = exponent := by
        rw [List.length_singleton]
        lia
      rw [hvalue] at hread
      rw [hplace]
      exact hread
  | cons d ds =>
      have hread := reads_pointed [c] (d :: ds) (List.cons_ne_nil c []) (fun e he => ?_)
        (fun e he => hdigits e (List.mem_cons_of_mem c he)) (.exponent exponent)
      · have hjoin : [c] ++ d :: ds = c :: d :: ds := rfl
        have hplace : exponent + 1 - ((c :: d :: ds).length : Nat) =
            exponent - ((d :: ds).length : Nat) := by
          rw [List.length_cons]
          lia
        rw [hjoin, hvalue] at hread
        rw [hplace]
        exact hread
      · exact hdigits e (List.mem_singleton.mp he ▸ List.mem_cons_self)

end Layouts

/-!
## Literals
-/

namespace Binary

section Literal

variable {x : Binary64}

theorem literal_of_nonzero (hfinite : x.isFinite) (hsign : x.isNegative = false)
    (hne : x.magnitude ≠ 0) : x.literal.toList =
      if -4 ≤ x.shortest.exponent ∧ x.shortest.exponent < 16 then
        positional (natDigits x.shortest.digits) x.shortest.exponent
      else exponential .literal (natDigits x.shortest.digits) x.shortest.exponent := by
  have hlt : x.magnitude < BinaryFormat.double.infinityBits := by
    unfold isFinite at hfinite
    rw [decide_eq_true_eq] at hfinite
    exact hfinite
  have hnan : x.isNaN = false := decide_eq_false (Nat.not_lt.mpr hlt.le)
  have hinfinite : x.isInfinite = false := decide_eq_false (Nat.ne_of_lt hlt)
  have hzero : x.isZero = false := decide_eq_false hne
  unfold literal textIn
  rw [hsign, hnan, hinfinite, hzero]
  simp only [Bool.false_eq_true, if_false, List.nil_append, String.toList_ofList,
    Bool.and_eq_true, decide_eq_true_eq]
  rfl

theorem literal_of_zero (hsign : x.isNegative = false) (hzero : x.magnitude = 0) :
    x.literal.toList = ['0', '.', '0'] := by
  have hx : x = ofMagnitude .double false 0 := by
    rw [← hzero, ofMagnitude_magnitude hsign]
  rw [hx]
  rfl

/-- The literal denotes a decimal in the rounding interval. -/
theorem exists_reads_literal (hfinite : x.isFinite) (hsign : x.isNegative = false)
    (hne : x.magnitude ≠ 0) : ∃ digits exponent, Reads x.literal.toList digits exponent ∧
      0 < digits ∧ (-400 ≤ exponent ∧ exponent ≤ 400) ∧
      x.Rounds (decimalUnits .double exponent digits) := by
  rcases shortest_spec hfinite hne with ⟨hnormal, hrange, hrounds⟩
  have hcountPos := hnormal.count_pos
  have hcountLe := hnormal.count_le
  have hdigits : 0 < x.shortest.digits :=
    Nat.lt_of_lt_of_le (Nat.pow_pos (by decide)) hnormal.low
  have hlength : (natDigits x.shortest.digits).length = x.shortest.count := by
    have hcount : x.shortest.count = x.shortest.count - 1 + 1 := by lia
    have hhigh := hnormal.high
    rw [hcount] at hhigh ⊢
    exact length_natDigits hnormal.low hhigh
  have hplace : x.shortest.place =
      x.shortest.exponent + 1 - (natDigits x.shortest.digits).length := by
    rw [hlength, DecimalDigits.place]
    lia
  rw [hplace] at hrounds
  rw [literal_of_nonzero hfinite hsign hne]
  split
  · rcases lt_or_ge x.shortest.exponent 0 with hneg | hnonneg
    · exact ⟨_, _, reads_positional_of_neg hneg, hdigits, ⟨by lia, by lia⟩, hrounds⟩
    · rcases Nat.lt_or_ge (x.shortest.exponent.toNat + 1)
        (natDigits x.shortest.digits).length with hlt | hle
      · exact ⟨_, _, reads_positional_of_lt hnonneg hlt, hdigits, ⟨by lia, by lia⟩, hrounds⟩
      · refine ⟨_, _, reads_positional_of_le hnonneg hle,
          Nat.mul_pos hdigits (Nat.pow_pos (by decide)), by decide, ?_⟩
        have hpoint : (-1 : Int) +
            (x.shortest.exponent.toNat + 2 - (natDigits x.shortest.digits).length : Nat) =
            x.shortest.exponent + 1 - (natDigits x.shortest.digits).length := by
          lia
        rw [decimalUnits_mul_pow, hpoint]
        exact hrounds
  · exact ⟨_, _, reads_exponential _ _, hdigits, ⟨by lia, by lia⟩, hrounds⟩

/-- In front of text that does not continue it, the literal is read as the number. -/
theorem next?_literal (hfinite : x.isFinite) (hsign : x.isNegative = false) :
    (∃ c cs, x.literal.toList = c :: cs ∧ c.isDigit = true) ∧
      ∀ rest, Apart rest →
        Lexeme.next? (x.literal.toList ++ rest) = some ⟨x.literal.toList, .float x⟩ := by
  by_cases hzero : x.magnitude = 0
  · have hread := reads_pointed ['0'] ['0'] (List.cons_ne_nil _ _) isDigit_of_mem_zero
      isDigit_of_mem_zero .missing
    have hx : ofDecimal .double false (digitsValue (['0'] ++ ['0'])) (0 - ['0'].length) = x := by
      have hofDecimal : ofDecimal .double false (digitsValue (['0'] ++ ['0'])) (0 - ['0'].length) =
          ofMagnitude .double false 0 := rfl
      rw [hofDecimal, ← hzero, ofMagnitude_magnitude hsign]
    rw [literal_of_zero hsign hzero]
    refine ⟨hread.head, fun rest hrest => ?_⟩
    have hnext := hread.next rest hrest
    rw [hx] at hnext
    exact hnext
  · obtain ⟨digits, exponent, hread, hdigits, hrange, hrounds⟩ :=
      exists_reads_literal hfinite hsign hzero
    refine ⟨hread.head, fun rest hrest => ?_⟩
    rw [hread.next rest hrest,
      ofDecimal_of_rounds (by decide) hfinite hsign hdigits hrange.1 hrange.2 hrounds]

end Literal

end Binary

end ExprLang
