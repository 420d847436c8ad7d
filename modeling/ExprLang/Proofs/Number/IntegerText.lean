import ExprLang.Proofs.Number.Digits

/-!
# The text of integers

Integer text is a run of digits that one sign may precede.  The text of an integer is read as that
integer, and all readers of integers read integer text alike.
-/

namespace ExprLang

theorem intText_of_neg {n : Int} (hn : n < 0) :
    (intText n).toList = '-' :: natDigits n.natAbs := by
  rw [intText, if_pos hn, String.toList_ofList]

theorem intText_of_nonneg {n : Int} (hn : 0 ≤ n) : (intText n).toList = natDigits n.natAbs := by
  rw [intText, if_neg (Int.not_lt.mpr hn), String.toList_ofList]

/-- No sign is taken for a digit. -/
theorem isSign_of_isDigit {c : Char} (h : c.isDigit = true) : (c = '+' || c = '-') = false :=
  eq_false_of_isDigit (p := fun c => c = '+' || c = '-') (by decide) h

/-- A run of at least one digit. -/
def IsDigits (text : List Char) : Prop := text ≠ [] ∧ ∀ c ∈ text, c.isDigit

theorem isDigits_natDigits (n : Nat) : IsDigits (natDigits n) :=
  ⟨natDigits_ne_nil n, fun _ => isDigit_of_mem_natDigits⟩

/-- Integer text and the integer that it says. -/
inductive IntegerText : List Char → Int → Prop
  | digits {text : List Char} : IsDigits text → IntegerText text (digitsValue text)
  | plus {text : List Char} : IsDigits text → IntegerText ('+' :: text) (digitsValue text)
  | minus {text : List Char} : IsDigits text → IntegerText ('-' :: text) (-(digitsValue text : Int))

theorem IntegerText.ne_nil {text : List Char} {n : Int} (h : IntegerText text n) : text ≠ [] := by
  cases h with
  | digits hdigits => exact hdigits.1
  | plus | minus => exact List.cons_ne_nil _ _

namespace IsDigits

variable {text : List Char}

theorem exists_cons (h : IsDigits text) :
    ∃ c rest, text = c :: rest ∧ c ≠ '+' ∧ c ≠ '-' ∧ c ≠ '_' := by
  obtain ⟨c, rest, rfl⟩ := List.exists_cons_of_ne_nil h.1
  have hmark : (c = '+' || c = '-' || c = '_') = false :=
    eq_false_of_isDigit (p := fun c => c = '+' || c = '-' || c = '_') (by decide)
      (h.2 c List.mem_cons_self)
  simp only [Bool.or_eq_false_iff, decide_eq_false_iff_not] at hmark
  exact ⟨c, rest, rfl, hmark.1.1, hmark.1.2, hmark.2⟩

theorem splitSign (h : IsDigits text) : splitSign text = (false, text) := by
  obtain ⟨c, rest, rfl, hplus, hminus, -⟩ := h.exists_cons
  rw [ExprLang.splitSign]
  · exact fun _ heq => hminus (List.cons.inj heq).1
  · exact fun _ heq => hplus (List.cons.inj heq).1

theorem dropSign (h : IsDigits text) {sign : Char} (hsign : sign = '-' ∨ sign = '+') :
    dropSign sign text = none := by
  obtain ⟨c, rest, rfl, hplus, hminus, -⟩ := h.exists_cons
  have hne : c ≠ sign := by
    rcases hsign with rfl | rfl
    · exact hminus
    · exact hplus
  simp [ExprLang.dropSign, hne]

theorem dropSign_cons (h : IsDigits text) (sign : Char) :
    ExprLang.dropSign sign (sign :: text) = some text := by
  obtain ⟨c, rest, rfl, hplus, -⟩ := h.exists_cons
  simp [ExprLang.dropSign, hplus]

theorem readMagnitude (h : IsDigits text) : readMagnitude text = .ok (digitsValue text) := by
  have hfilter : text.filter Char.isDigit = text := List.filter_eq_self.mpr h.2
  obtain ⟨c, rest, hcons, -, -, hline⟩ := h.exists_cons
  have hhead : text.head? ≠ some '_' := by
    rw [hcons]
    exact fun heq => hline (Option.some_inj.mp heq)
  have hall : (text.all fun c => c.isDigit || c = '_') = true :=
    List.all_eq_true.mpr fun c hc => by rw [h.2 c hc, Bool.true_or]
  rw [ExprLang.readMagnitude, List.isEmpty_eq_false_iff.mpr h.1, if_neg Bool.false_ne_true,
    if_neg hhead, if_pos hall, hfilter]

end IsDigits

theorem integerText_intText (n : Int) : IntegerText (intText n).toList n := by
  rcases Int.lt_or_le n 0 with hn | hn
  · have htext := IntegerText.minus (isDigits_natDigits n.natAbs)
    rwa [digitsValue_natDigits, Int.ofNat_natAbs_of_nonpos (Int.le_of_lt hn), Int.neg_neg,
      ← intText_of_neg hn] at htext
  · have htext := IntegerText.digits (isDigits_natDigits n.natAbs)
    rwa [digitsValue_natDigits, Int.natAbs_of_nonneg hn, ← intText_of_nonneg hn] at htext

/-!
## Readers
-/

variable {text : List Char} {n : Int}

/-- The reader of integers, by what is behind the sign. -/
theorem readInt?_eq_some :
    readInt? text = some n ↔ IsDigits (splitSign text).2 ∧
      (if (splitSign text).1 then -(digitsValue (splitSign text).2 : Int)
        else digitsValue (splitSign text).2) = n := by
  rw [readInt?]
  cases splitSign text with
  | mk negative rest =>
      have hrefused : (rest.isEmpty || !rest.all Char.isDigit) = true ↔ ¬ IsDigits rest := by
        rw [IsDigits, Bool.or_eq_true, List.isEmpty_iff, Bool.not_eq_true', ← Bool.not_eq_true,
          List.all_eq_true]
        tauto
      dsimp only
      split
      · rename_i h
        exact iff_of_false nofun fun hread => hrefused.mp h hread.1
      · rename_i h
        have hdigits := not_not.mp (mt hrefused.mpr h)
        rw [Option.some_inj, and_iff_right hdigits]

theorem readInt?_eq_some_iff : readInt? text = some n ↔ IntegerText text n := by
  rw [readInt?_eq_some]
  constructor
  · fun_cases splitSign text with
    | case1 rest =>
        rintro ⟨hdigits, rfl⟩
        exact .minus hdigits
    | case2 rest =>
        rintro ⟨hdigits, rfl⟩
        exact .plus hdigits
    | case3 =>
        rintro ⟨hdigits, rfl⟩
        exact .digits hdigits
  · intro h
    cases h with
    | digits hdigits =>
        rw [hdigits.splitSign]
        exact ⟨hdigits, rfl⟩
    | plus hdigits => exact ⟨hdigits, rfl⟩
    | minus hdigits => exact ⟨hdigits, rfl⟩

theorem readInt?_intText (n : Int) : readInt? (intText n).toList = some n :=
  readInt?_eq_some_iff.mpr (integerText_intText n)

theorem readIntWithin?_eq_some_iff {low high : Int} :
    readIntWithin? low high text = some n ↔ IntegerText text n ∧ low ≤ n ∧ n ≤ high := by
  rw [readIntWithin?, Option.filter_eq_some_iff, readInt?_eq_some_iff, Bool.and_eq_true,
    decide_eq_true_eq, decide_eq_true_eq]

/-- What a reader of integers of any size makes of the text without its sign. -/
theorem readBigInt?_of_digits {digits : List Char} (hdigits : IsDigits digits)
    (hunsigned : (dropSign '+' ((dropSign '-' text).getD text)).getD
      ((dropSign '-' text).getD text) = digits) :
    readBigInt? text =
      some (if text.head? = some '-' then -(digitsValue digits : Int) else digitsValue digits) := by
  rw [readBigInt?, readBigInt]
  rw [hunsigned, hdigits.readMagnitude]
  by_cases hhead : text.head? = some '-'
  · simp [hhead, bind, Except.bind, pure, Except.pure, Except.toOption]
  · simp [hhead, bind, Except.bind, pure, Except.pure, Except.toOption]

theorem IntegerText.readBigInt? (h : IntegerText text n) : readBigInt? text = some n := by
  cases h with
  | digits hdigits =>
      obtain ⟨c, rest, hcons, -, hminus, -⟩ := hdigits.exists_cons
      have hhead : text.head? ≠ some '-' := by
        rw [hcons]
        exact fun heq => hminus (Option.some_inj.mp heq)
      rw [readBigInt?_of_digits hdigits, if_neg hhead]
      rw [hdigits.dropSign (.inl rfl), Option.getD_none, hdigits.dropSign (.inr rfl),
        Option.getD_none]
  | @plus digits hdigits =>
      rw [readBigInt?_of_digits hdigits]
      · rfl
      · have hkept : dropSign '-' ('+' :: digits) = none := rfl
        rw [hkept, Option.getD_none, hdigits.dropSign_cons, Option.getD_some]
  | @minus digits hdigits =>
      rw [readBigInt?_of_digits hdigits]
      · rfl
      · rw [hdigits.dropSign_cons, Option.getD_some, hdigits.dropSign (.inr rfl),
          Option.getD_none]

theorem mem_dropSign (sign : Char) {c : Char} (hc : c ∈ text) :
    c = sign ∨ c ∈ (dropSign sign text).getD text := by
  cases text with
  | nil => cases hc
  | cons first rest =>
      rw [dropSign]
      split
      · rename_i hdrop
        rw [Bool.and_eq_true, decide_eq_true_eq] at hdrop
        rw [← hdrop.1]
        exact List.mem_cons.mp hc
      · exact .inr hc

theorem mem_of_readMagnitude {m : Nat} (h : readMagnitude text = .ok m) :
    ∀ c ∈ text, c = '_' ∨ c.isDigit := by
  unfold readMagnitude at h
  split at h
  · cases h
  · split at h
    · cases h
    · split at h
      · rename_i hall
        intro c hc
        have hmark := List.all_eq_true.mp hall c hc
        rw [Bool.or_eq_true, decide_eq_true_eq] at hmark
        exact hmark.symm
      · cases h

/-- The characters of text that is read as an integer of any size. -/
theorem mem_of_readBigInt? (h : readBigInt? text = some n) :
    ∀ c ∈ text, c = '-' ∨ c = '+' ∨ c = '_' ∨ c.isDigit := by
  rw [readBigInt?, readBigInt] at h
  cases hread : readMagnitude ((dropSign '+' ((dropSign '-' text).getD text)).getD
      ((dropSign '-' text).getD text)) with
  | error fault =>
      rw [hread] at h
      cases h
  | ok magnitude =>
      intro c hc
      rcases mem_dropSign '-' hc with hminus | hunsigned
      · exact .inl hminus
      · rcases mem_dropSign '+' hunsigned with hplus | hrest
        · exact .inr (.inl hplus)
        · exact .inr (.inr (mem_of_readMagnitude hread c hrest))

/-- A test that fails for the signs, for the line between digits and for the digits. -/
def FailsOnIntegers (p : Char → Bool) : Prop :=
  p '-' = false ∧ p '+' = false ∧ p '_' = false ∧ ∀ k < 10, p (Nat.digitChar k) = false

instance (p : Char → Bool) : Decidable (FailsOnIntegers p) :=
  inferInstanceAs (Decidable (_ ∧ _ ∧ _ ∧ _))

theorem FailsOnIntegers.eq_false {p : Char → Bool} (hp : FailsOnIntegers p)
    (h : readBigInt? text = some n) : ∀ c ∈ text, p c = false := by
  obtain ⟨hminus, hplus, hline, hdigits⟩ := hp
  intro c hc
  rcases mem_of_readBigInt? h c hc with rfl | rfl | rfl | hdigit
  · exact hminus
  · exact hplus
  · exact hline
  · exact eq_false_of_isDigit hdigits hdigit

end ExprLang
