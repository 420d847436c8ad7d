import Mathlib.Algebra.Ring.Nat
import Mathlib.Data.List.Induction
import Mathlib.Data.List.TakeWhile
import Mathlib.Tactic.Common
import ExprLang.Number.Digits

/-!
# Digits and values

What a run of digits denotes, and the digits of a number.
-/

namespace ExprLang

/-!
## Values
-/

theorem digitsValue_eq_ofDigitChars (digits : List Char) :
    digitsValue digits = Nat.ofDigitChars 10 digits 0 :=
  Nat.ofDigitChars_eq_foldl.symm

theorem digitsValue_append (digits more : List Char) :
    digitsValue (digits ++ more) = 10 ^ more.length * digitsValue digits + digitsValue more := by
  simp only [digitsValue_eq_ofDigitChars, Nat.ofDigitChars_append]
  exact Nat.ofDigitChars_eq_ofDigitChars_zero

theorem digitsValue_replicate (n : Nat) : digitsValue (List.replicate n '0') = 0 := by
  rw [digitsValue_eq_ofDigitChars, Nat.ofDigitChars_replicate_zero, Nat.mul_zero]

@[simp]
theorem digitsValue_natDigits (n : Nat) : digitsValue (natDigits n) = n := by
  rw [digitsValue_eq_ofDigitChars, natDigits, Nat.ofDigitChars_ten_toDigits]

/-!
## The digits of a number
-/

theorem isDigit_of_mem_natDigits {n : Nat} {c : Char} (h : c ∈ natDigits n) :
    c.isDigit = true :=
  Nat.isDigit_of_mem_toDigits (by decide) (by decide) h

theorem exists_digitChar_of_isDigit {c : Char} (h : c.isDigit = true) :
    ∃ n < 10, c = Nat.digitChar n := by
  rw [Char.isDigit_iff_toNat] at h
  rcases h with ⟨hlow, hhigh⟩
  have hlow' : 48 ≤ c.toNat := hlow
  have hhigh' : c.toNat ≤ 57 := hhigh
  refine ⟨c.toNat - 48, by lia, ?_⟩
  apply Char.toNat_inj.mp
  rw [Nat.toNat_digitChar_of_lt_ten (by lia)]
  lia

/-- A test that fails for every one of the ten digits. -/
theorem eq_false_of_isDigit {p : Char → Bool}
    (hp : ∀ n < 10, p (Nat.digitChar n) = false) {c : Char} (h : c.isDigit = true) :
    p c = false := by
  rcases exists_digitChar_of_isDigit h with ⟨n, hn, rfl⟩
  exact hp n hn

theorem natDigits_ne_nil (n : Nat) : natDigits n ≠ [] := Nat.toDigits_ne_nil

theorem exists_cons_natDigits (n : Nat) :
    ∃ c cs, natDigits n = c :: cs ∧ c.isDigit = true := by
  rcases List.exists_cons_of_ne_nil (natDigits_ne_nil n) with ⟨c, cs, hcons⟩
  have hc : c ∈ natDigits n := by
    rw [hcons]
    exact List.mem_cons_self
  exact ⟨c, cs, hcons, isDigit_of_mem_natDigits hc⟩

theorem natDigits_eq_if (n : Nat) :
    natDigits n =
      if n < 10 then [n.digitChar] else natDigits (n / 10) ++ [(n % 10).digitChar] :=
  Nat.toDigits_eq_if (by decide)

/-- Only zero has digits that begin with a zero. -/
theorem head?_natDigits_ne_zero {n : Nat} (hn : n ≠ 0) : (natDigits n).head? ≠ some '0' := by
  induction n using Nat.strongRecOn with
  | ind n ih =>
      rw [natDigits_eq_if]
      split
      · rename_i hlt
        have hdigit : ∀ k < 10, k ≠ 0 → [k.digitChar].head? ≠ some '0' := by decide
        exact hdigit n hlt hn
      · rename_i hge
        rcases List.exists_cons_of_ne_nil (natDigits_ne_nil (n / 10)) with ⟨c, cs, hdigits⟩
        have hhead := ih (n / 10) (by lia) (by lia)
        rw [hdigits] at hhead ⊢
        exact hhead

theorem digitsValue_digitChar {n : Nat} (hn : n < 10) : digitsValue [n.digitChar] = n := by
  rw [digitsValue_eq_ofDigitChars, Nat.ofDigitChars_cons_digitChar_of_lt_ten hn,
    Nat.ofDigitChars_nil, Nat.mul_zero, Nat.zero_add]

/-- Digits that do not begin with a zero are the digits of the number that they denote. -/
theorem natDigits_digitsValue_of_head?_ne_zero {digits : List Char} (hne : digits ≠ [])
    (hdigits : ∀ c ∈ digits, c.isDigit = true) (hhead : digits.head? ≠ some '0') :
    natDigits (digitsValue digits) = digits ∧ digitsValue digits ≠ 0 := by
  induction digits using List.reverseRecOn with
  | nil => exact absurd rfl hne
  | append_singleton front c ih =>
      rcases exists_digitChar_of_isDigit (hdigits c (by simp)) with ⟨d, hd, rfl⟩
      by_cases hfront : front = []
      · subst hfront
        rw [List.nil_append, digitsValue_digitChar hd, natDigits, Nat.toDigits_of_lt_base hd]
        refine ⟨rfl, ?_⟩
        rintro rfl
        exact hhead rfl
      · rw [List.head?_append, Option.or_of_isSome (List.isSome_head?.mpr hfront)] at hhead
        have hfront' : ∀ c ∈ front, c.isDigit = true := fun c hc => hdigits c (by simp [hc])
        rcases ih hfront hfront' hhead with ⟨hsame, hpos⟩
        have hvalue : digitsValue (front ++ [d.digitChar]) = 10 * digitsValue front + d := by
          rw [digitsValue_append, digitsValue_digitChar hd]
          rfl
        have hdigit : Nat.toDigits 10 d = [d.digitChar] := Nat.toDigits_of_lt_base hd
        refine ⟨?_, by lia⟩
        rw [hvalue, natDigits, ← Nat.toDigits_append_toDigits (by decide) (by lia) hd, hdigit]
        exact congrArg (· ++ [d.digitChar]) hsame

theorem digitsValue_dropWhile_zero (digits : List Char) :
    digitsValue (digits.dropWhile (· = '0')) = digitsValue digits := by
  have hzeros : digits.takeWhile (· = '0') =
      List.replicate (digits.takeWhile (· = '0')).length '0' :=
    List.eq_replicate_of_mem fun c hc => by simpa using List.mem_takeWhile_imp hc
  conv_rhs => rw [← List.takeWhile_append_dropWhile (p := (· = '0')) (l := digits)]
  rw [digitsValue_append, hzeros, digitsValue_replicate, Nat.mul_zero, Nat.zero_add]

/-- Digits without the zeros in front are the digits of the number that they denote, unless it is
zero. -/
theorem natDigits_digitsValue {digits : List Char} (hdigits : ∀ c ∈ digits, c.isDigit = true)
    (hpos : digitsValue digits ≠ 0) :
    natDigits (digitsValue digits) = digits.dropWhile (· = '0') := by
  rw [← digitsValue_dropWhile_zero] at hpos ⊢
  refine (natDigits_digitsValue_of_head?_ne_zero ?_ ?_ ?_).1
  · intro hnil
    rw [hnil] at hpos
    exact hpos rfl
  · exact fun c hc => hdigits c ((List.dropWhile_sublist _).subset hc)
  · intro hzero
    have hstop := List.head?_dropWhile_not (· = '0') digits
    rw [hzero] at hstop
    cases hstop

theorem length_natDigits {n k : Nat} (hlow : 10 ^ k ≤ n) (hhigh : n < 10 ^ (k + 1)) :
    (natDigits n).length = k + 1 := by
  have hupper : (natDigits n).length ≤ k + 1 :=
    (Nat.length_toDigits_le_iff (by decide) (Nat.succ_pos k)).mpr hhigh
  have hlower : k < (natDigits n).length := by
    rcases Nat.eq_zero_or_pos k with rfl | hk
    · exact List.length_pos_iff.mpr (natDigits_ne_nil n)
    · refine Nat.lt_of_not_le fun hle => ?_
      have hlt := (Nat.length_toDigits_le_iff (by decide) hk).mp hle
      lia
  lia

end ExprLang
