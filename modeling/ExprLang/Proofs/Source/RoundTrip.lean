import Mathlib.Tactic.Common
import ExprLang.Proofs.Source.Spelling

/-!
# Reading back what was written

The text of a writable expression reads as the expression, by induction on the expression: the
text of every part spells it.
-/

namespace ExprLang

open Grammar

namespace Expr

variable {e : Expr}

/-!
## First characters
-/

theorem starts_of_digit {text rest : List Char}
    (h : ∃ c cs, text = c :: cs ∧ c.isDigit = true) : Starts (text ++ rest) := by
  rcases h with ⟨c, cs, rfl, hc⟩
  refine ⟨c, cs ++ rest, rfl, ?_, ?_⟩ <;>
  · intro heq
    subst heq
    cases hc

theorem starts_of_isName {name : String} {rest : List Char} (hname : Lexeme.isName name) :
    Starts (name.toList ++ rest) := by
  rcases Lexeme.exists_start_of_isName hname with ⟨c, cs, hlist, hstart⟩
  rw [hlist]
  refine ⟨c, cs ++ rest, rfl, ?_, ?_⟩ <;>
  · intro heq
    subst heq
    cases hstart

/-- The text of a writable expression begins with no part of an operator. -/
theorem Writable.starts (h : e.Writable) (rest : List Char) :
    Starts (e.text.toList ++ rest) := by
  induction h generalizing rest with
  | null => exact ⟨'n', _, rfl, by decide, by decide⟩
  | bool b =>
      cases b with
      | true => exact ⟨'t', _, rfl, by decide, by decide⟩
      | false => exact ⟨'f', _, rfl, by decide, by decide⟩
  | int hn =>
      rw [text, intText_of_nonneg (Int64.le_iff_toInt_le.mp hn)]
      exact starts_of_digit (exists_cons_natDigits _)
  | bigInt hn =>
      rw [text, String.toList_ofList]
      exact starts_of_digit (exists_cons_natDigits _)
  | float hfinite hsign => exact starts_of_digit (Binary.next?_literal hfinite hsign).1
  | ident hname => exact starts_of_isName hname
  | callQualified hspace _ _ =>
      simp only [text, String.toList_append, List.append_assoc]
      exact starts_of_isName hspace
  | member _ _ _ ih | index _ _ _ ih _ | call _ _ _ ih _ =>
      simp only [text, String.toList_append, List.append_assoc]
      exact ih _
  | _ =>
      simp only [text, literal, String.toList_append, String.toList_ofList, List.append_assoc]
      exact ⟨_, _, rfl, by decide, by decide⟩

/-!
## The round trip
-/

theorem Writable.spelt (h : e.Writable) : e.Spelt := by
  induction h with
  | null => exact spelt_null
  | bool b => exact spelt_bool b
  | int hn => exact spelt_int hn
  | bigInt hn => exact spelt_bigInt hn
  | float hfinite hsign => exact spelt_float hfinite hsign
  | str s => exact spelt_str s
  | ident hname => exact spelt_ident hname
  | member _ htakes hname ih => exact spelt_member ih htakes hname
  | index _ hop _ iho ihk => exact spelt_index iho hop ihk
  | call _ hop _ ihc iha => exact spelt_call ihc hop iha
  | callQualified hspace hname _ iha => exact spelt_callQualified hspace hname iha
  | lambda hparams _ ih => exact spelt_lambda hparams ih
  | list _ ih => exact spelt_list ih
  | set _ ih => exact spelt_set ih
  | map hne _ _ ihk ihv => exact spelt_map hne ihk ihv
  | binary op _ hl _ hr ihl ihr => exact spelt_binary op ihl hl ihr hr
  | unary op hoperand hop ih => exact spelt_unary op ih hop hoperand.starts
  | ternary _ hc _ hy _ hn ihc ihy ihn => exact spelt_ternary ihc hc ihy hy ihn hn
  | assign _ ht _ iht ihv => exact spelt_assign iht ht ihv
  | concat _ hl _ hr ihl ihr => exact spelt_concat ihl hl ihr hr
  | seq _ _ ihl ihr => exact spelt_seq ihl ihr

/-- An expression with colons, points and quotes in every role. -/
def mixedTree : Expr :=
  .seq
    (.assign (.ident "total")
      (.ternary (.ident "big")
        (.call (.ident ("math" ++ ":" ++ "max")) [.float ⟨0x3ff8000000000000⟩, .int 7])
        (.member (.index (.ident "row") (.str "it's")) "size")))
    (.lambda ["k"]
      (.map [(.ident "k", .call (.ident "f") [.bigInt (String.ofList (natDigits (2 ^ 63)))])]))

theorem writable_mixedTree : mixedTree.Writable := by
  have hqualified : Writable (.call (.ident ("math" ++ ":" ++ "max"))
      [.float ⟨0x3ff8000000000000⟩, .int 7]) := by
    refine .callQualified (by decide) (by decide) (List.forall_mem_cons.mpr ⟨?_, ?_⟩)
    · exact .float (by decide) (by decide)
    · exact List.forall_mem_singleton.mpr (.int (by decide))
  have hmember : Writable (.member (.index (.ident "row") (.str "it's")) "size") :=
    .member (.index (.ident (by decide)) rfl (.str _)) rfl (by decide)
  have hcall : Writable (.call (.ident "f") [.bigInt (String.ofList (natDigits (2 ^ 63)))]) :=
    .call (.ident (by decide)) rfl (List.forall_mem_singleton.mpr (.bigInt (Nat.le_refl _)))
  have hmap : Writable
      (.map [(.ident "k", .call (.ident "f") [.bigInt (String.ofList (natDigits (2 ^ 63)))])]) := by
    refine .map (List.cons_ne_nil _ _) (List.forall_mem_singleton.mpr ?_)
      (List.forall_mem_singleton.mpr hcall)
    exact .ident (by decide)
  refine .seq (.assign (.ident ?_) rfl (.ternary (.ident ?_) rfl hqualified rfl hmember rfl))
    (.lambda (List.forall_mem_singleton.mpr ?_) hmap) <;> decide

end Expr
end ExprLang
