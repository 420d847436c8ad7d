/-!
# Sets of code points

A Unicode property is a table of inclusive ranges in ascending order.  `inRanges` decides
membership and stops at the first range past the code point.
-/

namespace ExprLang
namespace Text

/-- Whether `n` lies in one of the ascending inclusive ranges. -/
def inRanges : List (Nat × Nat) → Nat → Bool
  | [], _ => false
  | (low, high) :: rest, n => if n < low then false else n ≤ high || inRanges rest n

@[simp]
theorem inRanges_nil (n : Nat) : inRanges [] n = false := rfl

/-- A range before the code point does not matter. -/
theorem inRanges_cons_of_lt {low high n : Nat} {rest : List (Nat × Nat)}
    (hlow : low ≤ n) (hhigh : high < n) :
    inRanges ((low, high) :: rest) n = inRanges rest n := by
  simp [inRanges, Nat.not_lt.mpr hlow, Nat.not_le.mpr hhigh]

end Text
end ExprLang
