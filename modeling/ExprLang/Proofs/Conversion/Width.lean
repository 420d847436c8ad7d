import Mathlib.Data.Int.ModEq
import Mathlib.Data.Rat.Floor
import ExprLang.Proofs.Conversion.Projection
import ExprLang.Proofs.Operator.Order

/-!
# Conversion between widths

A conversion of an integer or a decimal to a kind of integers drops the fraction toward zero and
keeps the low bits that the kind has room for, the highest of them as the sign.  It goes through
64 and 32 bits on its way, which changes nothing, since each step keeps all bits that the next one
keeps.  A conversion to a wider type keeps the number, so the way back finds the value again.
-/

namespace ExprLang

/-!
## Integer parts and low bits
-/

/-- The number without its fraction: it is truncated toward zero. -/
def integerPart (x : ℚ) : Int := if x < 0 then ⌈x⌉ else ⌊x⌋

theorem integerPart_intCast (n : Int) : integerPart n = n := by
  unfold integerPart
  split
  · exact Int.ceil_intCast n
  · exact Int.floor_intCast n

theorem integerPart_div (n : Int) {m : Nat} (hm : 0 < m) :
    integerPart ((n : ℚ) / m) = n.tdiv m := by
  have hm' : (0 : ℚ) < m := Nat.cast_pos.mpr hm
  have hsign : (n : ℚ) / m < 0 ↔ n < 0 := by
    rw [div_lt_iff₀ hm', zero_mul, Int.cast_lt_zero]
  unfold integerPart
  split
  · rename_i hneg
    rw [hsign] at hneg
    have hceil : ⌈(n : ℚ) / m⌉ = -⌊((-n : Int) : ℚ) / m⌋ := by
      rw [Int.cast_neg, neg_div, Int.floor_neg, neg_neg]
    rw [hceil, Rat.floor_intCast_div_natCast, ← Int.tdiv_eq_ediv_of_nonneg (by omega),
      Int.neg_tdiv, neg_neg]
  · rename_i hnonneg
    rw [hsign, not_lt] at hnonneg
    rw [Rat.floor_intCast_div_natCast, Int.tdiv_eq_ediv_of_nonneg hnonneg]

theorem Decimal.truncated_eq (d : Decimal) : d.truncated = integerPart d.toRat := by
  have hquotient : d.toRat =
      ((d.unscaled * (10 ^ (-d.scale).toNat : Nat) : Int) : ℚ) / (10 ^ d.scale.toNat : Nat) := by
    have hpow : (10 : ℚ) ^ (-d.scale) = 10 ^ (-d.scale).toNat / 10 ^ d.scale.toNat := by
      rw [← zpow_natCast, ← zpow_natCast, ← zpow_sub₀ (by norm_num),
        ← Int.toNat_sub_toNat_neg d.scale]
      congr 1
      omega
    rw [toRat, hpow]
    push_cast
    ring
  rw [hquotient, integerPart_div _ (by positivity)]
  rfl

/-- An integer with a sign that has the given number of bits, the low ones of another integer. -/
structure IsLowBits (bits : Nat) (z n : Int) : Prop where
  congr : n ≡ z [ZMOD 2 ^ bits]
  low : -2 ^ (bits - 1) ≤ n
  high : n < 2 ^ (bits - 1)

theorem isLowBits_iff {bits : Nat} (hbits : 0 < bits) {z n : Int} :
    IsLowBits bits z n ↔ n = z.bmod (2 ^ bits) := by
  have hpow : ((2 ^ bits : Nat) : Int) = 2 ^ (bits - 1) * 2 := by
    rw [← pow_succ, Nat.sub_one_add_one hbits.ne']
    exact Nat.cast_pow 2 bits
  have hcast : (2 : Int) ^ bits = (2 ^ bits : Nat) := (Nat.cast_pow 2 bits).symm
  constructor
  · rintro ⟨hcongr, hlow, hhigh⟩
    have hself : n.bmod (2 ^ bits) = n := Int.bmod_eq_of_le (by omega) (by omega)
    rw [hcast] at hcongr
    rw [← hself, ← Int.emod_bmod n, hcongr, Int.emod_bmod]
  · rintro rfl
    have hlow := Int.le_bmod (x := z) (Nat.two_pow_pos bits)
    have hhigh := Int.bmod_lt (x := z) (Nat.two_pow_pos bits)
    constructor
    case congr =>
      rw [hcast]
      exact Int.bmod_emod
    case low => omega
    case high => omega

/-- A kind of integers of some bits has room for an integer. -/
def HasRoom (bits : Nat) (n : Int) : Prop := -2 ^ (bits - 1) ≤ n ∧ n < 2 ^ (bits - 1)

theorem hasRoom_iff {bits : Nat} (hbits : 0 < bits) {n : Int} :
    HasRoom bits n ↔ n.bmod (2 ^ bits) = n := by
  rw [eq_comm, ← isLowBits_iff hbits]
  exact ⟨fun h => ⟨rfl, h.1, h.2⟩, fun h => ⟨h.low, h.high⟩⟩

theorem HasRoom.zero (bits : Nat) : HasRoom bits 0 :=
  ⟨neg_nonpos.mpr (by positivity), by positivity⟩

/-- An integer that has room in some bits has room in more. -/
theorem HasRoom.mono {bits bits' : Nat} {n : Int} (h : HasRoom bits n) (hle : bits ≤ bits') :
    HasRoom bits' n := by
  obtain ⟨hlow, hhigh⟩ := h
  have hpow : (2 : Int) ^ (bits - 1) ≤ 2 ^ (bits' - 1) :=
    pow_le_pow_right₀ (by norm_num) (by omega)
  exact ⟨by omega, by omega⟩

/-!
## Numbers behind values
-/

/-- The width of a kind of integers. -/
def Primitive.bits? : Primitive → Option Nat
  | byte => some 8
  | short => some 16
  | int => some 32
  | long => some 64
  | boolean | char | float | double => none

/-- The conversions of a number that go by way of an integer, which is this one. -/
structure Number.Reduces (number : Number) (z : Int) : Prop where
  toInt64 : number.toInt64.toInt = z.bmod (2 ^ 64)
  toInt32 : number.toInt32.toInt = z.bmod (2 ^ 32)
  toInteger : number.toInteger = z

namespace Number

theorem Reduces.of_toInt64 {number : Number} {z : Int}
    (h64 : number.toInt64.toInt = z.bmod (2 ^ 64))
    (h32 : number.toInt32 = number.toInt64.toInt32) (hinteger : number.toInteger = z) :
    number.Reduces z where
  toInt64 := h64
  toInt32 := by
    rw [h32, Int64.toInt_toInt32, h64]
    exact Int.bmod_bmod_of_dvd (by decide)
  toInteger := hinteger

theorem reduces_integral (n : Int64) : (integral n).Reduces n.toInt :=
  .of_toInt64 n.toInt_bmod.symm rfl rfl

theorem reduces_bigInteger (n : Int) : (bigInteger n).Reduces n := by
  refine .of_toInt64 ?_ rfl rfl
  rw [Number.toInt64, lowBits_eq_ofInt, Int64.toInt_ofInt]
  rfl

theorem reduces_bigDecimal (d : Decimal) : (bigDecimal d).Reduces (integerPart d.toRat) := by
  rw [← Decimal.truncated_eq]
  refine .of_toInt64 ?_ rfl rfl
  rw [Number.toInt64, lowBits_eq_ofInt, Int64.toInt_ofInt]
  rfl

end Number

section Exact

variable {heap : Heap} {value : Value} {x : ℚ} {kind : Primitive} {bits : Nat}

theorem Value.reduces_of_exactNumber? (h : value.exactNumber? = some x) :
    ∃ number, Number.ofValue? value = some number ∧ number.Reduces (integerPart x) := by
  have hfixed (n : Int64) {m : Int} (hm : n.toInt = m) :
      (Number.integral n).Reduces (integerPart m) := by
    rw [← hm, integerPart_intCast]
    exact Number.reduces_integral n
  cases value with
  | byte n => cases h; exact ⟨_, rfl, hfixed _ (Int8.toInt_toInt64 n)⟩
  | short n => cases h; exact ⟨_, rfl, hfixed _ (Int16.toInt_toInt64 n)⟩
  | int n => cases h; exact ⟨_, rfl, hfixed _ (Int32.toInt_toInt64 n)⟩
  | long n => cases h; exact ⟨_, rfl, hfixed n rfl⟩
  | bigInteger n =>
      cases h
      rw [integerPart_intCast]
      exact ⟨_, rfl, Number.reduces_bigInteger n⟩
  | bigDecimal d => cases h; exact ⟨_, rfl, Number.reduces_bigDecimal d⟩
  | _ => cases h

/-- The value is an integer of the kind, and the one with the low bits of another integer. -/
structure Heap.IsReduced (heap : Heap) (kind : Primitive) (bits : Nat) (z : Int)
    (result : Value) : Prop where
  typeOf : heap.typeOf result = .boxed kind
  number : result.exactNumber? = some ((z.bmod (2 ^ bits) : Int) : ℚ)

namespace Heap

theorem exists_ofNumber? (heap : Heap) {number : Number} {z : Int} (h : number.Reduces z)
    (hbits : kind.bits? = some bits) :
    ∃ result, ofNumber? kind number = some result ∧ heap.IsReduced kind bits z result := by
  have hnumber {n m : Int} (hnm : n = m) : some ((n : Int) : ℚ) = some (m : ℚ) := by rw [hnm]
  cases kind with
  | byte =>
      cases hbits
      refine ⟨_, rfl, rfl, hnumber ?_⟩
      rw [Number.toInt8, Int32.toInt_toInt8, h.toInt32]
      exact Int.bmod_bmod_of_dvd (by decide)
  | short =>
      cases hbits
      refine ⟨_, rfl, rfl, hnumber ?_⟩
      rw [Number.toInt16, Int32.toInt_toInt16, h.toInt32]
      exact Int.bmod_bmod_of_dvd (by decide)
  | int => cases hbits; exact ⟨_, rfl, rfl, hnumber h.toInt32⟩
  | long => cases hbits; exact ⟨_, rfl, rfl, hnumber h.toInt64⟩
  | _ => cases hbits

/-- An integer of a kind has room in it. -/
theorem isReduced_self (htype : heap.typeOf value = .boxed kind) (hbits : kind.bits? = some bits)
    (hx : value.exactNumber? = some x) : heap.IsReduced kind bits (integerPart x) value := by
  refine ⟨htype, ?_⟩
  have hfits {n : Int} {size : Nat} (hn : n.bmod size = n) :
      some (n : ℚ) = some (((integerPart n).bmod size : Int) : ℚ) := by
    rw [integerPart_intCast, hn]
  cases value with
  | byte n => cases htype; cases hbits; cases hx; exact hfits n.toInt_bmod
  | short n => cases htype; cases hbits; cases hx; exact hfits n.toInt_bmod
  | int n => cases htype; cases hbits; cases hx; exact hfits n.toInt_bmod
  | long n => cases htype; cases hbits; cases hx; exact hfits n.toInt_bmod
  | _ => cases htype <;> cases hbits

/-!
## Conversions of exact numbers
-/

theorem isNumeric_of_bits? (h : kind.bits? = some bits) : kind.isNumeric := by
  cases kind with
  | boolean | char => cases h
  | _ => rfl

theorem numeric_of_exactNumber? (heap : Heap) (hx : value.exactNumber? = some x)
    (target : String) : heap.numeric value target = .ok value := by
  cases value with
  | byte | short | int | long | bigInteger | bigDecimal => rfl
  | _ => cases hx

theorem exists_toNumeric (heap : Heap) (hx : value.exactNumber? = some x)
    (hbits : kind.bits? = some bits) :
    ∃ result, heap.toNumeric value kind = .ok result ∧
      heap.IsReduced kind bits (integerPart x) result := by
  by_cases htype : heap.typeOf value = .boxed kind
  · exact ⟨value, toNumeric_of_typeOf (isNumeric_of_bits? hbits) htype,
      isReduced_self htype hbits hx⟩
  · obtain ⟨number, hnumber, hreduces⟩ := Value.reduces_of_exactNumber? hx
    obtain ⟨result, hresult, hreduced⟩ := exists_ofNumber? heap hreduces hbits
    refine ⟨result, ?_, hreduced⟩
    unfold toNumeric
    rw [numeric_of_exactNumber? heap hx]
    change (if heap.typeOf value = .boxed kind then Except.ok value else _) = _
    rw [if_neg htype, orCannotConvert_eq_ok, ← hresult]
    cases value with
    | string => cases hx
    | _ => rw [hnumber]; rfl

/-- A conversion to a kind of integers, boxed or not. -/
theorem coerce_of_bits? (heap : Heap) (converters : Converters) {type : ValueType}
    (hkind : type.kind? = some kind) (hbits : kind.bits? = some bits)
    (hnull : value.isNull = false) :
    heap.coerce converters value type = heap.toNumeric value kind := by
  have hprimitive : heap.toPrimitive value kind = heap.toNumeric value kind := by
    cases kind with
    | boolean | char => cases hbits
    | _ => rfl
  cases type with
  | primitive | boxed =>
      cases hkind
      rw [coerce, hnull, ← hprimitive]
      rfl
  | _ => cases hkind

variable (heap : Heap) (converters : Converters) (hx : value.exactNumber? = some x)

include hx

theorem exists_coerce_kind {type : ValueType} (hkind : type.kind? = some kind)
    (hbits : kind.bits? = some bits) :
    ∃ result, heap.coerce converters value type = .ok result ∧
      heap.IsReduced kind bits (integerPart x) result := by
  rw [coerce_of_bits? heap converters hkind hbits (Value.traits_of_exactNumber? hx).not_null]
  exact exists_toNumeric heap hx hbits

theorem coerce_bigInteger :
    heap.coerce converters value .bigInteger = .ok (.bigInteger (integerPart x)) := by
  obtain ⟨number, hnumber, hreduces⟩ := Value.reduces_of_exactNumber? hx
  have htoInteger : heap.toInteger value = .ok (integerPart x) := by
    unfold toInteger
    rw [numeric_of_exactNumber? heap hx, ← hreduces.toInteger]
    cases value with
    | null | string => cases hx
    | _ =>
        dsimp only [bind, Except.bind]
        rw [hnumber]
        rfl
  rw [coerce, (Value.traits_of_exactNumber? hx).not_null, htoInteger]
  rfl

theorem exists_coerce_bigDecimal :
    ∃ d : Decimal, heap.coerce converters value .bigDecimal = .ok (.bigDecimal d) ∧
      d.toRat = x := by
  have htraits := Value.traits_of_exactNumber? hx
  have hadmits : Conversion.bigDecimal.Admits value :=
    ⟨htraits.not_null, htraits.not_floating, fun _ => nofun, fun _ => rfl⟩
  obtain ⟨d, hd, hnumber⟩ :=
    (reads_toDecimal heap hadmits).exists_ok (Value.number?_of_exactNumber? hx .bigDecimal)
  refine ⟨d, ?_, hnumber⟩
  rw [coerce, htraits.not_null, hd]
  rfl

end Heap
end Exact

/-!
## Narrower and wider types
-/

/-- Both types are of exact numbers, and the second has all numbers of the first and others. -/
inductive ValueType.IsNarrower : ValueType → ValueType → Prop
  | kind {own wider : ValueType} {kind kind' : Primitive} {bits bits' : Nat} :
      own.kind? = some kind → kind.bits? = some bits →
      wider.kind? = some kind' → kind'.bits? = some bits' → bits < bits' → IsNarrower own wider
  | bigInteger {own : ValueType} {kind : Primitive} {bits : Nat} :
      own.kind? = some kind → kind.bits? = some bits → IsNarrower own .bigInteger
  | bigDecimal {own : ValueType} {kind : Primitive} {bits : Nat} :
      own.kind? = some kind → kind.bits? = some bits → IsNarrower own .bigDecimal
  | integer : IsNarrower .bigInteger .bigDecimal

theorem Primitive.bits_pos {kind : Primitive} {bits : Nat} (h : kind.bits? = some bits) :
    0 < bits := by
  cases kind <;> cases h <;> decide

namespace Heap

variable {heap : Heap} {value result : Value} {kind : Primitive} {bits : Nat} {x : ℚ}

theorem typeOf_of_conforms {own : ValueType} (h : heap.Conforms value own)
    (hx : value.exactNumber? = some x) (hkind : own.kind? = some kind) :
    heap.typeOf value = .boxed kind := by
  cases own with
  | primitive => cases hkind; exact h
  | boxed =>
      cases hkind
      rcases h with rfl | htype
      · cases hx
      · exact htype
  | _ => cases hkind

/-- A kind of integers has one value for each number. -/
theorem eq_of_exactNumber? (hbits : kind.bits? = some bits)
    (hvalue : heap.typeOf value = .boxed kind) (hresult : heap.typeOf result = .boxed kind)
    (hnumber : result.exactNumber? = value.exactNumber?) : result = value := by
  cases kind <;> cases hbits <;> cases value <;> cases hvalue <;> cases result <;> cases hresult
  all_goals
    have hint := Int.cast_inj.mp (Option.some.inj hnumber)
    simpa [Int8.toInt_inj, Int16.toInt_inj, Int32.toInt_inj, Int64.toInt_inj] using hint

/-- An integer of a kind is its own integer part, and the kind has room for it. -/
theorem integerPart_of_typeOf (htype : heap.typeOf value = .boxed kind)
    (hbits : kind.bits? = some bits) (hx : value.exactNumber? = some x) :
    (integerPart x : ℚ) = x ∧ (integerPart x).bmod (2 ^ bits) = integerPart x := by
  have hnumber := (isReduced_self htype hbits hx).number
  rw [hx, Option.some_inj] at hnumber
  have hpart : integerPart x = (integerPart x).bmod (2 ^ bits) := by
    conv_lhs => rw [hnumber, integerPart_intCast]
  exact ⟨by rw [hpart]; exact hnumber.symm, hpart.symm⟩

/-- The way back to a narrower type finds the value by its number. -/
theorem coerce_back (converters : Converters) (hx : value.exactNumber? = some x)
    {widened : Value} (hwidened : widened.exactNumber? = some x) {own : ValueType}
    (hown : heap.Conforms value own) (hkind : own.kind? = some kind)
    (hbits : kind.bits? = some bits) : heap.coerce converters widened own = .ok value := by
  have htype := typeOf_of_conforms hown hx hkind
  obtain ⟨hinteger, hfits⟩ := integerPart_of_typeOf htype hbits hx
  obtain ⟨result, hresult, hreduced⟩ :=
    exists_coerce_kind heap converters hwidened hkind hbits
  rw [hresult, eq_of_exactNumber? hbits htype hreduced.typeOf]
  rw [hreduced.number, hfits, hinteger, hx]

/-- Conversion of an integer or a decimal to a kind of integers keeps the low bits of its integer
part, conversion to an integer of any size keeps the integer part itself, and conversion to a wider
type keeps the number, so that conversion back to a type of the value answers with the value. -/
theorem coerce_keeps_low_bits (heap : Heap) (converters : Converters) (value : Value) (x : ℚ)
    (hx : value.exactNumber? = some x) :
    (∀ type kind bits, type.kind? = some kind → kind.bits? = some bits →
      ∃ (result : Value) (n : Int), heap.coerce converters value type = .ok result ∧
        heap.typeOf result = .boxed kind ∧ result.exactNumber? = some (n : ℚ) ∧
        ∀ m, IsLowBits bits (integerPart x) m ↔ m = n) ∧
    heap.coerce converters value .bigInteger = .ok (.bigInteger (integerPart x)) ∧
    ∀ own wider, heap.Conforms value own → own.IsNarrower wider →
      ∃ widened, heap.coerce converters value wider = .ok widened ∧
        widened.exactNumber? = some x ∧ heap.coerce converters widened own = .ok value := by
  refine ⟨?_, coerce_bigInteger heap converters hx, ?_⟩
  · intro type kind bits hkind hbits
    obtain ⟨result, hresult, hreduced⟩ := exists_coerce_kind heap converters hx hkind hbits
    exact ⟨result, _, hresult, hreduced.typeOf, hreduced.number,
      fun m => isLowBits_iff (Primitive.bits_pos hbits)⟩
  · intro own wider hown hnarrower
    cases hnarrower with
    | @kind own wider kind kind' bits bits' hkind hbits hkind' hbits' hlt =>
        obtain ⟨hinteger, hfits⟩ :=
          integerPart_of_typeOf (typeOf_of_conforms hown hx hkind) hbits hx
        obtain ⟨widened, hwidened, hreduced⟩ :=
          exists_coerce_kind heap converters hx hkind' hbits'
        have hroom := ((hasRoom_iff (Primitive.bits_pos hbits)).mpr hfits).mono hlt.le
        have hnumber : widened.exactNumber? = some x := by
          rw [hreduced.number, (hasRoom_iff (Primitive.bits_pos hbits')).mp hroom, hinteger]
        exact ⟨widened, hwidened, hnumber, coerce_back converters hx hnumber hown hkind hbits⟩
    | bigInteger hkind hbits =>
        obtain ⟨hinteger, -⟩ :=
          integerPart_of_typeOf (typeOf_of_conforms hown hx hkind) hbits hx
        have hnumber : (Value.bigInteger (integerPart x)).exactNumber? = some x :=
          congrArg some hinteger
        exact ⟨_, coerce_bigInteger heap converters hx, hnumber,
          coerce_back converters hx hnumber hown hkind hbits⟩
    | bigDecimal hkind hbits =>
        obtain ⟨d, hd, hnumber⟩ := exists_coerce_bigDecimal heap converters hx
        have hwidened : (Value.bigDecimal d).exactNumber? = some x := congrArg some hnumber
        exact ⟨_, hd, hwidened, coerce_back converters hx hwidened hown hkind hbits⟩
    | integer =>
        obtain ⟨d, hd, hnumber⟩ := exists_coerce_bigDecimal heap converters hx
        have hwidened : (Value.bigDecimal d).exactNumber? = some x := congrArg some hnumber
        refine ⟨_, hd, hwidened, ?_⟩
        rcases hown with rfl | htype
        · cases hx
        · cases value <;> cases htype
          cases hx
          rw [coerce_bigInteger heap converters hwidened, integerPart_intCast]

/-- A decimal below the range of 64 bits, half a unit from an integer whose low byte is the least
one. -/
theorem coerce_keeps_low_bits_least :
    let heap : Heap := .empty
    let value : Value := .bigDecimal ⟨-(2 ^ 64 + 128) * 10 - 5, 1⟩
    heap.coerce .empty value (.boxed .byte) = .ok (.byte (-128)) ∧
      IsLowBits 8 (-(2 ^ 64 + 128)) (-128) ∧
      heap.coerce .empty value .bigInteger = .ok (.bigInteger (-(2 ^ 64 + 128))) ∧
      heap.coerce .empty (.byte (-128)) .bigDecimal = .ok (.bigDecimal ⟨-128, 0⟩) ∧
      heap.coerce .empty (.bigDecimal ⟨-128, 0⟩) (.primitive .byte) = .ok (.byte (-128)) := by
  intro heap value
  have hpart : integerPart (Decimal.toRat ⟨-(2 ^ 64 + 128) * 10 - 5, 1⟩) = -(2 ^ 64 + 128) := by
    rw [← Decimal.truncated_eq]
    decide
  rcases coerce_keeps_low_bits heap .empty value _ rfl with ⟨hkinds, hinteger, -⟩
  rcases hkinds (.boxed .byte) .byte 8 rfl rfl with ⟨result, n, hresult, -, hnumber, hlow⟩
  have hbyte : heap.coerce .empty value (.boxed .byte) = .ok (.byte (-128)) := by decide
  have hn : -128 = n := by
    rw [hbyte] at hresult
    cases hresult
    exact Int.cast_inj.mp (Option.some.inj hnumber)
  rw [hpart] at hlow hinteger
  rcases coerce_keeps_low_bits heap .empty (.byte (-128)) _ rfl with ⟨-, -, hback⟩
  rcases hback (.primitive .byte) .bigDecimal rfl (.bigDecimal rfl rfl) with
    ⟨widened, hwidened, -, hagain⟩
  cases hwidened
  exact ⟨hbyte, (hlow _).mpr hn, hinteger, rfl, hagain⟩

end Heap

end ExprLang
