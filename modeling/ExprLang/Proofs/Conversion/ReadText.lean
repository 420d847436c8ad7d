import ExprLang.Proofs.Conversion.Width
import ExprLang.Proofs.Number.DecimalText

/-!
# Conversion of text to exact numbers

A kind of integers reads integer text whose integer it has room for.  An integer of any size is
read from more texts and a decimal from more again, but a text that a narrower type reads is the
same number to a wider one.  Empty text is zero to all of them.
-/

namespace ExprLang

/-!
## The number of a text
-/

/-- The integer that text says to the kinds of integers; empty text says zero. -/
def SaysInteger (s : String) (n : Int) : Prop := s = "" ∧ n = 0 ∨ IntegerText s.toList n

namespace Conversion

variable {s : String} {n : Int} {x : ℚ}

theorem admits_string (kind : Conversion) (s : String) : kind.Admits (.string s) :=
  ⟨rfl, rfl, nofun, nofun⟩

theorem number?_bigInteger_of_saysInteger (h : SaysInteger s n) :
    bigInteger.number? (.string s) = some (n : ℚ) := by
  rcases h with ⟨rfl, rfl⟩ | htext
  · exact congrArg some Int.cast_zero.symm
  · have hempty : s.isEmpty = false :=
      String.isEmpty_eq_false_iff.mpr fun hs => htext.ne_nil (String.toList_eq_nil_iff.mpr hs)
    rw [number?, hempty, textNumber?, htext.readBigInt?]
    rfl

theorem number?_bigDecimal_of_bigInteger (h : bigInteger.number? (.string s) = some x) :
    bigDecimal.number? (.string s) = some x := by
  rw [number?] at h ⊢
  split at h
  · rename_i hempty
    rw [if_pos hempty, h]
  · rename_i hempty
    obtain ⟨n, hn, rfl⟩ := Option.map_eq_some_iff.mp h
    rw [if_neg hempty, textNumber?, Decimal.read?_of_readBigInt? hn]
    exact congrArg some (Decimal.toRat_ofInt n)

end Conversion

namespace Heap

variable {heap : Heap} {converters : Converters} {s : String} {value other : Value}
  {type : ValueType} {kind : Primitive} {bits : Nat} {n : Int} {x : ℚ}

/-- The value is the integer as a value of the kind. -/
structure IsInteger (heap : Heap) (kind : Primitive) (n : Int) (value : Value) : Prop where
  typeOf : heap.typeOf value = .boxed kind
  number : value.exactNumber? = some (n : ℚ)

theorem IsInteger.eq (h : heap.IsInteger kind n value) (h' : heap.IsInteger kind n other)
    (hbits : kind.bits? = some bits) : value = other :=
  eq_of_exactNumber? hbits h'.typeOf h.typeOf (h.number.trans h'.number.symm)

theorem IsReduced.isInteger (h : heap.IsReduced kind bits n value) (hbits : 0 < bits)
    (hroom : HasRoom bits n) : heap.IsInteger kind n value := by
  refine ⟨h.typeOf, ?_⟩
  rw [h.number, (hasRoom_iff hbits).mp hroom]

theorem exists_isInteger (heap : Heap) (hbits : kind.bits? = some bits) (hroom : HasRoom bits n) :
    ∃ value, heap.IsInteger kind n value := by
  obtain ⟨value, -, hreduced⟩ := exists_ofNumber? heap (Number.reduces_bigInteger n) hbits
  exact ⟨value, hreduced.isInteger (Primitive.bits_pos hbits) hroom⟩

/-!
## Readers
-/

theorem readPrimitive?_eq_some_iff (heap : Heap) (hbits : kind.bits? = some bits) :
    readPrimitive? kind s = some value ↔
      ∃ n, IntegerText s.toList n ∧ HasRoom bits n ∧ heap.IsInteger kind n value := by
  have hread {low high : Int} {ofInt : Int → Value} (hlow : low = -2 ^ (bits - 1))
      (hhigh : high = 2 ^ (bits - 1) - 1)
      (hofInt : ∀ n, HasRoom bits n → heap.IsInteger kind n (ofInt n)) :
      (readIntWithin? low high s.toList).map ofInt = some value ↔
        ∃ n, IntegerText s.toList n ∧ HasRoom bits n ∧ heap.IsInteger kind n value := by
    have hroom {n : Int} : HasRoom bits n ↔ low ≤ n ∧ n ≤ high := by
      rw [hlow, hhigh, Int.le_sub_one_iff]
      rfl
    simp only [Option.map_eq_some_iff, readIntWithin?_eq_some_iff, ← hroom]
    constructor
    · rintro ⟨n, ⟨htext, hn⟩, rfl⟩
      exact ⟨n, htext, hn, hofInt n hn⟩
    · rintro ⟨n, htext, hn, hvalue⟩
      exact ⟨n, ⟨htext, hn⟩, (hofInt n hn).eq hvalue hbits⟩
  have hnumber {n m : Int} (h : m = n) : some (m : ℚ) = some (n : ℚ) := by rw [h]
  cases kind with
  | byte =>
      cases hbits
      exact hread rfl rfl fun n hn => ⟨rfl, hnumber (Int8.toInt_ofInt_of_le hn.1 hn.2)⟩
  | short =>
      cases hbits
      exact hread rfl rfl fun n hn => ⟨rfl, hnumber (Int16.toInt_ofInt_of_le hn.1 hn.2)⟩
  | int =>
      cases hbits
      exact hread rfl rfl fun n hn => ⟨rfl, hnumber (Int32.toInt_ofInt_of_le hn.1 hn.2)⟩
  | long =>
      cases hbits
      rw [readPrimitive?, readInt64?, Option.map_map]
      exact hread rfl rfl fun n hn => ⟨rfl, hnumber (Int64.toInt_ofInt_of_le hn.1 hn.2)⟩
  | _ => cases hbits

theorem toNumeric_string (hs : s ≠ "") : heap.toNumeric (.string s) kind =
    heap.orCannotConvert (.string s) kind.boxedName (readPrimitive? kind s) := by
  rw [toNumeric, numeric, String.isEmpty_eq_false_iff.mpr hs]
  rfl

/-- Empty text is converted as the integer zero is. -/
theorem exists_toNumeric_empty (heap : Heap) (hbits : kind.bits? = some bits) :
    ∃ zero, heap.toNumeric (.string "") kind = .ok zero ∧ heap.IsInteger kind 0 zero := by
  have hempty : heap.toNumeric (.string "") kind = heap.toNumeric (.long 0) kind := rfl
  have hnumber : (Value.long 0).exactNumber? = some ((0 : Int) : ℚ) := rfl
  obtain ⟨zero, hzero, hreduced⟩ := exists_toNumeric heap hnumber hbits
  rw [integerPart_intCast] at hreduced
  rw [hempty]
  exact ⟨zero, hzero, hreduced.isInteger (Primitive.bits_pos hbits) (.zero bits)⟩

/-- A kind of integers reads the texts that say an integer it has room for. -/
theorem coerce_string_eq_ok_iff (hkind : type.kind? = some kind) (hbits : kind.bits? = some bits) :
    heap.coerce converters (.string s) type = .ok value ↔
      ∃ n, SaysInteger s n ∧ HasRoom bits n ∧ heap.IsInteger kind n value := by
  rw [coerce_of_bits? heap converters hkind hbits rfl]
  by_cases hs : s = ""
  · subst hs
    obtain ⟨zero, hzero, hinteger⟩ := exists_toNumeric_empty heap hbits
    rw [hzero]
    constructor
    · intro h
      cases h
      exact ⟨0, .inl ⟨rfl, rfl⟩, .zero bits, hinteger⟩
    · rintro ⟨n, ⟨-, rfl⟩ | htext, -, hvalue⟩
      · rw [hinteger.eq hvalue hbits]
      · exact absurd rfl htext.ne_nil
  · have hsaid (n : Int) : SaysInteger s n ↔ IntegerText s.toList n :=
      ⟨fun h => h.resolve_left fun h => hs h.1, .inr⟩
    rw [toNumeric_string hs, orCannotConvert_eq_ok, readPrimitive?_eq_some_iff heap hbits]
    simp only [hsaid]

theorem exists_coerce_bigInteger_string (heap : Heap) (converters : Converters)
    (h : Conversion.bigInteger.number? (.string s) = some x) :
    ∃ value, heap.coerce converters (.string s) .bigInteger = .ok value ∧
      value.exactNumber? = some x := by
  obtain ⟨n, hn, hnumber⟩ :=
    (reads_toInteger heap (Conversion.admits_string .bigInteger s)).exists_ok h
  refine ⟨.bigInteger n, ?_, congrArg some hnumber⟩
  change Value.bigInteger <$> heap.toInteger (.string s) = _
  rw [hn]
  rfl

theorem exists_coerce_bigDecimal_string (heap : Heap) (converters : Converters)
    (h : Conversion.bigDecimal.number? (.string s) = some x) :
    ∃ value, heap.coerce converters (.string s) .bigDecimal = .ok value ∧
      value.exactNumber? = some x := by
  obtain ⟨d, hd, hnumber⟩ :=
    (reads_toDecimal heap (Conversion.admits_string .bigDecimal s)).exists_ok h
  refine ⟨.bigDecimal d, ?_, congrArg some hnumber⟩
  change Value.bigDecimal <$> heap.toDecimal (.string s) = _
  rw [hd]
  rfl

theorem number?_of_coerce_bigInteger
    (h : heap.coerce converters (.string s) .bigInteger = .ok value) :
    ∃ x, value.exactNumber? = some x ∧ Conversion.bigInteger.number? (.string s) = some x := by
  obtain ⟨n, hn, rfl⟩ := map_eq_ok h
  have hreads := reads_toInteger heap (Conversion.admits_string .bigInteger s)
  rw [Conversion.Reads, hn] at hreads
  exact ⟨n, rfl, orCannotConvert_eq_ok.mp hreads.symm⟩

/-!
## The tower of exact types
-/

/-- Text that a type of exact numbers reads is the same number to every wider one, and a kind of
integers reads the text if another kind reads it as an integer that there is room for. -/
theorem coerce_string_agrees (heap : Heap) (converters : Converters) (s : String) :
    (∀ own wider value, own.IsNarrower wider →
      heap.coerce converters (.string s) own = .ok value →
      ∃ widened x, heap.coerce converters (.string s) wider = .ok widened ∧
        value.exactNumber? = some x ∧ widened.exactNumber? = some x) ∧
    ∀ own other kind kind' bits bits' read n, own.kind? = some kind → kind.bits? = some bits →
      other.kind? = some kind' → kind'.bits? = some bits' →
      heap.coerce converters (.string s) other = .ok read →
      read.exactNumber? = some ((n : Int) : ℚ) → HasRoom bits n →
      ∃ value, heap.coerce converters (.string s) own = .ok value ∧
        value.exactNumber? = some ((n : Int) : ℚ) := by
  constructor
  · intro own wider value hnarrower hvalue
    cases hnarrower with
    | kind hkind hbits hkind' hbits' hlt =>
        obtain ⟨n, hsaid, hroom, hinteger⟩ := (coerce_string_eq_ok_iff hkind hbits).mp hvalue
        have hroom' := hroom.mono hlt.le
        obtain ⟨widened, hwidened⟩ := exists_isInteger heap hbits' hroom'
        exact ⟨widened, n, (coerce_string_eq_ok_iff hkind' hbits').mpr ⟨n, hsaid, hroom', hwidened⟩,
          hinteger.number, hwidened.number⟩
    | bigInteger hkind hbits =>
        obtain ⟨n, hsaid, -, hinteger⟩ := (coerce_string_eq_ok_iff hkind hbits).mp hvalue
        obtain ⟨widened, hwidened, hnumber⟩ := exists_coerce_bigInteger_string heap converters
          (Conversion.number?_bigInteger_of_saysInteger hsaid)
        exact ⟨widened, n, hwidened, hinteger.number, hnumber⟩
    | bigDecimal hkind hbits =>
        obtain ⟨n, hsaid, -, hinteger⟩ := (coerce_string_eq_ok_iff hkind hbits).mp hvalue
        obtain ⟨widened, hwidened, hnumber⟩ := exists_coerce_bigDecimal_string heap converters
          (Conversion.number?_bigDecimal_of_bigInteger
            (Conversion.number?_bigInteger_of_saysInteger hsaid))
        exact ⟨widened, n, hwidened, hinteger.number, hnumber⟩
    | integer =>
        obtain ⟨x, hnumber, hread⟩ := number?_of_coerce_bigInteger hvalue
        obtain ⟨widened, hwidened, hsame⟩ := exists_coerce_bigDecimal_string heap converters
          (Conversion.number?_bigDecimal_of_bigInteger hread)
        exact ⟨widened, x, hwidened, hnumber, hsame⟩
  · intro own other kind kind' bits bits' read n hkind hbits hkind' hbits' hread hnumber hroom
    obtain ⟨m, hsaid, -, hinteger⟩ := (coerce_string_eq_ok_iff hkind' hbits').mp hread
    have hm : m = n := Int.cast_inj.mp (Option.some.inj (hinteger.number.symm.trans hnumber))
    subst hm
    obtain ⟨value, hvalue⟩ := exists_isInteger heap hbits hroom
    exact ⟨value, (coerce_string_eq_ok_iff hkind hbits).mpr ⟨m, hsaid, hroom, hvalue⟩,
      hvalue.number⟩

/-- The least integer of eight bits, written with a zero in front. -/
theorem coerce_string_agrees_least :
    let heap : Heap := .empty
    heap.coerce .empty (.string "-0128") (.primitive .short) = .ok (.short (-128)) ∧
      heap.coerce .empty (.string "-0128") (.boxed .byte) = .ok (.byte (-128)) ∧
      ∃ widened, heap.coerce .empty (.string "-0128") .bigDecimal = .ok widened ∧
        widened.exactNumber? = some ((-128 : Int) : ℚ) := by
  intro heap
  obtain ⟨hwider, hother⟩ := coerce_string_agrees heap .empty "-0128"
  have hshort : heap.coerce .empty (.string "-0128") (.primitive .short) = .ok (.short (-128)) := by
    decide
  obtain ⟨value, hvalue, -⟩ :=
    hother (.boxed .byte) (.primitive .short) .byte .short 8 16 (.short (-128)) (-128) rfl rfl rfl
      rfl hshort rfl ⟨by decide, by decide⟩
  have hbyte : value = .byte (-128) := by
    have hread : heap.coerce .empty (.string "-0128") (.boxed .byte) = .ok (.byte (-128)) := by
      decide
    exact Except.ok.inj (hvalue.symm.trans hread)
  subst hbyte
  obtain ⟨widened, x, hwidened, hx, hsame⟩ :=
    hwider (.boxed .byte) .bigDecimal (.byte (-128)) (.bigDecimal rfl rfl) hvalue
  rw [← hx] at hsame
  exact ⟨hshort, hvalue, widened, hwidened, hsame⟩

end Heap

end ExprLang
