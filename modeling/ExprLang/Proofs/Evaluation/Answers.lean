import ExprLang.Evaluation
import ExprLang.Proofs.Conversion.Projection

/-!
# Where answers come from

Operators and the methods of text answer scalars, which refer to no object.  Without converters
a conversion answers its argument or a scalar.  What a look-up answers, and what an insertion
leaves among the entries of a map, was there or was put there.
-/

namespace ExprLang

/-- Whether the value refers to no object. -/
def Value.isScalar : Value → Bool
  | .list _ | .set _ | .map _ | .array .. | .bean _ | .lambda _ => false
  | _ => true

/-!
## Entries
-/

namespace Assoc

variable {α β : Type} {same : α → α → Bool}

theorem mem_of_find? {key : α} {value : β} {entries : List (α × β)}
    (h : find? same key entries = some value) : ∃ k, (k, value) ∈ entries := by
  fun_induction find? same key entries with
  | case1 => cases h
  | case2 k v rest =>
      cases h
      exact ⟨k, List.mem_cons_self⟩
  | case3 k v rest _ ih =>
      obtain ⟨k', hmem⟩ := ih h
      exact ⟨k', List.mem_cons_of_mem _ hmem⟩

variable {p : α → Prop} {q : β → Prop} {key : α} {value : β} {entries : List (α × β)}

theorem forall_insert (hkey : p key) (hvalue : q value)
    (hentries : ∀ entry ∈ entries, p entry.1 ∧ q entry.2) :
    ∀ entry ∈ insert same key value entries, p entry.1 ∧ q entry.2 := by
  fun_induction insert same key value entries with
  | case1 => simpa using ⟨hkey, hvalue⟩
  | case2 k v rest =>
      obtain ⟨hhead, hrest⟩ := List.forall_mem_cons.mp hentries
      exact List.forall_mem_cons.mpr ⟨⟨hhead.1, hvalue⟩, hrest⟩
  | case3 k v rest _ ih =>
      obtain ⟨hhead, hrest⟩ := List.forall_mem_cons.mp hentries
      exact List.forall_mem_cons.mpr ⟨hhead, ih hrest⟩

theorem forall_insert? {same? : α → α → Option Bool} {after : List (α × β)} (hkey : p key)
    (hvalue : q value) (hentries : ∀ entry ∈ entries, p entry.1 ∧ q entry.2)
    (h : insert? same? key value entries = some after) :
    ∀ entry ∈ after, p entry.1 ∧ q entry.2 := by
  induction entries generalizing after with
  | nil =>
      cases h
      simpa using ⟨hkey, hvalue⟩
  | cons head rest ih =>
      obtain ⟨hhead, hrest⟩ := List.forall_mem_cons.mp hentries
      rw [insert?, Option.bind_eq_bind, Option.bind_eq_some_iff] at h
      obtain ⟨found, _, h⟩ := h
      split at h
      · cases h
        exact List.forall_mem_cons.mpr ⟨⟨hhead.1, hvalue⟩, hrest⟩
      · obtain ⟨inner, hinner, h⟩ := Option.bind_eq_some_iff.mp h
        cases h
        exact List.forall_mem_cons.mpr ⟨hhead, ih hrest hinner⟩

theorem mem_of_mem_distinct {items : List α} {item : α} (h : item ∈ distinct same items) :
    item ∈ items := by
  have hseen : ∀ seen : List α, item ∈ distinctFrom same seen items →
      item ∈ seen ∨ item ∈ items := by
    clear h
    intro seen h
    fun_induction distinctFrom same seen items with
    | case1 seen => exact Or.inl h
    | case2 seen head rest _ ih =>
        rcases ih h with hmem | hmem
        · exact Or.inl hmem
        · exact Or.inr (List.mem_cons_of_mem head hmem)
    | case3 seen head rest _ ih =>
        rcases ih h with hmem | hmem
        · rcases List.mem_append.mp hmem with hmem | hmem
          · exact Or.inl hmem
          · exact Or.inr (List.mem_singleton.mp hmem ▸ List.mem_cons_self)
        · exact Or.inr (List.mem_cons_of_mem head hmem)
  rcases hseen [] h with hmem | hmem
  · cases hmem
  · exact hmem

end Assoc

/-!
## Operators and conversions
-/

/-- Whatever a computation answers is a scalar. -/
def AnswersScalar (answer : Except EvalError Value) : Prop :=
  ∀ result, answer = .ok result → result.isScalar

theorem AnswersScalar.ok {value : Value} (h : value.isScalar) : AnswersScalar (.ok value) := by
  intro result heq
  cases heq
  exact h

theorem AnswersScalar.error (error : EvalError) : AnswersScalar (.error error) := by
  intro result heq
  cases heq

theorem AnswersScalar.bind {α : Type} {answer : Except EvalError α}
    {next : α → Except EvalError Value} (h : ∀ a, AnswersScalar (next a)) :
    AnswersScalar (answer >>= next) := by
  cases answer with
  | error error => exact .error error
  | ok a => exact h a

theorem AnswersScalar.bindPure {α : Type} {answer : Except EvalError α} {f : α → Value}
    (h : ∀ a, (f a).isScalar) : AnswersScalar (answer >>= fun a => pure (f a)) :=
  .bind fun a => .ok (h a)

theorem Arithmetic.onDecimals_scalar (op : Arithmetic) (a b : Decimal) :
    AnswersScalar (op.onDecimals a b) := by
  cases op with
  | add | sub | mul => exact .ok rfl
  | div | mod =>
      unfold onDecimals
      dsimp only
      split
      · exact .error _
      · exact .ok rfl

theorem Arithmetic.onIntegers_scalar (op : Arithmetic) (a b : Int) :
    AnswersScalar (op.onIntegers a b) := by
  cases op with
  | add | sub | mul => exact .ok rfl
  | div => exact onDecimals_scalar div _ _
  | mod =>
      unfold onIntegers
      dsimp only
      split
      · exact .error _
      · exact .ok rfl

theorem Arithmetic.onLongs_scalar (op : Arithmetic) (a b : Int64) :
    AnswersScalar (op.onLongs a b) := by
  cases op with
  | add | sub | mul | div => exact .ok rfl
  | mod =>
      unfold onLongs
      dsimp only
      split
      · exact .error _
      · exact .ok rfl

namespace Heap

variable (heap : Heap)

theorem arithmetic_scalar (op : Arithmetic) (left right : Value) :
    AnswersScalar (heap.arithmetic op left right) := by
  unfold arithmetic
  split
  · exact .ok rfl
  · exact .bind fun _ => .bind fun _ => op.onDecimals_scalar _ _
  · exact .bind fun _ => .bind fun _ => op.onIntegers_scalar _ _
  · exact .bind fun _ => .bindPure fun _ => rfl
  · exact .bind fun _ => .bind fun _ => op.onLongs_scalar _ _

theorem applyBinary_scalar (op : BinaryOp) (left right : Value) :
    AnswersScalar (heap.applyBinary op left right) := by
  cases op with
  | add | sub | mul | div | mod => exact heap.arithmetic_scalar _ _ _
  | eq | notEq | lt | ltEq | gt | gtEq => exact .bindPure fun _ => rfl
  | and =>
      apply AnswersScalar.bind
      intro b
      cases b with
      | true => exact .bindPure fun _ => rfl
      | false => exact .ok rfl
  | or =>
      apply AnswersScalar.bind
      intro b
      cases b with
      | true => exact .ok rfl
      | false => exact .bindPure fun _ => rfl

theorem negate_scalar (value : Value) : AnswersScalar (heap.negate value) := by
  have hother : AnswersScalar (if value.isDecimalText then do
      return .double (← heap.toBinary64 value).neg
    else do return .long (-(← heap.toInt64 value))) := by
    split <;> exact .bindPure fun _ => rfl
  cases value <;> first | exact .ok rfl | exact hother

theorem applyUnary_scalar (op : UnaryOp) (value : Value) :
    AnswersScalar (heap.applyUnary op value) := by
  cases op with
  | neg => exact heap.negate_scalar value
  | not => exact .bindPure fun _ => rfl
  | empty => exact .ok rfl

variable {heap}

theorem isScalar_of_typeOf_boxed {value : Value} {kind : Primitive}
    (h : heap.typeOf value = .boxed kind) : value.isScalar := by
  cases value <;> first | rfl | cases h

theorem isScalar_ofNull {type : ValueType} {result : Value} (h : type.ofNull? = some result) :
    result.isScalar := by
  cases type with
  | primitive kind =>
      cases h
      have htype : Heap.empty.typeOf kind.zero = .boxed kind := typeOf_zero kind
      exact isScalar_of_typeOf_boxed htype
  | _ => cases h <;> rfl

/-- Without converters a conversion answers the value itself or a scalar. -/
theorem coerce_eq_or_scalar {value result : Value} {type : ValueType}
    (h : heap.coerce .empty value type = .ok result) : result = value ∨ result.isScalar := by
  by_cases hnull : value.isNull
  · have hvalue : value = .null := by
      cases value <;> first | rfl | cases hnull
    subst hvalue
    rw [coerce_null] at h
    split at h
    · rename_i answer hanswer
      cases h
      exact Or.inr (isScalar_ofNull hanswer)
    · cases h
  · cases type with
    | void => cases h
    | any => exact Or.inl (Except.ok.inj h).symm
    | string => exact Or.inr (Except.ok.inj h ▸ rfl)
    | primitive kind | boxed kind =>
        have htype := typeOf_of_toPrimitive (by simpa only [coerce, if_neg hnull] using h)
        exact Or.inr (isScalar_of_typeOf_boxed htype)
    | bigInteger | bigDecimal =>
        simp only [coerce, if_neg hnull] at h
        obtain ⟨_, _, rfl⟩ := map_eq_ok h
        exact Or.inr rfl
    | enum enumType =>
        rcases toEnum_eq_ok (by simpa only [coerce, if_neg hnull] using h) with
          ⟨_, rfl⟩ | ⟨hconstant, _⟩
        · exact Or.inr rfl
        · cases result <;> first | exact Or.inr rfl | cases hconstant
    | named className =>
        rcases toInstance_eq_ok (by simpa only [coerce, if_neg hnull] using h) with
          ⟨_, rfl⟩ | ⟨hsame, _⟩
        · exact Or.inr rfl
        · exact Or.inl hsame
    | list | set | map | array | lambda =>
        simp only [coerce, if_neg hnull] at h
        split at h
        · exact Or.inl (Except.ok.inj h).symm
        · cases h

end Heap

/-!
## Methods
-/

theorem TextMethod.run_scalar (heap : Heap) (method : TextMethod) (name s : String)
    (args : List Value) : AnswersScalar (method.run heap name s args) := by
  have hpart (text : List Char) (start stop : Int64) : AnswersScalar (part text start stop) := by
    unfold part
    split
    · exact .ok rfl
    · exact .error _
  unfold run
  dsimp only
  split
  case h_10 =>
    unfold indexIn
    split <;> exact .ok rfl
  case h_11 =>
    apply AnswersScalar.bind
    intro position
    unfold character
    split
    · exact .ok rfl
    · exact .error _
  case h_12 => exact .bind fun _ => hpart _ _ _
  case h_13 => exact .bind fun _ => .bind fun _ => hpart _ _ _
  all_goals first | exact .ok rfl | exact .error _

theorem Collection.total_scalar (heap : Heap) (items : List Value) :
    AnswersScalar (total heap items) := by
  have hfold (acc : Value) (hacc : acc.isScalar) :
      AnswersScalar (items.foldlM (heap.arithmetic .add) acc) := by
    induction items generalizing acc with
    | nil => exact .ok hacc
    | cons item rest ih =>
        rw [List.foldlM_cons]
        cases hsum : heap.arithmetic .add acc item with
        | error error => exact .error error
        | ok sum => exact ih sum (heap.arithmetic_scalar .add acc item sum hsum)
  exact hfold (.long 0) rfl

end ExprLang
