import ExprLang.Proofs.Evaluation.Discipline

/-!
# The default classes only read

The methods of the default classes leave the heap as it is and answer scalars or their own
arguments, and their fields are scalars.  Such methods keep every compositional discipline, and a
context to which the host has added nothing obeys every compositional law.
-/

namespace ExprLang

/-!
## Functions that read
-/

/-- The function leaves the heap as it is and answers a scalar or one of its arguments. -/
def HostFunction.Reads (function : HostFunction) : Prop :=
  ∀ args heap, finalState (function.body args heap) = heap ∧
    ∀ result after, function.body args heap = .ok result after →
      result.isScalar ∨ result ∈ args

/-- The fields of the class are scalars and its methods read. -/
structure ClassDef.Reads (c : ClassDef) : Prop where
  field : ∀ name value, c.field? name = some value → value.isScalar
  method : ∀ name function, c.method? name = some function → function.Reads

theorem HostFunction.Reads.keeps {function : HostFunction} (hreads : function.Reads)
    {d : Discipline} (h : d.Compositional) : function.Keeps d := by
  intro stage args world hargs
  let answer (heap : Heap) : Except EvalError Value :=
    match function.body args heap with
    | .ok result _ => .ok result
    | .error error _ => .error error
  have hread : World.onHeap (function.body args) =
      World.heapNow >>= fun heap => Action.ofExcept (answer heap) := by
    funext start
    have hheap := (hreads args start.heap).1
    change World.onHeap (function.body args) start = Action.ofExcept (answer start.heap) start
    unfold World.onHeap
    dsimp only [answer]
    cases hrun : function.body args start.heap with
    | ok result after | error error after =>
        rw [hrun] at hheap
        cases hheap
        rfl
  rw [hread]
  apply h.heapNow
  intro _
  apply h.ofExcept
  intro result hresult
  have hrun : ∃ after, function.body args world.heap = .ok result after := by
    dsimp only [answer] at hresult
    split at hresult
    · rename_i after hrun
      cases hresult
      exact ⟨after, hrun⟩
    · cases hresult
  obtain ⟨after, hrun⟩ := hrun
  rcases (hreads args world.heap).2 result after hrun with hscalar | hmem
  · exact h.scalar hscalar
  · exact hargs result hmem

theorem ClassDef.method?_withMethod {c : ClassDef} {function other : HostFunction} {name : String}
    (h : (c.withMethod function).method? name = some other) :
    other = function ∨ c.method? name = some other := by
  simp only [method?, withMethod, Table.find?_insert] at h
  split at h
  · exact .inl (Option.some_inj.mp h).symm
  · exact .inr h

namespace ClassDef.Reads

variable {c : ClassDef}

theorem named (name : String) : (ClassDef.named name).Reads where
  field field value hfield := by simp [ClassDef.field?, ClassDef.named] at hfield
  method method function hmethod := by simp [ClassDef.method?, ClassDef.named] at hmethod

theorem withField (hc : c.Reads) (name : String) {value : Value} (hvalue : value.isScalar) :
    (c.withField name value).Reads where
  field := by
    intro field other hfield
    simp only [ClassDef.field?, ClassDef.withField, Table.find?_insert] at hfield
    split at hfield
    · cases hfield
      exact hvalue
    · exact hc.field field other hfield
  method := hc.method

theorem withMethod (hc : c.Reads) {function : HostFunction} (hfunction : function.Reads) :
    (c.withMethod function).Reads where
  field := hc.field
  method := by
    intro name other hmethod
    rcases ClassDef.method?_withMethod hmethod with rfl | hrest
    · exact hfunction
    · exact hc.method name other hrest

end ClassDef.Reads

namespace Library

/-!
## The methods of the default classes
-/

theorem reading_reads (name : String) (params : List ValueType) (returns : ValueType)
    {body : Heap → List Value → Except EvalError Value}
    (hbody : ∀ heap args result, body heap args = .ok result →
      result.isScalar ∨ result ∈ args) :
    (reading name params returns body).Reads := by
  intro args heap
  have hget : (get : HeapAction Heap) heap = .ok heap heap := rfl
  simp only [reading, Bind.bind, EStateM.bind, hget]
  cases hanswer : body heap args with
  | error error =>
      refine ⟨rfl, ?_⟩
      intro result after heq
      cases heq
  | ok value =>
      refine ⟨rfl, ?_⟩
      intro result after heq
      cases heq
      exact hbody heap args value hanswer

theorem scalarReading_reads (name : String) (params : List ValueType) (returns : ValueType)
    {body : Heap → List Value → Except EvalError Value}
    (hbody : ∀ heap args, AnswersScalar (body heap args)) :
    (reading name params returns body).Reads :=
  reading_reads name params returns fun heap args result hresult =>
    Or.inl (hbody heap args result hresult)

theorem arg_isScalar_or_mem (args : List Value) (position : Nat) :
    (arg args position).isScalar ∨ arg args position ∈ args := by
  rw [arg, List.getD_eq_getElem?_getD]
  cases hfound : args[position]? with
  | none => exact Or.inl rfl
  | some value => exact Or.inr (List.mem_of_getElem? hfound)

theorem converting_reads (name : String) (param returns : ValueType) :
    (converting name param returns).Reads := by
  apply reading_reads
  intro _ args result hresult
  cases hresult
  exact arg_isScalar_or_mem args 0

theorem charMap_reads (name : String) (map : Char → Char) : (charMap name map).Reads := by
  apply reading_reads
  intro _ args result hresult
  have harg := arg_isScalar_or_mem args 0
  cases hresult
  split
  · exact Or.inl rfl
  · exact harg

theorem absolute_scalar (heap : Heap) (value : Value) : AnswersScalar (absolute heap value) := by
  have hother : AnswersScalar (if value.isIntegral then do
      let n ← heap.toInt64 value
      return .long (if n < 0 then -n else n)
    else do return .double (← heap.toBinary64 value).abs) := by
    split <;> exact .bindPure fun _ => rfl
  cases value <;> first | exact .ok rfl | exact hother

theorem choose_scalar (pickFirst : Bool → Bool) (heap : Heap) (a b : Value) :
    AnswersScalar (choose pickFirst heap a b) := by
  unfold choose
  split
  · exact .bind fun _ => .bindPure fun _ => rfl
  · apply AnswersScalar.bind
    intro x
    apply AnswersScalar.bind
    intro y
    split <;> exact .ok rfl

/-!
## The default classes
-/

theorem wrapper_reads (kind : Primitive) (reader : String) {least greatest : Value}
    (hleast : least.isScalar) (hgreatest : greatest.isScalar) :
    (wrapper kind reader least greatest).Reads := by
  iterate 2 refine ClassDef.Reads.withMethod ?_ (converting_reads _ _ _)
  refine ClassDef.Reads.withField ?_ _ hgreatest
  refine ClassDef.Reads.withField ?_ _ hleast
  exact ClassDef.Reads.named _

theorem withSpecials_reads {c : ClassDef} (hc : c.Reads) {nan positive negative : Value}
    (hnan : nan.isScalar) (hpositive : positive.isScalar) (hnegative : negative.isScalar) :
    (withSpecials c nan positive negative).Reads :=
  ((hc.withField _ hnan).withField _ hpositive).withField _ hnegative

theorem booleanClass_reads : booleanClass.Reads := by
  iterate 2 refine ClassDef.Reads.withMethod ?_ (scalarReading_reads _ _ _ fun _ _ => .ok rfl)
  iterate 2 refine ClassDef.Reads.withField ?_ _ rfl
  exact ClassDef.Reads.named _

theorem characterClass_reads : characterClass.Reads := by
  iterate 2 refine ClassDef.Reads.withMethod ?_ (charMap_reads _ _)
  iterate 3 refine ClassDef.Reads.withMethod ?_ (scalarReading_reads _ _ _ fun _ _ => .ok rfl)
  iterate 2 refine ClassDef.Reads.withField ?_ _ rfl
  exact ClassDef.Reads.named _

theorem mathClass_reads : mathClass.Reads := by
  iterate 5
    refine ClassDef.Reads.withMethod ?_ (scalarReading_reads _ _ _ fun _ _ =>
      .bindPure fun _ => rfl)
  refine ClassDef.Reads.withMethod ?_ (scalarReading_reads _ _ _ fun _ _ =>
    .bind fun _ => .bindPure fun _ => rfl)
  iterate 2
    refine ClassDef.Reads.withMethod ?_ (scalarReading_reads _ _ _ fun _ _ =>
      choose_scalar _ _ _ _)
  refine ClassDef.Reads.withMethod ?_ (scalarReading_reads _ _ _ fun _ _ => absolute_scalar _ _)
  iterate 2 refine ClassDef.Reads.withField ?_ _ rfl
  exact ClassDef.Reads.named _

theorem stringClass_reads : stringClass.Reads :=
  (ClassDef.Reads.named _).withMethod (scalarReading_reads _ _ _ fun _ _ => .ok rfl)

theorem classes_read (number : Nat) : (classes.getD number default).Reads := by
  match number with
  | 0 => exact booleanClass_reads
  | 1 => exact characterClass_reads
  | 2 | 3 | 4 | 5 => exact wrapper_reads _ _ rfl rfl
  | 6 | 7 => exact withSpecials_reads (wrapper_reads _ _ rfl rfl) rfl rfl rfl
  | 8 => exact mathClass_reads
  | 9 => exact stringClass_reads
  | _ + 10 => exact ClassDef.Reads.named _

end Library

/-!
## Laws
-/

theorem Context.ofResolver_hostObeys {law : Law} (h : law.Compositional) (r : Resolver) :
    (ofResolver r).HostObeys law where
  function name function hfunction := by cases hfunction
  method number name function hfunction := by
    have hreads := (Library.classes_read number).method name function hfunction
    exact HostFunction.keeps_discipline.mp (hreads.keeps h.discipline)
  behaviour name behaviour hbehaviour := by cases hbehaviour

end ExprLang
