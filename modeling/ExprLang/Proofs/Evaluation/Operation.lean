import ExprLang.Proofs.Evaluation.Runs

/-!
# Operations of a context

What may be asked of a context, each with the kind of its answer.  An operation keeps every
compositional discipline that the host and the resolver keep, and so obeys every such law.
-/

namespace ExprLang

/-- What may be asked of a context. -/
inductive Operation
  | eval (expr : Expr)
  | evalAs (expr : Expr) (type : ValueType)
  | typeOf (expr : Expr)
  | readOnly (expr : Expr)
  | assign (expr : Expr) (value : Value)
  | place? (expr : Expr)
  | apply (r : Ref) (args : List Value)
  | invokeMethod (base : Value) (method : String) (args : List Value)

namespace Operation

def Answer : Operation → Type
  | eval _ | evalAs .. | apply .. | invokeMethod .. => Value
  | typeOf _ => ValueType
  | readOnly _ => Bool
  | assign .. => Unit
  | place? _ => Option Place

/-- The run of an operation with calls nested at most `depth` deep. -/
def run (context : Context) (depth : Nat) : (operation : Operation) → Action operation.Answer
  | eval expr => (Evaluation.within context depth).eval expr
  | evalAs expr type => do
    context.coerce (← (Evaluation.within context depth).eval expr) type
  | typeOf expr => (Evaluation.within context depth).type expr
  | readOnly expr => (Evaluation.within context depth).readOnly expr
  | assign expr value => (Evaluation.within context depth).assign expr value
  | place? expr => (Evaluation.within context depth).place? expr
  | apply r args => Evaluation.apply (Evaluation.within context depth) r args
  | invokeMethod base method args =>
    Evaluation.invokeMethod context (Evaluation.within context depth) base method args

/-- The values that an operation is given. -/
def given : Operation → List Value
  | assign _ value => [value]
  | apply _ args => args
  | invokeMethod base _ args => base :: args
  | _ => []

/-- The values in the answer of an operation. -/
def answered : (operation : Operation) → operation.Answer → List Value
  | eval _, value | evalAs .., value | apply .., value | invokeMethod .., value => [value]
  | place? _, some place => [place.base, place.property]
  | place? _, none | typeOf _, _ | readOnly _, _ | assign .., _ => []

theorem run_keeps {d : Discipline} (h : d.Compositional) {context : Context}
    (hhost : context.HostKeeps d) (hresolver : context.resolver.Keeps d) (depth : Nat)
    (operation : Operation) {stage : d.Stage} (hgiven : d.AdmitsAll stage operation.given)
    (world : World) :
    d.Run stage (fun stage' answer => d.AdmitsAll stage' (operation.answered answer))
      (operation.run context depth) world := by
  have hwithin := Evaluation.within_keeps h hhost hresolver depth
  have hone {stage : d.Stage} {value : Value} (hvalue : d.Admits stage value) :
      d.AdmitsAll stage [value] := List.forall_mem_singleton.mpr hvalue
  cases operation with
  | eval expr => exact h.weaken (hwithin.eval stage expr world) fun _ _ _ => hone
  | evalAs expr type =>
      apply h.bind (hwithin.eval stage expr world)
      intro s₁ value w₁ _ hvalue _
      apply h.heapNow
      intro _
      exact h.ofExcept fun result hresult =>
        hone (hhost.converters s₁ _ _ _ _ hvalue hresult).1
  | typeOf expr =>
      exact h.weaken (hwithin.type stage expr world) fun _ _ _ _ => List.forall_mem_nil _
  | readOnly expr =>
      exact h.weaken (hwithin.readOnly stage expr world) fun _ _ _ _ => List.forall_mem_nil _
  | assign expr value =>
      have hvalue := List.forall_mem_singleton.mp hgiven
      exact h.weaken (hwithin.assign stage expr value world hvalue) fun _ _ _ _ =>
        List.forall_mem_nil _
  | place? expr =>
      refine h.weaken (hwithin.place? stage expr world) ?_
      intro s₁ place _ hplace
      cases place with
      | none => exact List.forall_mem_nil _
      | some place =>
          obtain ⟨hbase, hproperty⟩ := hplace place rfl
          exact List.forall_mem_cons.mpr ⟨hbase, hone hproperty⟩
  | apply r args =>
      exact h.weaken (Evaluation.apply_keeps h hwithin r hgiven world) fun _ _ _ => hone
  | invokeMethod base method args =>
      obtain ⟨hbase, hargs⟩ := List.forall_mem_cons.mp hgiven
      exact h.weaken
        (Evaluation.invokeMethod_keeps h hhost hresolver hwithin hbase method hargs world)
        fun _ _ _ => hone

theorem run_obeys {law : Law} (h : law.Compositional) {context : Context}
    (hhost : context.HostObeys law) (hresolver : context.resolver.Obeys law) (depth : Nat)
    (operation : Operation) (world : World) : law _ (operation.run context depth) world := by
  have hhost := Context.hostKeeps_discipline.mpr hhost
  have hresolver := Resolver.keeps_discipline.mpr hresolver
  have hgiven : law.discipline.AdmitsAll () operation.given := fun _ _ => trivial
  exact (run_keeps h.discipline hhost hresolver depth operation hgiven world).1

end Operation
end ExprLang
