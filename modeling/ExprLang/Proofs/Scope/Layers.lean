import ExprLang.Proofs.Scope.Caller
import ExprLang.Proofs.Scope.Lambda

/-!
# Layers pushed and dropped

Calls push layers of bindings and drop them again.  A capture is the flattened view of all layers
there are: it binds what a look-up finds, however often the layers bind a name.  Pushed on other
scopes, long after its own layers are gone, it brings these values back; layers pushed after it may
hide them for a while, and when the capture itself is dropped, what was there before it is left.
-/

namespace ExprLang
namespace Scopes

/-- A change of the layers. -/
inductive Step
  | push (layer : Table Value)
  /-- Drop the innermost layer; this does nothing when there is none. -/
  | pop

def Step.apply (scopes : Scopes) : Step → Scopes
  | .push layer => scopes.push layer
  | .pop => scopes.pop

def run (scopes : Scopes) (steps : List Step) : Scopes := steps.foldl Step.apply scopes

/-- The layers, the innermost first, that steps leave of those they push and of some that are
there already; none if they drop a layer below these. -/
def left? : List (Table Value) → List Step → Option (List (Table Value))
  | layers, [] => some layers
  | layers, .push layer :: steps => left? (layer :: layers) steps
  | _ :: layers, .pop :: steps => left? layers steps
  | [], .pop :: _ => none

section Steps

variable {scopes target : Scopes} {steps : List Step} {layers layers' : List (Table Value)}
  {further : List (String × Value)} {name : String} {value : Value}

/-- Steps that do not reach below some layers leave everything below as it is. -/
theorem run_of_left? (h : left? layers steps = some layers') :
    (scopes.pushAll layers).run steps = scopes.pushAll layers' := by
  induction steps generalizing layers with
  | nil =>
      cases h
      rfl
  | cons step steps ih =>
      cases step with
      | push layer =>
          have hsteps : left? (layer :: layers) steps = some layers' := h
          exact ih hsteps
      | pop =>
          cases layers with
          | nil => cases h
          | cons layer layers =>
              have hsteps : left? layers steps = some layers' := h
              exact ih hsteps

/-- Under layers pushed later come the further bindings, then the captured ones, and then what the
capture was pushed on. -/
theorem find?_run_push_capture (h : left? [] steps = some layers) (name : String) :
    ((target.push (scopes.capture.insertAll further)).run steps).find? name =
      (layers.findSome? (·.find? name) <|> (Table.ofList further).find? name <|>
        scopes.find? name <|> target.find? name) := by
  have hrun : (target.push (scopes.capture.insertAll further)).run steps =
      (target.push (scopes.capture.insertAll further)).pushAll layers := run_of_left? h
  rw [hrun, find?_pushAll, find?_push, Table.find?_insertAll, find?_capture]
  cases layers.findSome? (·.find? name) with
  | some => rfl
  | none =>
      cases (Table.ofList further).find? name with
      | some => rfl
      | none => rfl

theorem find?_run_of_captured (h : left? [] steps = some layers)
    (hcaptured : scopes.find? name = some value) (hfurther : name ∉ further.map Prod.fst)
    (hlayers : ∀ layer ∈ layers, layer.find? name = none) :
    ((target.push (scopes.capture.insertAll further)).run steps).find? name = some value := by
  have hnone : layers.findSome? (·.find? name) = none := List.findSome?_eq_none_iff.mpr hlayers
  rw [find?_run_push_capture h, hnone, Table.find?_ofList_eq_none_iff.mpr hfurther, hcaptured]
  rfl

end Steps

/-- A layer that binds what was captured, and some further names, stands until it is dropped: layers
may come and go above it. -/
structure Stands (scopes target : Scopes) (further : List (String × Value)) (steps : List Step)
    (layers : List (Table Value)) : Prop where
  captured : ∀ name value, scopes.find? name = some value → name ∉ further.map Prod.fst →
    (∀ layer ∈ layers, layer.find? name = none) →
      ((target.push (scopes.capture.insertAll further)).run steps).find? name = some value
  all : ∀ name, ((target.push (scopes.capture.insertAll further)).run steps).find? name =
    (layers.findSome? (·.find? name) <|> (Table.ofList further).find? name <|>
      scopes.find? name <|> target.find? name)
  dropped : layers = [] →
    (target.push (scopes.capture.insertAll further)).run (steps ++ [.pop]) = target

theorem stands {scopes target : Scopes} {further : List (String × Value)} {steps : List Step}
    {layers : List (Table Value)} (h : left? [] steps = some layers) :
    scopes.Stands target further steps layers := by
  constructor
  case captured =>
    intro name value hcaptured hfurther hlayers
    exact find?_run_of_captured h hcaptured hfurther hlayers
  case all => exact find?_run_push_capture h
  case dropped =>
    rintro rfl
    have hrun : (target.push (scopes.capture.insertAll further)).run steps =
        target.push (scopes.capture.insertAll further) := run_of_left? h
    unfold run at hrun ⊢
    rw [List.foldl_append, hrun]
    rfl

/-- Whatever layers were pushed and dropped, the capture binds a name exactly as a look-up does.
Pushed on any scopes, alone or with further bindings, it gives every captured name its value unless
one of these rebinds it, also under layers pushed later that do not bind it, and when it is dropped
the scopes are what they were.  A lambda keeps the capture from where it was written, and every call
of it, however much later, pushes that capture with the parameters for as long as the body runs. -/
theorem capture_flattens (history : List Step) :
    let scopes := empty.run history
    (∀ name, scopes.capture.find? name = scopes.find? name) ∧
      (∀ target further steps layers, left? [] steps = some layers →
        scopes.Stands target further steps layers) ∧
      ∀ (params : List String) (body : Expr) (world : World), world.scopes = scopes →
        ∃ r after, Evaluation.newLambda params body world = .ok (.lambda r) after ∧
          ∀ (later : World) (deeper : Deeper) (args : List Value),
            after.heap.KeepsClosures later.heap → params.length ≤ args.length →
              Evaluation.apply deeper r args later =
                World.withLayer (scopes.capture.insertAll (params.zip args)) (deeper.eval body)
                  later := by
  intro scopes
  refine ⟨?capture, ?stands, ?closure⟩
  case capture => exact scopes.find?_capture
  case stands =>
    intro target further steps layers h
    exact stands h
  case closure =>
    intro params body world hworld
    exists world.heap.closures.size
    refine ⟨_, rfl, ?_⟩
    intro later deeper args hkept hargs
    have hsize : world.heap.closures.size <
        (world.heap.addClosure ⟨params, body, world.scopes.capture⟩).2.closures.size := by
      simp [Heap.addClosure]
    have hclosure : later.heap.closure world.heap.closures.size =
        ⟨params, body, scopes.capture⟩ := by
      rw [hkept.closure hsize, ← hworld]
      simp [Heap.closure]
    rw [Evaluation.apply_eq, hclosure]
    exact if_neg (Nat.not_lt.mpr hargs)

/-- Two layers bind `x` and the outer one also `y`.  The capture has the inner `x`; pushed with a
new `y`, and under a layer that comes and goes, it still has it, until it is dropped. -/
theorem capture_flattens_shadowed :
    let history : List Step :=
      [.pop, .push (.ofList [("x", .long 1), ("y", .long 2)]), .push (.ofList [("x", .long 10)])]
    let scopes := empty.run history
    let target : Scopes := ⟨[.ofList [("x", .long 7)]]⟩
    let steps : List Step := [.push (.ofList [("x", .long 3)]), .pop]
    scopes.capture.find? "x" = some (.long 10) ∧
      ((target.push (scopes.capture.insertAll [("y", .long 5)])).run steps).find? "x" =
        some (.long 10) ∧
      (target.push (scopes.capture.insertAll [("y", .long 5)])).run (steps ++ [.pop]) = target := by
  intro history scopes target steps
  rcases capture_flattens history with ⟨hcapture, hstands, -⟩
  have hleft : left? [] steps = some [] := rfl
  have hcaptured : scopes.find? "x" = some (.long 10) := rfl
  have hlater := hstands target [("y", .long 5)] steps [] hleft
  refine ⟨?_, ?_, ?_⟩
  · exact (hcapture "x").trans hcaptured
  · exact hlater.captured "x" _ hcaptured (by decide) nofun
  · exact hlater.dropped rfl

end Scopes
end ExprLang
