import ExprLang.Proofs.Collection.Snapshot

/-!
# Quantifiers about the elements

`anyMatch` asks its predicate about one element after the other and stops at the first one of which
the predicate is true.  `noneMatch` asks what `anyMatch` asks and is answered the same, but it goes
on behind a true answer, up to the last element or the first failure.  So the two quantifiers are
opposites where nothing depends on the questions that only one of them asks.
-/

namespace ExprLang

open Collection (Lambda truthOf)

variable {α β : Type}

/-!
## Courses that go on
-/

namespace Course

variable {ask : List Value → Action β} {decides : β → Prop} {world : World}
  {questions : List (List Value)} {answers : List β} {ending : EStateM.Result Failure World Unit}

/-- How many questions are asked: those that are answered, and one that fails. -/
def asked (answers : List β) : EStateM.Result Failure World Unit → Nat
  | .ok _ _ => answers.length
  | .error _ _ => answers.length + 1

theorem asked_append (answers more : List β) (ending : EStateM.Result Failure World Unit) :
    asked (answers ++ more) ending = answers.length + asked more ending := by
  cases ending <;> simp only [asked, List.length_append, Nat.add_assoc]

theorem asked_le (h : Course ask decides world questions answers ending) :
    asked answers ending ≤ questions.length := by
  induction h with
  | done => exact le_rfl
  | failed => exact Nat.succ_le_succ (Nat.zero_le _)
  | decided => exact Nat.succ_le_succ (Nat.zero_le _)
  | @answered _ _ _ _ _ _ ending _ _ _ ih =>
      cases ending <;> exact Nat.succ_le_succ ih

/-- The first question is asked, if there is one. -/
theorem asked_pos (h : Course ask decides world questions answers ending)
    (hquestions : questions ≠ []) : 0 < asked answers ending := by
  cases h with
  | done => exact absurd rfl hquestions
  | failed => exact Nat.succ_pos _
  | decided => exact Nat.succ_pos _
  | @answered _ _ _ _ _ _ ending => cases ending <;> exact Nat.succ_pos _

/-- Questions that are asked in a world have one course. -/
theorem unique {answers' : List β} {ending' : EStateM.Result Failure World Unit}
    (h : Course ask decides world questions answers ending)
    (h' : Course ask decides world questions answers' ending') :
    answers = answers' ∧ ending = ending' := by
  induction h generalizing answers' ending' with
  | done =>
      cases h'
      exact ⟨rfl, rfl⟩
  | failed hrun =>
      cases h' with
      | failed hrun' =>
          cases hrun.symm.trans hrun'
          exact ⟨rfl, rfl⟩
      | decided hrun' => cases hrun.symm.trans hrun'
      | answered hrun' => cases hrun.symm.trans hrun'
  | decided hrun hdecides =>
      cases h' with
      | failed hrun' => cases hrun.symm.trans hrun'
      | decided hrun' =>
          cases hrun.symm.trans hrun'
          exact ⟨rfl, rfl⟩
      | answered hrun' hnot =>
          cases hrun.symm.trans hrun'
          exact absurd hdecides hnot
  | answered hrun hnot _ ih =>
      cases h' with
      | failed hrun' => cases hrun.symm.trans hrun'
      | decided hrun' hdecides =>
          cases hrun.symm.trans hrun'
          exact absurd hdecides hnot
      | answered hrun' _ hrest =>
          cases hrun.symm.trans hrun'
          obtain ⟨rfl, rfl⟩ := ih hrest
          exact ⟨rfl, rfl⟩

/-- Where no answer is deciding, a course is the same if none could be.  After a deciding answer
the other questions can still be asked, in the world that the course has left. -/
theorem resume (h : Course ask decides world questions answers ending) :
    (∀ answer ∈ answers, ¬ decides answer) ∧
        Course ask (fun _ => False) world questions answers ending ∨
      ∃ answer ∈ answers, decides answer ∧ ∃ last, ending = .ok () last ∧
        ∀ more ending', Course ask (fun _ => False) last (questions.drop answers.length) more
            ending' →
          Course ask (fun _ => False) world questions (answers ++ more) ending' := by
  induction h with
  | done => exact .inl ⟨nofun, .done⟩
  | failed hrun => exact .inl ⟨nofun, .failed hrun⟩
  | @decided _ last _ _ answer hrun hdecides =>
      refine .inr ⟨answer, List.mem_cons_self, hdecides, last, rfl, fun more ending' hrest => ?_⟩
      exact .answered hrun not_false hrest
  | answered hrun hnot _ ih =>
      rcases ih with ⟨hnone, hsame⟩ | ⟨answer, hmem, hdecides, last, hending, hon⟩
      · exact .inl ⟨List.forall_mem_cons.mpr ⟨hnot, hnone⟩, .answered hrun not_false hsame⟩
      · refine .inr ⟨answer, List.mem_cons_of_mem _ hmem, hdecides, last, hending, ?_⟩
        exact fun more ending' hrest => .answered hrun not_false (hon more ending' hrest)

end Course

/-!
## The runs of the quantifiers
-/

namespace Collection

variable (lambda : Lambda) (items : List Value) (world : World)

theorem someIsOfAll_course (wanted : Bool) : ∃ truths ending,
    Course (truthOf lambda) (fun _ => False) world (items.map ([·])) truths ending ∧
      someIsOfAll wanted lambda items world =
        conclude ending (pure (truths.any (· == wanted))) := by
  refine exists_course_each (someIsOfAll wanted lambda) (truthOf lambda) (fun _ => False)
    (fun _ truths => truths.any (· == wanted)) (fun _ truth later => truth == wanted || later) rfl
    ?_ (fun _ _ _ _ _ => rfl) items world
  intro item rest
  simp only [someIsOfAll, truthOf, bind_assoc, if_false, map_eq_pure_bind]

variable {lambda items world}

/-- The answers and the ends of two runs, one that stops at the first true answer and one that asks
about all elements: the second goes on where the first has stopped. -/
structure AsksOn (lambda : Lambda) (items : List Value) (world : World) (truths more : List Bool)
    (ending last : EStateM.Result Failure World Unit) : Prop where
  stopping : Course (truthOf lambda) (· = true) world (items.map ([·])) truths ending
  asking : Course (truthOf lambda) (fun _ => False) world (items.map ([·])) (truths ++ more) last
  unanimous : true ∉ truths → more = [] ∧ last = ending
  resumed : true ∈ truths → ∃ next, ending = .ok () next ∧
    Course (truthOf lambda) (fun _ => False) next ((items.drop truths.length).map ([·])) more last

theorem exists_asksOn (lambda : Lambda) (items : List Value) (world : World) :
    ∃ truths more ending last, AsksOn lambda items world truths more ending last ∧
      someIs true lambda items world = conclude ending (pure (truths.any (· == true))) ∧
      someIsOfAll true lambda items world = conclude last (pure (truths.any (· == true))) := by
  obtain ⟨truths, ending, hstopping, hany⟩ := someIs_course lambda items world true
  obtain ⟨all, last, hasking, hall⟩ := someIsOfAll_course lambda items world true
  rcases hstopping.resume with ⟨hnone, hsame⟩ | ⟨_, htrue, rfl, next, hending, hon⟩
  · obtain ⟨rfl, rfl⟩ := hasking.unique hsame
    have hfalse : true ∉ all := fun htrue => hnone true htrue rfl
    refine ⟨all, [], last, last, ⟨hstopping, ?_, fun _ => ⟨rfl, rfl⟩, ?_⟩, hany, hall⟩
    · rw [List.append_nil]
      exact hasking
    · exact fun htrue => absurd htrue hfalse
  · obtain ⟨more, end', hrest, -⟩ :=
      someIsOfAll_course lambda (items.drop truths.length) next true
    have hwhole := hon more end' (List.map_drop ▸ hrest)
    obtain ⟨rfl, rfl⟩ := hasking.unique hwhole
    refine ⟨truths, more, ending, last, ⟨hstopping, hasking, ?_, ?_⟩, hany, ?_⟩
    · exact fun hfalse => absurd htrue hfalse
    · exact fun _ => ⟨next, hending, hrest⟩
    · have hfound : truths.any (· == true) = true := List.any_eq_true.mpr ⟨true, htrue, rfl⟩
      rw [hall, List.any_append, hfound, Bool.true_or]

namespace AsksOn

variable {truths more : List Bool} {ending last : EStateM.Result Failure World Unit}

theorem same_of_length (h : AsksOn lambda items world truths more ending last)
    (hlength : true ∈ truths → truths.length = items.length) : more = [] ∧ last = ending := by
  by_cases htrue : true ∈ truths
  · obtain ⟨next, rfl, hrest⟩ := h.resumed htrue
    rw [hlength htrue, List.drop_length] at hrest
    cases hrest
    exact ⟨rfl, rfl⟩
  · exact h.unanimous htrue

/-- Both runs ask about the same elements if and only if the first one does not stop before the
last element. -/
theorem same_asked_iff (h : AsksOn lambda items world truths more ending last) :
    items.take (Course.asked (truths ++ more) last) = items.take (Course.asked truths ending) ↔
      (true ∈ truths → truths.length = items.length) := by
  constructor
  · intro htake htrue
    obtain ⟨next, rfl, hrest⟩ := h.resumed htrue
    have hstopped : Course.asked truths (.ok () next) = truths.length := rfl
    have hstopping := h.stopping.asked_le
    have hasking := h.asking.asked_le
    rw [hstopped, List.length_map] at hstopping
    rw [Course.asked_append, List.length_map] at hasking
    -- as many questions are asked by both, so that no element is left behind the true answer
    have hcount := congrArg List.length htake
    rw [hstopped, Course.asked_append, List.length_take_of_le hasking,
      List.length_take_of_le hstopping] at hcount
    have hnil : (items.drop truths.length).map ([·]) = [] := by
      by_contra hrest'
      have hpos := hrest.asked_pos hrest'
      omega
    rw [List.map_eq_nil_iff, List.drop_eq_nil_iff] at hnil
    exact Nat.le_antisymm hstopping hnil
  · intro hlength
    obtain ⟨rfl, rfl⟩ := h.same_of_length hlength
    rw [List.append_nil]

end AsksOn
end Collection

/-- Two calls end in the same world, with opposite truths or with one failure. -/
inductive EndOpposite :
    EStateM.Result Failure World Value → EStateM.Result Failure World Value → Prop
  | truth (b : Bool) (last : World) : EndOpposite (.ok (.bool b) last) (.ok (.bool !b) last)
  | failure (failure : Failure) (last : World) :
      EndOpposite (.error failure last) (.error failure last)

theorem ending_of_conclude {ending : EStateM.Result Failure World Unit} {a b : α} {last : World}
    (h : conclude ending (pure a) = .ok b last) : ending = .ok () last := by
  cases ending with
  | ok _ world => exact congrArg (EStateM.Result.ok ()) (EStateM.Result.ok.inj h).2
  | error => cases h

theorem endOpposite_conclude_iff {ending last : EStateM.Result Failure World Unit} {b : Bool} :
    EndOpposite (conclude ending (pure (.bool b))) (conclude last (pure (.bool !b))) ↔
      last = ending := by
  constructor
  · intro h
    cases ending <;> cases last <;> cases h <;> rfl
  · rintro rfl
    cases last with
    | ok _ world => exact .truth b world
    | error failure world => exact .failure failure world

namespace Evaluation

open Resolver

variable {context : Context} {options : ResolverOptions}

/-- `noneMatch` asks its predicate what `anyMatch` asks and is answered the same, and if `anyMatch`
stops at a true answer it asks about the other elements, too, beginning in the world that `anyMatch`
has left.  So both ask about the same elements and end alike, with opposite truths or with one
failure, if and only if `anyMatch` stops at no element before the last; and they end alike if and
only if what only `noneMatch` asks neither fails nor changes the world. -/
theorem noneMatch_asks_on (hresolver : context.resolver = chain (standard options))
    (deeper : Deeper) {world : World} {base : Value} {items : List Value}
    (hitems : world.heap.items? base = some items) (r : Ref) :
    let call (name : String) := invokeMethod context deeper base name [.lambda r] world
    ∃ truths more ending last,
      Collection.AsksOn (apply deeper r) items world truths more ending last ∧
      call "anyMatch" = conclude ending (pure (.bool (true ∈ truths))) ∧
      call "noneMatch" = conclude last (pure (.bool (true ∉ truths))) ∧
      (items.take (Course.asked (truths ++ more) last) = items.take (Course.asked truths ending) ∧
          EndOpposite (call "anyMatch") (call "noneMatch") ↔
        (true ∈ truths → truths.length = items.length)) ∧
      (EndOpposite (call "anyMatch") (call "noneMatch") ↔ last = ending) := by
  intro call
  obtain ⟨truths, more, ending, last, hasks, hany, hnone⟩ :=
    Collection.exists_asksOn (apply deeper r) items world
  have hfound : truths.any (· == true) = decide (true ∈ truths) := by
    rw [Bool.eq_iff_iff]
    simp
  rw [hfound] at hany hnone
  have hcallAny : call "anyMatch" = conclude ending (pure (.bool (true ∈ truths))) :=
    (invokeMethod_collection hresolver hitems rfl le_rfl le_rfl).trans (bind_of_conclude hany _)
  have hcallNone : call "noneMatch" = conclude last (pure (.bool (true ∉ truths))) := by
    rw [decide_not]
    exact (invokeMethod_collection hresolver hitems rfl le_rfl le_rfl).trans
      (bind_of_conclude hnone _)
  have hopposite : EndOpposite (call "anyMatch") (call "noneMatch") ↔ last = ending := by
    rw [hcallAny, hcallNone, decide_not]
    exact endOpposite_conclude_iff
  refine ⟨truths, more, ending, last, hasks, hcallAny, hcallNone, ?_, hopposite⟩
  rw [hopposite, hasks.same_asked_iff]
  exact and_iff_left_of_imp fun hlength => (hasks.same_of_length hlength).2

/-- A world with one list and one lambda, which asks whether its argument leaves no remainder of
one.  It fails of zero. -/
def dividingOne (items : List Value) : World :=
  let divides : Closure :=
    ⟨["x"], .binary .eq (.binary .mod (.int 1) (.ident "x")) (.int 0), .empty⟩
  { (default : World) with heap := ⟨#[items], #[], #[], #[divides]⟩ }

/-- A call of a quantifier on the list with the lambda. -/
def askDividingOne (name : String) (items : List Value) : EStateM.Result Failure World Value :=
  invokeMethod (.standard {}) (within (.standard {}) 1) (.list 0) name [.lambda 0]
    (dividingOne items)

/-- Behind the true answer there is an element that only `noneMatch` asks about, in vain. -/
theorem noneMatch_asks_on_three :
    let items : List Value := [.long 2, .long 1, .long 3]
    askDividingOne "anyMatch" items = .ok (.bool true) (dividingOne items) ∧
      askDividingOne "noneMatch" items = .ok (.bool false) (dividingOne items) ∧
      EndOpposite (askDividingOne "anyMatch" items) (askDividingOne "noneMatch" items) := by
  intro items
  have hany : askDividingOne "anyMatch" items = .ok (.bool true) (dividingOne items) := rfl
  have hnone : askDividingOne "noneMatch" items = .ok (.bool false) (dividingOne items) := rfl
  have hresolver : (Context.standard {}).resolver = chain (standard {}) := rfl
  have hitems : (dividingOne items).heap.items? (.list 0) = some items := rfl
  obtain ⟨truths, more, ending, last, -, hcallAny, hcallNone, -, hopposite⟩ :=
    noneMatch_asks_on hresolver (within (.standard {}) 1) hitems 0
  have hends : last = ending :=
    (ending_of_conclude (hcallNone.symm.trans hnone)).trans
      (ending_of_conclude (hcallAny.symm.trans hany)).symm
  exact ⟨hany, hnone, hopposite.mpr hends⟩

/-- Here the element behind the true answer is zero, of which only `noneMatch` asks, and fails. -/
theorem noneMatch_fails_past_match :
    let items : List Value := [.long 1, .long 0]
    askDividingOne "anyMatch" items = .ok (.bool true) (dividingOne items) ∧
      askDividingOne "noneMatch" items =
        .error (.error (.of .moduloByZero)) (dividingOne items) ∧
      ¬ EndOpposite (askDividingOne "anyMatch" items) (askDividingOne "noneMatch" items) := by
  intro items
  have hany : askDividingOne "anyMatch" items = .ok (.bool true) (dividingOne items) := rfl
  have hnone : askDividingOne "noneMatch" items =
      .error (.error (.of .moduloByZero)) (dividingOne items) := rfl
  refine ⟨hany, hnone, fun hopposite => ?_⟩
  rw [hany, hnone] at hopposite
  cases hopposite

end Evaluation
end ExprLang
